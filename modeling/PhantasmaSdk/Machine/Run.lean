import Mathlib.Data.List.Infix
import Mathlib.Tactic

/-!
# Runs

A *system* takes labelled steps, some of which are not possible in some states. A
run is a list of labels, each a step from the state the one before it leaves. What
every step keeps, given a condition on the steps themselves, holds in every state
of a run whose steps all meet the condition (`Along.invariant`).
-/

namespace Machine

variable {σ α : Type}

/-- The state a run of steps ends in, if each of them is possible. -/
def run (step : σ → α → Option σ) : σ → List α → Option σ
  | s, [] => some s
  | s, a :: as => (step s a).bind fun s' => run step s' as

/-- Every step of a run, taken in the state it starts from, meets the condition. -/
def Along (step : σ → α → Option σ) (P : σ → α → Prop) : σ → List α → Prop
  | _, [] => True
  | s, a :: as => P s a ∧ ∀ s', step s a = some s' → Along step P s' as

variable {step : σ → α → Option σ} {P : σ → α → Prop} {s s' : σ} {a : α} {as bs : List α}

@[simp] theorem run_nil : run step s [] = some s := rfl

theorem run_cons : run step s (a :: as) = (step s a).bind fun s' => run step s' as := rfl

theorem run_append : run step s (as ++ bs) = (run step s as).bind fun s' => run step s' bs := by
  induction as generalizing s with
  | nil => rfl
  | cons a as ih =>
    rw [List.cons_append, run_cons, run_cons, Option.bind_assoc]
    exact congrArg (Option.bind _) (funext fun s' => ih)

theorem run_append_of_eq (h : run step s as = some s') : run step s (as ++ bs) = run step s' bs := by
  rw [run_append, h, Option.bind_some]

/-- The condition holds along a run iff it does along its first part and, if that
    gets anywhere, along the rest. -/
theorem along_append_iff : Along step P s (as ++ bs) ↔
    Along step P s as ∧ ∀ s', run step s as = some s' → Along step P s' bs := by
  induction as generalizing s with
  | nil => simp [Along]
  | cons a as ih =>
    simp only [List.cons_append, Along, ih, run_cons, Option.bind_eq_some_iff, and_assoc]
    constructor
    · rintro ⟨hP, h⟩
      exact ⟨hP, fun t ht => (h t ht).1, fun u ⟨t, ht, hu⟩ => (h t ht).2 u hu⟩
    · rintro ⟨hP, h, h'⟩
      exact ⟨hP, fun t ht => ⟨h t ht, fun u hu => h' u ⟨t, ht, hu⟩⟩⟩

/-- The condition fails along a run iff some step of it does not meet it, taken where
    the steps before it lead. -/
theorem not_along_iff : ¬Along step P s as ↔
    ∃ pre a post t, as = pre ++ a :: post ∧ run step s pre = some t ∧ ¬P t a := by
  induction as generalizing s with
  | nil => simp [Along]
  | cons b as ih =>
    constructor
    · intro h
      by_cases hP : P s b
      · simp only [Along, hP, true_and, not_forall] at h
        obtain ⟨t, ht, hnot⟩ := h
        obtain ⟨pre, a, post, u, rfl, hu, hPu⟩ := ih.1 hnot
        exact ⟨b :: pre, a, post, u, rfl, by rw [run_cons, ht, Option.bind_some, hu], hPu⟩
      · exact ⟨[], b, as, s, rfl, rfl, hP⟩
    · rintro ⟨pre, a, post, t, heq, ht, hP⟩ h
      rw [heq, along_append_iff] at h
      exact hP (h.2 t ht).1

/-- What the steps that meet the condition keep holds wherever a run of them leads. -/
theorem Along.invariant {Inv : σ → Prop} (hstep : ∀ s a s', Inv s → P s a → step s a = some s' →
    Inv s') (h : Along step P s as) (hs : Inv s) (hrun : run step s as = some s') : Inv s' := by
  induction as generalizing s with
  | nil => exact Option.some.inj hrun ▸ hs
  | cons a as ih =>
    obtain ⟨t, ht, hrun⟩ := Option.bind_eq_some_iff.1 hrun
    exact ih (h.2 t ht) (hstep s a t hs h.1 ht) hrun

/-- What every step keeps holds wherever a run leads. -/
theorem run_invariant {Inv : σ → Prop} (hstep : ∀ s a s', Inv s → step s a = some s' → Inv s')
    (hs : Inv s) (hrun : run step s as = some s') : Inv s' := by
  induction as generalizing s with
  | nil => exact Option.some.inj hrun ▸ hs
  | cons a as ih =>
    obtain ⟨t, ht, hrun⟩ := Option.bind_eq_some_iff.1 hrun
    exact ih (hstep s a t hs ht) hrun

end Machine
