import Mathlib.Data.List.Basic
import Mathlib.Data.List.Forall2
import Mathlib.Tactic

/-!
# Decoders

A *decoder* reads a value off the front of a list of symbols, or fails; what it
leaves is the rest of the input. Besides its result, a run records the
*capacity requests* it makes, i.e., how many elements it asked memory for, and
how many symbols were left in the input when it asked. A failing run keeps the
requests made before the failure.

Four notions of what a decoder does, each with a rule per combinator:

* `Reads d enc a`: on `enc`, followed by anything, `d` reads `a` and leaves what
  follows. The round-trip half of a codec.
* `Yields d P`: whatever `d` reads, it reads off a prefix of its input, and the
  value and the prefix are related by `P`. The half that says that only
  well-formed input is accepted.
* `SafeOn bad d input`: on this input `d` neither fails with a `bad` error, nor
  requests capacity for more elements than there are symbols left.
* `Steady bad d`: with more input, `d` reads the same values and fails with the
  same `bad` errors. Hence what is read to its end is not read from less of it.
-/

namespace Codec

/-- A request for capacity for `count` elements, `remaining` symbols being left. -/
structure Request where
  count : ℕ
  remaining : ℕ
  deriving DecidableEq, Repr

/-- A request is bounded when it asks for no more elements than there are
    symbols left. -/
def Request.Bounded (r : Request) : Prop := r.count ≤ r.remaining

instance (r : Request) : Decidable r.Bounded := inferInstanceAs (Decidable (_ ≤ _))

/-- What a run of a decoder gives: the value read and the rest of the input, or
    an error; and the requests made. -/
structure Outcome (σ ε α : Type) where
  result : Except ε (α × List σ)
  requests : List Request

/-- A decoder of values of `α` from symbols of `σ`, with errors in `ε`. -/
def Decoder (σ ε α : Type) := List σ → Outcome σ ε α

namespace Decoder

variable {σ ε α β γ : Type}

/-- The result of a run, forgetting the requests. -/
def run (d : Decoder σ ε α) (input : List σ) : Except ε (α × List σ) := (d input).result

/-- The requests of a run. -/
def requests (d : Decoder σ ε α) (input : List σ) : List Request := (d input).requests

protected def pure (a : α) : Decoder σ ε α := fun input => ⟨.ok (a, input), []⟩

protected def bind (d : Decoder σ ε α) (f : α → Decoder σ ε β) : Decoder σ ε β := fun input =>
  match (d input).result with
  | .ok (a, rest) => ⟨(f a rest).result, (d input).requests ++ (f a rest).requests⟩
  | .error e => ⟨.error e, (d input).requests⟩

instance : Monad (Decoder σ ε) where
  pure := Decoder.pure
  bind := Decoder.bind

/-- The decoder failing with `e`. -/
def fail (e : ε) : Decoder σ ε α := fun _ => ⟨.error e, []⟩

/-- The decoder of a result computed without reading. -/
def lift (r : Except ε α) : Decoder σ ε α := fun input => ⟨r.map fun a => (a, input), []⟩

/-- How many symbols are left. -/
def remaining : Decoder σ ε ℕ := fun input => ⟨.ok (input.length, input), []⟩

/-- Requests capacity for `count` elements. -/
def reserve (count : ℕ) : Decoder σ ε Unit := fun input =>
  ⟨.ok ((), input), [⟨count, input.length⟩]⟩

/-- The next `count` symbols, failing with `short` when there are fewer. -/
def take (count : ℕ) (short : ε) : Decoder σ ε (List σ) := fun input =>
  if count ≤ input.length then ⟨.ok (input.take count, input.drop count), []⟩
  else ⟨.error short, []⟩

/-- The values of `count` runs of `d`, one after the other. -/
def replicate (d : Decoder σ ε α) : ℕ → Decoder σ ε (List α)
  | 0 => pure []
  | count + 1 => do
    let a ← d
    let as ← replicate d count
    pure (a :: as)

/-! ## Runs -/

@[simp] theorem run_pure (a : α) (input : List σ) :
    (pure a : Decoder σ ε α).run input = .ok (a, input) := rfl

@[simp] theorem run_fail (e : ε) (input : List σ) :
    (fail e : Decoder σ ε α).run input = .error e := rfl

@[simp] theorem run_remaining (input : List σ) :
    (remaining : Decoder σ ε ℕ).run input = .ok (input.length, input) := rfl

@[simp] theorem run_reserve (count : ℕ) (input : List σ) :
    (reserve count : Decoder σ ε Unit).run input = .ok ((), input) := rfl

@[simp] theorem run_lift_ok (a : α) (input : List σ) :
    (lift (.ok a) : Decoder σ ε α).run input = .ok (a, input) := rfl

@[simp] theorem run_lift_error (e : ε) (input : List σ) :
    (lift (.error e) : Decoder σ ε α).run input = .error e := rfl

theorem run_take (count : ℕ) (short : ε) (input : List σ) :
    (take count short).run input =
      if count ≤ input.length then .ok (input.take count, input.drop count)
      else .error short := by
  rw [run, take]
  split <;> rfl

/-- A run of a sequence runs the first decoder, then the second on the rest. -/
theorem run_bind_of_ok {d : Decoder σ ε α} {f : α → Decoder σ ε β} {input mid : List σ} {a : α}
    (h : d.run input = .ok (a, mid)) : (d >>= f).run input = (f a).run mid := by
  change (d.bind f input).result = _
  rw [Decoder.bind, show (d input).result = .ok (a, mid) from h]
  rfl

theorem run_bind_of_error {d : Decoder σ ε α} {f : α → Decoder σ ε β} {input : List σ} {e : ε}
    (h : d.run input = .error e) : (d >>= f).run input = .error e := by
  change (d.bind f input).result = _
  rw [Decoder.bind, show (d input).result = .error e from h]

/-- A sequence reads a value iff its first decoder reads one, from which the
    second reads it off the rest. -/
theorem run_bind_eq_ok {d : Decoder σ ε α} {f : α → Decoder σ ε β} {input rest : List σ} {b : β} :
    (d >>= f).run input = .ok (b, rest) ↔
      ∃ a mid, d.run input = .ok (a, mid) ∧ (f a).run mid = .ok (b, rest) := by
  constructor
  · intro h
    cases hd : d.run input with
    | error e => rw [run_bind_of_error hd] at h; cases h
    | ok p => exact ⟨p.1, p.2, rfl, run_bind_of_ok hd ▸ h⟩
  · rintro ⟨a, mid, hd, hf⟩
    rw [run_bind_of_ok hd, hf]

/-- A sequence fails iff its first decoder does, or the second does on the rest. -/
theorem run_bind_eq_error {d : Decoder σ ε α} {f : α → Decoder σ ε β} {input : List σ} {e : ε} :
    (d >>= f).run input = .error e ↔
      d.run input = .error e ∨ ∃ a mid, d.run input = .ok (a, mid) ∧ (f a).run mid = .error e := by
  cases hd : d.run input with
  | error e' => simp [run_bind_of_error hd]
  | ok p =>
    obtain ⟨a, mid⟩ := p
    simp [run_bind_of_ok hd]

@[simp] theorem requests_pure (a : α) (input : List σ) :
    (pure a : Decoder σ ε α).requests input = [] := rfl

@[simp] theorem requests_fail (e : ε) (input : List σ) :
    (fail e : Decoder σ ε α).requests input = [] := rfl

@[simp] theorem requests_remaining (input : List σ) :
    (remaining : Decoder σ ε ℕ).requests input = [] := rfl

@[simp] theorem requests_lift (r : Except ε α) (input : List σ) :
    (lift r : Decoder σ ε α).requests input = [] := rfl

@[simp] theorem requests_reserve (count : ℕ) (input : List σ) :
    (reserve count : Decoder σ ε Unit).requests input = [⟨count, input.length⟩] := rfl

@[simp] theorem requests_take (count : ℕ) (short : ε) (input : List σ) :
    (take count short).requests input = [] := by
  rw [requests, take]
  split <;> rfl

theorem requests_bind_of_ok {d : Decoder σ ε α} {f : α → Decoder σ ε β} {input mid : List σ}
    {a : α} (h : d.run input = .ok (a, mid)) :
    (d >>= f).requests input = d.requests input ++ (f a).requests mid := by
  change (d.bind f input).requests = _
  rw [Decoder.bind, show (d input).result = .ok (a, mid) from h]
  rfl

theorem requests_bind_of_error {d : Decoder σ ε α} {f : α → Decoder σ ε β} {input : List σ}
    {e : ε} (h : d.run input = .error e) : (d >>= f).requests input = d.requests input := by
  change (d.bind f input).requests = _
  rw [Decoder.bind, show (d input).result = .error e from h]
  rfl

instance : LawfulMonad (Decoder σ ε) := by
  have hbind : ∀ {α β : Type} (d : Decoder σ ε α) (f : α → Decoder σ ε β) (input : List σ),
      (d >>= f) input = match (d input).result with
        | .ok (a, rest) => ⟨(f a rest).result, (d input).requests ++ (f a rest).requests⟩
        | .error e => ⟨.error e, (d input).requests⟩ := fun _ _ _ => rfl
  refine LawfulMonad.mk' _ (fun d => funext fun input => ?_) (fun a f => funext fun input => ?_)
    (fun d f g => funext fun input => ?_)
  · change (d >>= pure) input = _
    rw [hbind]
    obtain ⟨result, requests⟩ := d input
    cases result with
    | error e => rfl
    | ok p => exact congrArg (Outcome.mk _) (List.append_nil _)
  · rw [hbind]
    rfl
  · rw [hbind, hbind, hbind]
    obtain ⟨result, requests⟩ := d input
    cases result with
    | error e => rfl
    | ok p =>
      simp only [hbind]
      cases (f p.1 p.2).result with
      | error e => rfl
      | ok q => simp

/-! ## Reading back -/

/-- On `enc`, followed by anything, `d` reads `a` and leaves what follows. -/
def Reads (d : Decoder σ ε α) (enc : List σ) (a : α) : Prop :=
  ∀ suffix, d.run (enc ++ suffix) = .ok (a, suffix)

theorem reads_pure (a : α) : (pure a : Decoder σ ε α).Reads [] a := fun _ => rfl

theorem reads_lift {r : Except ε α} {a : α} (h : r = .ok a) :
    (lift r : Decoder σ ε α).Reads [] a := fun _ => by subst h; rfl

theorem reads_reserve (count : ℕ) : (reserve count : Decoder σ ε Unit).Reads [] () := fun _ => rfl

theorem reads_take {enc : List σ} {count : ℕ} (h : enc.length = count) (short : ε) :
    (take count short).Reads enc enc := fun suffix => by
  subst h
  rw [run_take, if_pos (by simp), List.take_left, List.drop_left]

theorem Reads.bind {d : Decoder σ ε α} {f : α → Decoder σ ε β} {enc t : List σ} {a : α} {b : β}
    (hd : d.Reads enc a) (hf : (f a).Reads t b) : (d >>= f).Reads (enc ++ t) b :=
  fun suffix => by rw [List.append_assoc, run_bind_of_ok (hd _), hf]

/-- `Reads.bind` for a first decoder that reads nothing. -/
theorem Reads.bind_nil {d : Decoder σ ε α} {f : α → Decoder σ ε β} {enc : List σ} {a : α} {b : β}
    (hd : d.Reads [] a) (hf : (f a).Reads enc b) : (d >>= f).Reads enc b := by
  simpa using hd.bind hf

/-- The last step of a sequence: the value is built from what was read. -/
theorem Reads.map {d : Decoder σ ε α} {enc : List σ} {a : α} (hd : d.Reads enc a) (f : α → β) :
    (d >>= fun a => pure (f a)).Reads enc (f a) := by
  have := Reads.bind (f := fun a => pure (f a)) hd (reads_pure (f a))
  rwa [List.append_nil] at this

theorem Reads.congr {d : Decoder σ ε α} {enc enc' : List σ} {a a' : α} (h : d.Reads enc a)
    (he : enc' = enc) (ha : a' = a) : d.Reads enc' a' := by subst he ha; exact h

/-- A value read leaving nothing over. -/
theorem Reads.run_self {d : Decoder σ ε α} {enc : List σ} {a : α} (h : d.Reads enc a) :
    d.run enc = .ok (a, []) := by simpa using h []

/-- What is read back tells where it ends. -/
theorem Reads.append_inj {d : Decoder σ ε α} {enc enc' suffix suffix' : List σ} {a a' : α}
    (h : d.Reads enc a) (h' : d.Reads enc' a') (heq : enc ++ suffix = enc' ++ suffix') :
    a = a' ∧ suffix = suffix' := by
  have hrun := h suffix
  rw [heq, h'] at hrun
  obtain ⟨ha, hs⟩ := Prod.mk.inj (Except.ok.inj hrun)
  exact ⟨ha.symm, hs.symm⟩

theorem reads_replicate {d : Decoder σ ε α} {encs : List (List σ)} {as : List α}
    (h : List.Forall₂ d.Reads encs as) : (d.replicate as.length).Reads encs.flatten as := by
  induction h with
  | nil => exact reads_pure []
  | cons ha _ ih => exact ha.bind (ih.map _)

/-! ## Accepted input -/

/-- Whatever `d` reads, it reads off a prefix of its input, and the value and the
    prefix are related by `P`. -/
def Yields (d : Decoder σ ε α) (P : α → List σ → Prop) : Prop :=
  ∀ input a rest, d.run input = .ok (a, rest) → ∃ used, input = used ++ rest ∧ P a used

theorem Yields.mono {d : Decoder σ ε α} {P Q : α → List σ → Prop} (h : d.Yields P)
    (hPQ : ∀ a used, P a used → Q a used) : d.Yields Q := fun input a rest hr =>
  let ⟨used, hu, hP⟩ := h input a rest hr
  ⟨used, hu, hPQ a used hP⟩

theorem yields_pure {a : α} {P : α → List σ → Prop} (h : P a []) :
    (pure a : Decoder σ ε α).Yields P := by
  intro input b rest hr
  obtain ⟨rfl, rfl⟩ : a = b ∧ input = rest := by simpa using hr
  exact ⟨[], rfl, h⟩

theorem yields_fail (e : ε) (P : α → List σ → Prop) : (fail e : Decoder σ ε α).Yields P := by
  intro input a rest hr
  cases hr

theorem yields_lift {r : Except ε α} {P : α → List σ → Prop} (h : ∀ a, r = .ok a → P a []) :
    (lift r : Decoder σ ε α).Yields P := by
  intro input a rest hr
  cases r with
  | error e => cases hr
  | ok a' =>
    obtain ⟨rfl, rfl⟩ : a' = a ∧ input = rest := by simpa using hr
    exact ⟨[], rfl, h a' rfl⟩

theorem yields_remaining : (remaining : Decoder σ ε ℕ).Yields fun _ used => used = [] := by
  intro input a rest hr
  obtain ⟨rfl, rfl⟩ : input.length = a ∧ input = rest := by simpa using hr
  exact ⟨[], rfl, rfl⟩

theorem yields_reserve (count : ℕ) :
    (reserve count : Decoder σ ε Unit).Yields fun _ used => used = [] := by
  intro input a rest hr
  obtain ⟨rfl, rfl⟩ : () = a ∧ input = rest := by simpa using hr
  exact ⟨[], rfl, rfl⟩

theorem yields_take (count : ℕ) (short : ε) :
    (take count short : Decoder σ ε (List σ)).Yields fun a used => a = used ∧ used.length = count := by
  intro input a rest hr
  rw [run_take] at hr
  split at hr
  · obtain ⟨rfl, rfl⟩ : input.take count = a ∧ input.drop count = rest := by simpa using hr
    exact ⟨_, (List.take_append_drop _ _).symm, rfl, by simpa⟩
  · cases hr

theorem Yields.bind {d : Decoder σ ε α} {f : α → Decoder σ ε β} {P : α → List σ → Prop}
    {Q : β → List σ → Prop} (hd : d.Yields P)
    (hf : ∀ a used, P a used → (f a).Yields fun b used' => Q b (used ++ used')) :
    (d >>= f).Yields Q := by
  intro input b rest hr
  obtain ⟨a, mid, ha, hb⟩ := run_bind_eq_ok.1 hr
  obtain ⟨used, rfl, hP⟩ := hd _ _ _ ha
  obtain ⟨used', rfl, hQ⟩ := hf a used hP _ _ _ hb
  exact ⟨used ++ used', (List.append_assoc _ _ _).symm, hQ⟩

/-- A repeated decoder reads as many values as asked, each off its own prefix. -/
theorem yields_replicate {d : Decoder σ ε α} {P : α → List σ → Prop} (hd : d.Yields P)
    (count : ℕ) : (d.replicate count).Yields fun as used =>
      as.length = count ∧ ∃ useds : List (List σ), used = useds.flatten ∧
        List.Forall₂ P as useds := by
  induction count with
  | zero => exact yields_pure ⟨rfl, [], rfl, .nil⟩
  | succ count ih =>
    refine hd.bind fun a used ha => ih.bind fun as used' has => yields_pure ?_
    obtain ⟨hlen, useds, rfl, hall⟩ := has
    exact ⟨by simp [hlen], used :: useds, by simp, .cons ha hall⟩

/-- Whatever `d` reads is in `P`. (What it is read off is left open.) -/
def Gives (d : Decoder σ ε α) (P : α → Prop) : Prop :=
  ∀ input a rest, d.run input = .ok (a, rest) → P a

theorem Yields.gives {d : Decoder σ ε α} {P : α → List σ → Prop} {Q : α → Prop} (h : d.Yields P)
    (hPQ : ∀ a used, P a used → Q a) : d.Gives Q := fun _ a _ hr =>
  let ⟨used, _, hP⟩ := h _ _ _ hr
  hPQ a used hP

theorem gives_pure {a : α} {P : α → Prop} (h : P a) : (pure a : Decoder σ ε α).Gives P := by
  intro input b rest hr
  exact (Prod.mk.inj (Except.ok.inj hr)).1 ▸ h

theorem gives_fail (e : ε) (P : α → Prop) : (fail e : Decoder σ ε α).Gives P := nofun

theorem Gives.bind {d : Decoder σ ε α} {f : α → Decoder σ ε β} {P : α → Prop} {Q : β → Prop}
    (hd : d.Gives P) (hf : ∀ a, P a → (f a).Gives Q) : (d >>= f).Gives Q := by
  intro input b rest hr
  obtain ⟨a, mid, ha, hb⟩ := run_bind_eq_ok.1 hr
  exact hf a (hd _ _ _ ha) _ _ _ hb

/-- A value built from what is read, if it is in `P` whatever that is. -/
theorem gives_map {d : Decoder σ ε α} {f : α → β} {P : β → Prop} (h : ∀ a, P (f a)) :
    (d >>= fun a => pure (f a)).Gives P := by
  intro input b rest hr
  obtain ⟨a, mid, -, hb⟩ := run_bind_eq_ok.1 hr
  exact gives_pure (h a) _ _ _ hb

theorem Gives.mapM {f : γ → Decoder σ ε α} {P : α → Prop} {cs : List γ}
    (h : ∀ c ∈ cs, (f c).Gives P) : (cs.mapM f).Gives fun as => ∀ a ∈ as, P a := by
  induction cs with
  | nil => exact gives_pure (by simp)
  | cons c cs ih =>
    rw [List.mapM_cons]
    refine (h c List.mem_cons_self).bind fun a ha =>
      (ih fun c hc => h c (List.mem_cons_of_mem _ hc)).bind fun as has => gives_pure ?_
    exact List.forall_mem_cons.2 ⟨ha, has⟩

theorem Gives.replicate {d : Decoder σ ε α} {P : α → Prop} (h : d.Gives P) (count : ℕ) :
    (d.replicate count).Gives fun as => ∀ a ∈ as, P a := by
  induction count with
  | zero => exact gives_pure (by simp)
  | succ count ih =>
    exact h.bind fun a ha => ih.bind fun as has => gives_pure (List.forall_mem_cons.2 ⟨ha, has⟩)

theorem gives_length_replicate (d : Decoder σ ε α) (count : ℕ) :
    (d.replicate count).Gives fun as => as.length = count := by
  induction count with
  | zero => exact gives_pure rfl
  | succ count ih =>
    have hhead : d.Gives fun _ => True := fun _ _ _ _ => trivial
    exact hhead.bind fun a _ => ih.bind fun as has => gives_pure (congrArg (· + 1) has)

/-! ## Safety -/

/-- On this input, `d` neither fails with a `bad` error, nor requests capacity
    for more elements than there are symbols left. -/
def SafeOn (bad : ε → Prop) (d : Decoder σ ε α) (input : List σ) : Prop :=
  (∀ e, d.run input = .error e → ¬bad e) ∧ ∀ r ∈ d.requests input, r.Bounded

variable {bad : ε → Prop}

/-- A sequence is safe iff its first decoder is, and the second is on whatever the
    first leaves. -/
theorem safeOn_bind {d : Decoder σ ε α} {f : α → Decoder σ ε β} {input : List σ} :
    (d >>= f).SafeOn bad input ↔ d.SafeOn bad input ∧
      ∀ a mid, d.run input = .ok (a, mid) → (f a).SafeOn bad mid := by
  cases hd : d.run input with
  | error e => simp [SafeOn, run_bind_of_error hd, requests_bind_of_error hd, hd]
  | ok p =>
    obtain ⟨a, mid⟩ := p
    simp only [SafeOn, run_bind_of_ok hd, requests_bind_of_ok hd, hd, List.mem_append, or_imp,
      forall_and, Except.ok.injEq, Prod.mk.injEq, reduceCtorEq, false_implies, implies_true,
      true_and, and_imp]
    constructor
    · rintro ⟨he, hr, hr'⟩
      exact ⟨hr, fun _ _ ha hm => ha ▸ hm ▸ he, fun _ _ ha hm => ha ▸ hm ▸ hr'⟩
    · rintro ⟨hr, he, hr'⟩
      exact ⟨he a mid rfl rfl, hr, hr' a mid rfl rfl⟩

/-- After a safe decoder whose reading is known, what is left is the second. -/
theorem safeOn_bind_of_reads {d : Decoder σ ε α} {f : α → Decoder σ ε β} {enc input : List σ}
    {a : α} (hr : d.Reads enc a) (hd : d.SafeOn bad (enc ++ input)) :
    (d >>= f).SafeOn bad (enc ++ input) ↔ (f a).SafeOn bad input := by
  rw [safeOn_bind, and_iff_right hd]
  constructor
  · exact fun h => h a input (hr input)
  · intro h a' mid hrun
    obtain ⟨rfl, rfl⟩ : a = a' ∧ input = mid := by simpa [hr input] using hrun
    exact h

/-- A sequence is safe if both its decoders are, the second on any input. -/
theorem SafeOn.bind {d : Decoder σ ε α} {f : α → Decoder σ ε β} {input : List σ}
    (hd : d.SafeOn bad input) (hf : ∀ a {mid}, (f a).SafeOn bad mid) :
    (d >>= f).SafeOn bad input := safeOn_bind.2 ⟨hd, fun a _ _ => hf a⟩

@[simp] theorem safeOn_pure (a : α) (input : List σ) :
    (pure a : Decoder σ ε α).SafeOn bad input := by simp [SafeOn]

@[simp] theorem safeOn_fail (e : ε) (input : List σ) :
    (fail e : Decoder σ ε α).SafeOn bad input ↔ ¬bad e := by simp [SafeOn]

@[simp] theorem safeOn_remaining (input : List σ) :
    (remaining : Decoder σ ε ℕ).SafeOn bad input := by simp [SafeOn]

@[simp] theorem safeOn_reserve (count : ℕ) (input : List σ) :
    (reserve count : Decoder σ ε Unit).SafeOn bad input ↔ count ≤ input.length := by
  simp [SafeOn, Request.Bounded]

theorem safeOn_lift {r : Except ε α} (h : ∀ e, r = .error e → ¬bad e) (input : List σ) :
    (lift r : Decoder σ ε α).SafeOn bad input := by
  cases r with
  | ok a => exact safeOn_pure a input
  | error e => exact (safeOn_fail e input).2 (h e rfl)

theorem safeOn_take (count : ℕ) {short : ε} (h : ¬bad short) (input : List σ) :
    (take count short).SafeOn bad input := by
  refine ⟨fun e he => ?_, by simp⟩
  rw [run_take] at he
  split at he
  · cases he
  · exact Except.error.inj he ▸ h

/-- The inputs the successive runs of a repeated decoder start from. -/
def stops (d : Decoder σ ε α) : ℕ → List σ → List (List σ)
  | 0, _ => []
  | count + 1, input => input :: match d.run input with
    | .ok (_, rest) => stops d count rest
    | .error _ => []

/-- A repeated decoder is safe iff each of its runs is. -/
theorem safeOn_replicate {d : Decoder σ ε α} {count : ℕ} {input : List σ} :
    (d.replicate count).SafeOn bad input ↔ ∀ stop ∈ d.stops count input, d.SafeOn bad stop := by
  induction count generalizing input with
  | zero => simp [replicate, stops]
  | succ count ih =>
    simp only [replicate, safeOn_bind, safeOn_pure, implies_true, and_true, stops,
      List.forall_mem_cons]
    refine and_congr_right fun _ => ?_
    cases hd : d.run input with
    | error e => simp
    | ok p =>
      obtain ⟨a, mid⟩ := p
      simp [ih]

/-- A repeated decoder is safe on short input if it is safe on all input that short, and
    leaves no more than it is given. -/
theorem SafeOn.replicate {d : Decoder σ ε α} {n : ℕ}
    (hd : ∀ {input rest : List σ} {a : α}, d.run input = .ok (a, rest) →
      rest.length ≤ input.length)
    (h : ∀ {input : List σ}, input.length ≤ n → d.SafeOn bad input) (count : ℕ) {input : List σ}
    (hinput : input.length ≤ n) : (d.replicate count).SafeOn bad input := by
  induction count generalizing input with
  | zero => exact safeOn_pure _ _
  | succ count ih =>
    refine safeOn_bind.2 ⟨h hinput, fun a mid hmid => ?_⟩
    exact (ih ((hd hmid).trans hinput)).bind fun as => safeOn_pure _ _

/-- The stops of a repeated decoder that reads the values in `as`, off `encs`, are
    where the encodings of fewer of them than asked leave off. -/
theorem mem_stops_iff {d : Decoder σ ε α} {P : α → List σ → Prop} (hP : ∀ a enc, P a enc →
    d.Reads enc a) (hd : d.Yields P) {count : ℕ} {input stop : List σ} :
    stop ∈ d.stops count input ↔ ∃ (as : List α) (encs : List (List σ)), as.length < count ∧
      List.Forall₂ P as encs ∧ input = encs.flatten ++ stop := by
  induction count generalizing input with
  | zero => simp [stops]
  | succ count ih =>
    rw [stops, List.mem_cons]
    constructor
    · rintro (rfl | h)
      · exact ⟨[], [], by simp, .nil, rfl⟩
      · cases hrun : d.run input with
        | error e => simp [hrun] at h
        | ok p =>
          obtain ⟨a, rest⟩ := p
          simp only [hrun] at h
          obtain ⟨as, encs, hlen, hall, rfl⟩ := ih.1 h
          obtain ⟨enc, rfl, ha⟩ := hd _ _ _ hrun
          exact ⟨a :: as, enc :: encs, by simpa using hlen, .cons ha hall, by simp⟩
    · rintro ⟨as, encs, hlen, hall, rfl⟩
      cases hall with
      | nil => exact .inl rfl
      | @cons a enc as encs ha hall =>
        refine .inr ?_
        rw [List.flatten_cons, List.append_assoc, hP _ _ ha]
        exact ih.2 ⟨as, encs, by simpa using hlen, hall, rfl⟩

/-! ## Reading more -/

/-- Whatever `d` reads, `d'` reads. -/
def CoveredBy (d d' : Decoder σ ε α) : Prop :=
  ∀ input a rest, d.run input = .ok (a, rest) → d'.run input = .ok (a, rest)

theorem CoveredBy.refl (d : Decoder σ ε α) : d.CoveredBy d := fun _ _ _ h => h

theorem CoveredBy.trans {d d' d'' : Decoder σ ε α} (h : d.CoveredBy d') (h' : d'.CoveredBy d'') :
    d.CoveredBy d'' := fun _ _ _ hrun => h' _ _ _ (h _ _ _ hrun)

theorem coveredBy_fail (e : ε) (d : Decoder σ ε α) : (fail e).CoveredBy d := nofun

theorem CoveredBy.bind {d d' : Decoder σ ε α} {f f' : α → Decoder σ ε β} (h : d.CoveredBy d')
    (hf : ∀ a, (f a).CoveredBy (f' a)) : (d >>= f).CoveredBy (d' >>= f') := by
  intro input b rest hrun
  obtain ⟨a, mid, ha, hb⟩ := run_bind_eq_ok.1 hrun
  exact run_bind_eq_ok.2 ⟨a, mid, h _ _ _ ha, hf a _ _ _ hb⟩

theorem CoveredBy.replicate {d d' : Decoder σ ε α} (h : d.CoveredBy d') (count : ℕ) :
    (d.replicate count).CoveredBy (d'.replicate count) := by
  induction count with
  | zero => exact .refl _
  | succ count ih => exact h.bind fun _ => ih.bind fun _ => .refl _

/-! ## Longer input -/

/-- With more input, `d` reads the same values, leaving the more, and fails with
    the same `bad` errors. (An error that is not `bad` may be for want of input.) -/
structure Steady (bad : ε → Prop) (d : Decoder σ ε α) : Prop where
  ok : ∀ {input rest : List σ} {a : α}, d.run input = .ok (a, rest) →
    ∀ more, d.run (input ++ more) = .ok (a, rest ++ more)
  error : ∀ {input : List σ} {e : ε}, d.run input = .error e → bad e →
    ∀ more, d.run (input ++ more) = .error e

/-- A decoder that reads each value off any input that begins as the one it was
    read off, and that does not fail badly, is steady. -/
theorem steady_of_reads {d : Decoder σ ε α} {P : α → List σ → Prop} (hd : d.Yields P)
    (hP : ∀ a used, P a used → d.Reads used a) (hsafe : ∀ input, d.SafeOn bad input) :
    d.Steady bad where
  ok {input rest a} hrun more := by
    obtain ⟨used, rfl, ha⟩ := hd _ _ _ hrun
    rw [List.append_assoc, hP a used ha]
  error hrun hbad := absurd hbad ((hsafe _).1 _ hrun)

theorem steady_pure (a : α) : (pure a : Decoder σ ε α).Steady bad where
  ok hrun more := by
    obtain ⟨rfl, rfl⟩ := Prod.mk.inj (Except.ok.inj hrun)
    rfl
  error hrun := nomatch hrun

theorem steady_fail (e : ε) : (fail e : Decoder σ ε α).Steady bad where
  ok hrun := nomatch hrun
  error hrun _ _ := hrun

theorem steady_reserve (count : ℕ) : (reserve count : Decoder σ ε Unit).Steady bad where
  ok hrun more := by
    obtain ⟨rfl, rfl⟩ := Prod.mk.inj (Except.ok.inj hrun)
    rfl
  error hrun := nomatch hrun

theorem steady_take (count : ℕ) {short : ε} (h : ¬bad short) :
    (take count short : Decoder σ ε (List σ)).Steady bad where
  ok {input rest a} hrun more := by
    obtain ⟨used, rfl, rfl, hlen⟩ := yields_take _ _ _ _ _ hrun
    rw [List.append_assoc, reads_take hlen]
  error {input e} hrun hbad := by
    rw [run_take] at hrun
    split at hrun
    · cases hrun
    · exact absurd (Except.error.inj hrun ▸ hbad) h

/-- The second decoder is run on what the first leaves, with the more at its end. -/
theorem Steady.bind {d : Decoder σ ε α} {f : α → Decoder σ ε β} (hd : d.Steady bad)
    (hf : ∀ a, (f a).Steady bad) : (d >>= f).Steady bad where
  ok hrun more := by
    obtain ⟨a, mid, ha, hb⟩ := run_bind_eq_ok.1 hrun
    rw [run_bind_of_ok (hd.ok ha more), (hf a).ok hb more]
  error hrun hbad more := by
    rcases run_bind_eq_error.1 hrun with he | ⟨a, mid, ha, he⟩
    · exact run_bind_of_error (hd.error he hbad more)
    · rw [run_bind_of_ok (hd.ok ha more), (hf a).error he hbad more]

theorem Steady.replicate {d : Decoder σ ε α} (hd : d.Steady bad) (count : ℕ) :
    (d.replicate count).Steady bad := by
  induction count with
  | zero => exact steady_pure []
  | succ count ih => exact hd.bind fun a => ih.bind fun as => steady_pure _

/-- What is read to its end is refused when it is cut short, and not badly: a value
    read off less would leave the rest over, and a bad error would come again. -/
theorem Steady.refuse_short {d : Decoder σ ε α} (hd : d.Steady bad) {short more : List σ} {a : α}
    (hrun : d.run (short ++ more) = .ok (a, [])) (hmore : more ≠ []) :
    ∃ e, d.run short = .error e ∧ ¬bad e := by
  cases hshort : d.run short with
  | ok p =>
    have hlong := hd.ok hshort more
    rw [hrun] at hlong
    have hrest : [] = p.2 ++ more := congrArg Prod.snd (Except.ok.inj hlong)
    exact absurd (List.append_eq_nil_iff.1 hrest.symm).2 hmore
  | error e =>
    refine ⟨e, rfl, fun hbad => ?_⟩
    rw [hd.error hshort hbad more] at hrun
    cases hrun

end Decoder
end Codec
