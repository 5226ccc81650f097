import Mathlib.Logic.Function.Iterate
import Mathlib.Tactic

/-!
# Loops

A loop tests a condition and does its body for as long as the condition holds. It
need not end: it is given how often it may test (`whileLoop`). With enough tests it
ends where the condition fails for the first time (`whileLoop_eq_some_iff`), and it
ends at all if the condition ever fails (`exists_whileLoop_iff`).
-/

namespace Machine

variable {σ : Type*}

/-- The state a loop ends in, if it does within the given number of tests. -/
def whileLoop (test : σ → Bool) (body : σ → σ) : ℕ → σ → Option σ
  | 0, _ => none
  | fuel + 1, s => if test s then whileLoop test body fuel (body s) else some s

variable {test : σ → Bool} {body : σ → σ} {fuel : ℕ} {s s' : σ}

theorem whileLoop_eq_some_iff : whileLoop test body fuel s = some s' ↔
    ∃ n < fuel, s' = body^[n] s ∧ test s' = false ∧ ∀ i < n, test (body^[i] s) = true := by
  induction fuel generalizing s with
  | zero => simp [whileLoop]
  | succ fuel ih =>
    rw [whileLoop]
    split
    next htest =>
      rw [ih]
      constructor
      · rintro ⟨n, hn, rfl, hend, hall⟩
        refine ⟨n + 1, Nat.succ_lt_succ hn, rfl, hend, fun i hi => ?_⟩
        cases i with
        | zero => exact htest
        | succ i => exact hall i (Nat.lt_of_succ_lt_succ hi)
      · rintro ⟨n, hn, rfl, hend, hall⟩
        cases n with
        | zero => exact nomatch htest.symm.trans hend
        | succ n =>
          exact ⟨n, Nat.lt_of_succ_lt_succ hn, rfl, hend,
            fun i hi => hall (i + 1) (Nat.succ_lt_succ hi)⟩
    next htest =>
      constructor
      · rintro ⟨⟩
        exact ⟨0, fuel.succ_pos, rfl, Bool.eq_false_of_not_eq_true htest, fun _ h => nomatch h⟩
      · rintro ⟨n, -, rfl, -, hall⟩
        cases n with
        | zero => rfl
        | succ n => exact absurd (hall 0 n.succ_pos) htest

/-- A loop ends iff its condition fails after some number of rounds. -/
theorem exists_whileLoop_iff :
    (∃ fuel s', whileLoop test body fuel s = some s') ↔ ∃ n, test (body^[n] s) = false := by
  constructor
  · rintro ⟨fuel, s', h⟩
    obtain ⟨n, -, rfl, hend, -⟩ := whileLoop_eq_some_iff.1 h
    exact ⟨n, hend⟩
  · intro h
    -- The first of them is where the loop ends.
    refine ⟨Nat.find h + 1, _, whileLoop_eq_some_iff.2
      ⟨Nat.find h, Nat.lt_succ_self _, rfl, Nat.find_spec h, fun i hi => ?_⟩⟩
    exact Bool.eq_true_of_not_eq_false (Nat.find_min h hi)

end Machine
