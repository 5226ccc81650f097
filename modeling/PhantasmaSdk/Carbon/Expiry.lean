import Mathlib.Data.List.DropRight
import PhantasmaSdk.Basic

/-!
# Expiry

The expiry of a message is as late as the chain's window allows, less a margin. The
time that is left is counted in whole milliseconds, after it was seen to be some at
all: of less than a millisecond nothing is left, and the message expires at once.
Nor is it checked that the clock has room for it (`expiresInTime_iff`).
-/

namespace PhantasmaSdk.Carbon

/-! ## Durations -/

/-- A span of time in nanoseconds, of at most as many seconds as a `u64` holds. -/
structure Duration where
  nanos : ℕ
  lt : nanos < 2 ^ 64 * 10 ^ 9
  deriving DecidableEq, Repr

namespace Duration

def zero : Duration := ⟨0, by norm_num⟩

def isZero (d : Duration) : Bool := d.nanos = 0

def asMillis (d : Duration) : ℕ := d.nanos / 10 ^ 6

def checkedSub (d e : Duration) : Option Duration :=
  if e.nanos ≤ d.nanos then some ⟨d.nanos - e.nanos, (Nat.sub_le _ _).trans_lt d.lt⟩ else none

/-- A number with its decimal part, of which the zeros at the end are not shown. -/
def debugDecimal (whole part digits : ℕ) (suffix : String) : String :=
  let shown := ((Nat.toDigits 10 part).leftpad digits '0').rdropWhile (· = '0')
  toString whole ++ (if part = 0 then "" else "." ++ String.ofList shown) ++ suffix

/-- A duration in the largest of its units that it has one of. -/
def debug (d : Duration) : String :=
  if 10 ^ 9 ≤ d.nanos then debugDecimal (d.nanos / 10 ^ 9) (d.nanos % 10 ^ 9) 9 "s"
  else if 10 ^ 6 ≤ d.nanos then debugDecimal (d.nanos / 10 ^ 6) (d.nanos % 10 ^ 6) 6 "ms"
  else if 10 ^ 3 ≤ d.nanos then debugDecimal (d.nanos / 10 ^ 3) (d.nanos % 10 ^ 3) 3 "µs"
  else debugDecimal d.nanos 0 0 "ns"

end Duration

def fiveSeconds : Duration := ⟨5 * 10 ^ 9, by norm_num⟩

/-! ## The clock -/

def i64TryFrom (n : ℕ) : Option Int64 := if n < 2 ^ 63 then some (Int64.ofNat n) else none

def addI64 (a b : Int64) : Result Int64 :=
  if -2 ^ 63 ≤ a.toInt + b.toInt ∧ a.toInt + b.toInt < 2 ^ 63 then pure (a + b) else overflow

/-- The clock, in milliseconds, given the time since the epoch unless that is to come. -/
def nowUnixMillis (clock : Option Duration) : Int64 :=
  Int64.ofNat (clock.getD .zero).asMillis

/-- The margin for the clock of the node, where none is given. -/
def marginOr (margin : Duration) : Duration := if margin.isZero then fiveSeconds else margin

def expiryWithin (clock : Option Duration) (expiryWindow margin : Duration) : Result Int64 :=
  if expiryWindow.isZero then builder "expiry_within: expiry_window must be positive"
  else
    let margin := marginOr margin
    match (expiryWindow.checkedSub margin).filter fun lifetime => !lifetime.isZero with
    | none => builder (s!"expiry_within: a margin of {margin.debug} leaves nothing of a " ++
        s!"{expiryWindow.debug} window")
    | some lifetime =>
      match i64TryFrom lifetime.asMillis with
      | none => builder "expiry_within: window overflow"
      | some lifetime => addI64 (nowUnixMillis clock) lifetime

theorem addI64_eq_ok {a b c : Int64} : addI64 a b = .ok c ↔ c.toInt = a.toInt + b.toInt := by
  rw [addI64]
  split
  next h =>
    have hadd : (a + b).toInt = a.toInt + b.toInt := by
      rw [Int64.toInt_add]
      exact Codec.bmod_eq_self (by push_cast; omega) (by push_cast; omega)
    rw [pure_eq_ok, ← hadd, Int64.toInt_inj, Except.ok.injEq, eq_comm]
  next h =>
    refine ⟨nofun, fun hc => absurd ?_ h⟩
    rw [← hc]
    exact ⟨c.le_toInt, c.toInt_lt⟩

theorem toInt_of_i64TryFrom {n : ℕ} {v : Int64} (h : i64TryFrom n = some v) : v.toInt = n := by
  rw [i64TryFrom] at h
  split at h
  next hn =>
    obtain rfl := Option.some.inj h
    exact Int64.toInt_ofNat_of_lt hn
  next => cases h

/-! ## In time -/

/-- An expiry is later than the clock, and within the window of it; or none is given. -/
def ExpiresInTime (clock : Option Duration) (expiryWindow margin : Duration) : Prop :=
  (∃ e, expiryWithin clock expiryWindow margin = .error (.error e)) ∨
    ∃ expiry, expiryWithin clock expiryWindow margin = .ok expiry ∧
      (nowUnixMillis clock).toInt < expiry.toInt ∧
      expiry.toInt * 10 ^ 6 < (nowUnixMillis clock).toInt * 10 ^ 6 + expiryWindow.nanos

/-- The nanoseconds that the margin leaves of the window. -/
def leftOf (expiryWindow margin : Duration) : ℕ := expiryWindow.nanos - (marginOr margin).nanos

variable {clock : Option Duration} {expiryWindow margin : Duration}

theorem marginOr_pos (margin : Duration) : 0 < (marginOr margin).nanos := by
  rw [marginOr]
  split
  next => decide
  next h => exact Nat.pos_of_ne_zero fun hzero => h (decide_eq_true hzero)

/-- There is an error if the margin leaves nothing of the window. -/
theorem expiryWithin_of_leftOf_eq_zero (h : leftOf expiryWindow margin = 0) :
    ∃ e, expiryWithin clock expiryWindow margin = .error (.error e) := by
  rw [expiryWithin]
  split
  next => exact ⟨_, rfl⟩
  next =>
    have hnone : (expiryWindow.checkedSub (marginOr margin)).filter
        (fun lifetime => !lifetime.isZero) = none := by
      rw [Duration.checkedSub]
      split
      next =>
        refine Option.filter_eq_none_iff.2 fun lifetime hlifetime => ?_
        obtain rfl := Option.some.inj hlifetime
        rw [Duration.isZero, Bool.not_not_eq, decide_eq_true_iff]
        exact h
      next => rfl
    simp only [hnone]
    exact ⟨_, rfl⟩

/-- If something is left, its whole milliseconds are added to the clock. -/
theorem expiryWithin_of_leftOf_pos (h : 0 < leftOf expiryWindow margin) :
    expiryWithin clock expiryWindow margin =
      match i64TryFrom (leftOf expiryWindow margin / 10 ^ 6) with
      | none => builder "expiry_within: window overflow"
      | some lifetime => addI64 (nowUnixMillis clock) lifetime := by
  rw [leftOf] at h
  have hzero : ¬expiryWindow.isZero = true := by
    rw [Duration.isZero, decide_eq_true_iff]
    omega
  have hsome : (expiryWindow.checkedSub (marginOr margin)).filter
      (fun lifetime => !lifetime.isZero) = some ⟨leftOf expiryWindow margin,
        (Nat.sub_le _ _).trans_lt expiryWindow.lt⟩ := by
    rw [Duration.checkedSub, if_pos (by omega), Option.filter_some, if_pos]
    · rfl
    · simp only [Duration.isZero, Bool.not_eq_eq_eq_not, Bool.not_true, decide_eq_false_iff_not]
      omega
  rw [expiryWithin, if_neg hzero]
  simp only [hsome]
  rfl

/-- An expiry is in time iff the margin leaves nothing of the window, or leaves a whole
    millisecond of it and the clock has room for what it leaves, unless that is more
    than any clock has room for. -/
theorem expiresInTime_iff (hnow : 0 ≤ (nowUnixMillis clock).toInt) :
    ExpiresInTime clock expiryWindow margin ↔
      leftOf expiryWindow margin = 0 ∨ 10 ^ 6 ≤ leftOf expiryWindow margin ∧
        (2 ^ 63 ≤ leftOf expiryWindow margin / 10 ^ 6 ∨
          (nowUnixMillis clock).toInt + leftOf expiryWindow margin / 10 ^ 6 < 2 ^ 63) := by
  have hmargin := marginOr_pos margin
  rcases Nat.eq_zero_or_pos (leftOf expiryWindow margin) with hzero | hpos
  · exact iff_of_true (.inl (expiryWithin_of_leftOf_eq_zero hzero)) (.inl hzero)
  · rw [or_iff_right hpos.ne', ExpiresInTime, expiryWithin_of_leftOf_pos hpos]
    match hlifetime : i64TryFrom (leftOf expiryWindow margin / 10 ^ 6) with
    | none =>
      have hlarge : 2 ^ 63 ≤ leftOf expiryWindow margin / 10 ^ 6 := by
        by_contra hlt
        rw [i64TryFrom, if_pos (not_le.1 hlt)] at hlifetime
        cases hlifetime
      exact iff_of_true (.inl ⟨_, rfl⟩) ⟨by omega, .inl hlarge⟩
    | some lifetime =>
      have htoInt := toInt_of_i64TryFrom hlifetime
      have hsmall := lifetime.toInt_lt
      constructor
      · rintro (⟨e, he⟩ | ⟨expiry, hexpiry, hlt, -⟩)
        · -- The addition gives a value or panics.
          dsimp only at he
          rw [addI64] at he
          split at he <;> cases he
        · have hadd := addI64_eq_ok.1 hexpiry
          have hroom := expiry.toInt_lt
          exact ⟨by omega, .inr (by omega)⟩
      · rintro ⟨hmilli, hlarge | hroom⟩
        · omega
        · have hadd : addI64 (nowUnixMillis clock) lifetime =
              .ok (nowUnixMillis clock + lifetime) := by
            rw [addI64, if_pos (by omega)]
            rfl
          have hexpiry := addI64_eq_ok.1 hadd
          rw [leftOf] at *
          exact .inr ⟨_, hadd, by omega, by omega⟩

/-- A clock in the summer of 2025. -/
def summerClock : Option Duration := some ⟨1754000000 * 10 ^ 9, by norm_num⟩

theorem expiresInTime_hour : 0 ≤ (nowUnixMillis summerClock).toInt ∧
    ExpiresInTime summerClock ⟨3600 * 10 ^ 9, by decide⟩ .zero :=
  ⟨by decide, (expiresInTime_iff (by decide)).2 (.inr ⟨by decide, .inr (by decide)⟩)⟩

/-- A window of five seconds and half a millisecond. -/
def shortWindow : Duration := ⟨5 * 10 ^ 9 + 500000, by norm_num⟩

/-- Half a millisecond is left of the window: the message expires at once. -/
theorem not_expiresInTime_shortWindow :
    ¬∀ clock expiryWindow margin, 0 ≤ (nowUnixMillis clock).toInt →
      ExpiresInTime clock expiryWindow margin := by
  intro h
  have hnow : expiryWithin summerClock shortWindow .zero = .ok (nowUnixMillis summerClock) := by
    decide
  obtain ⟨e, he⟩ | ⟨expiry, hexpiry, hlt, -⟩ := h summerClock shortWindow .zero (by decide)
  · exact nomatch hnow.symm.trans he
  · obtain rfl := Except.ok.inj (hnow.symm.trans hexpiry)
    exact lt_irrefl _ hlt

end PhantasmaSdk.Carbon
