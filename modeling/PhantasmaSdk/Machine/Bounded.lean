import Mathlib.Tactic

/-!
# Bounded arithmetic

Arithmetic of 32-bit and 64-bit words that keeps to its type: *saturating*, where a
result out of range is the nearest in range, and *checked*, where there is none.
Both are stated by what they are on the numbers the words stand for; the
saturating operations are monotone, which is what comparing two sums or two
products needs.
-/

namespace Machine

/-! ## Saturating -/

/-- The word nearest to a number. -/
def clamp32 (n : ℕ) : UInt32 := if n < 2 ^ 32 then UInt32.ofNat n else UInt32.ofNat (2 ^ 32 - 1)

/-- The word nearest to a number. -/
def clamp64 (n : ℕ) : UInt64 := if n < 2 ^ 64 then UInt64.ofNat n else UInt64.ofNat (2 ^ 64 - 1)

def satAdd32 (a b : UInt32) : UInt32 := clamp32 (a.toNat + b.toNat)
def satSub32 (a b : UInt32) : UInt32 := clamp32 (a.toNat - b.toNat)
def satAdd64 (a b : UInt64) : UInt64 := clamp64 (a.toNat + b.toNat)
def satMul64 (a b : UInt64) : UInt64 := clamp64 (a.toNat * b.toNat)

@[simp] theorem toNat_clamp32 (n : ℕ) : (clamp32 n).toNat = min n (2 ^ 32 - 1) := by
  rw [clamp32]
  split
  next h => rw [UInt32.toNat_ofNat_of_lt' h]; omega
  next h => rw [UInt32.toNat_ofNat_of_lt' (by norm_num [UInt32.size])]; omega

@[simp] theorem toNat_clamp64 (n : ℕ) : (clamp64 n).toNat = min n (2 ^ 64 - 1) := by
  rw [clamp64]
  split
  next h => rw [UInt64.toNat_ofNat_of_lt' h]; omega
  next h => rw [UInt64.toNat_ofNat_of_lt' (by norm_num [UInt64.size])]; omega

theorem toNat_satAdd32 (a b : UInt32) :
    (satAdd32 a b).toNat = min (a.toNat + b.toNat) (2 ^ 32 - 1) := toNat_clamp32 _

theorem toNat_satSub32 (a b : UInt32) : (satSub32 a b).toNat = a.toNat - b.toNat := by
  have := a.toNat_lt
  rw [satSub32, toNat_clamp32]
  omega

theorem toNat_satAdd64 (a b : UInt64) :
    (satAdd64 a b).toNat = min (a.toNat + b.toNat) (2 ^ 64 - 1) := toNat_clamp64 _

theorem toNat_satMul64 (a b : UInt64) :
    (satMul64 a b).toNat = min (a.toNat * b.toNat) (2 ^ 64 - 1) := toNat_clamp64 _

section Monotone

variable {a a' b b' : UInt64}

@[gcongr] theorem clamp64_le_clamp64 {m n : ℕ} (h : m ≤ n) : clamp64 m ≤ clamp64 n := by
  rw [UInt64.le_iff_toNat_le, toNat_clamp64, toNat_clamp64]
  omega

@[gcongr] theorem satAdd64_le_satAdd64 (h : a ≤ a') (h' : b ≤ b') :
    satAdd64 a b ≤ satAdd64 a' b' :=
  clamp64_le_clamp64 (Nat.add_le_add (UInt64.le_iff_toNat_le.1 h) (UInt64.le_iff_toNat_le.1 h'))

@[gcongr] theorem satMul64_le_satMul64 (h : a ≤ a') (h' : b ≤ b') :
    satMul64 a b ≤ satMul64 a' b' :=
  clamp64_le_clamp64 (Nat.mul_le_mul (UInt64.le_iff_toNat_le.1 h) (UInt64.le_iff_toNat_le.1 h'))

theorem toNat_max64 (a b : UInt64) : (max a b).toNat = max a.toNat b.toNat := by
  change (if a ≤ b then b else a).toNat = _
  split
  next h => rw [UInt64.le_iff_toNat_le] at h; omega
  next h => rw [UInt64.le_iff_toNat_le] at h; omega

theorem max_le_max64 (h : a ≤ a') (h' : b ≤ b') : max a b ≤ max a' b' := by
  rw [UInt64.le_iff_toNat_le] at h h' ⊢
  rw [toNat_max64, toNat_max64]
  exact max_le_max h h'

@[simp] theorem satAdd64_zero (a : UInt64) : satAdd64 a 0 = a := by
  have := a.toNat_lt
  refine UInt64.toNat_inj.1 ?_
  rw [toNat_satAdd64, UInt64.toNat_zero]
  omega

@[simp] theorem zero_satAdd64 (a : UInt64) : satAdd64 0 a = a := by
  have := a.toNat_lt
  refine UInt64.toNat_inj.1 ?_
  rw [toNat_satAdd64, UInt64.toNat_zero]
  omega

@[simp] theorem zero_satMul64 (a : UInt64) : satMul64 0 a = 0 := by
  refine UInt64.toNat_inj.1 ?_
  rw [toNat_satMul64, UInt64.toNat_zero]
  simp

end Monotone

/-! ## Sums -/

theorem toNat_foldl_satAdd32 (words : List UInt32) (start : UInt32) :
    (words.foldl satAdd32 start).toNat =
      min (start.toNat + (words.map UInt32.toNat).sum) (2 ^ 32 - 1) := by
  induction words generalizing start with
  | nil =>
    have := start.toNat_lt
    rw [List.foldl_nil, List.map_nil, List.sum_nil]
    omega
  | cons word words ih =>
    rw [List.foldl_cons, ih, toNat_satAdd32, List.map_cons, List.sum_cons]
    omega

theorem toNat_foldl_satAdd64 (words : List UInt64) (start : UInt64) :
    (words.foldl satAdd64 start).toNat =
      min (start.toNat + (words.map UInt64.toNat).sum) (2 ^ 64 - 1) := by
  induction words generalizing start with
  | nil =>
    have := start.toNat_lt
    rw [List.foldl_nil, List.map_nil, List.sum_nil]
    omega
  | cons word words ih =>
    rw [List.foldl_cons, ih, toNat_satAdd64, List.map_cons, List.sum_cons]
    omega

/-! ## Checked -/

/-- The word that stands for a number, if there is one. -/
def word32 (n : ℕ) : Option UInt32 := if n < 2 ^ 32 then some (UInt32.ofNat n) else none

theorem word32_eq_some {n : ℕ} {c : UInt32} : word32 n = some c ↔ c.toNat = n := by
  have hc := c.toNat_lt
  rw [word32]
  split
  next h =>
    rw [Option.some_inj, ← UInt32.toNat_inj, UInt32.toNat_ofNat_of_lt' h]
    exact eq_comm
  next h =>
    constructor
    · intro h'
      cases h'
    · intro h'
      omega

theorem exists_word32 {n : ℕ} (h : n < 2 ^ 32) : ∃ c, word32 n = some c ∧ c.toNat = n :=
  ⟨UInt32.ofNat n, if_pos h, UInt32.toNat_ofNat_of_lt' h⟩

end Machine
