import PhantasmaSdk.Fees.Settle

/-!
# Charges that are scaled one by one, or all at once

The chain scales each charge as it is made and adds up the results (`chainScaled`), the
calculator scales their sum (`calculatorScaled`). Rounding down charge by charge drops
more than rounding once, so that the calculator's number covers the chain's, as long as
it has the sum. Where the charges add up to more than a word, the calculator scales the
greatest word instead: under a scaling that makes numbers smaller it then lacks what was
cut off, and falls short as soon as that is more than the chain can round off
(`scaled_covers`).
-/

namespace PhantasmaSdk

open Machine

/-- The charges as the chain has them, each scaled. -/
def chainScaled (config : GasConfig) (charges : List UInt64) : UInt64 :=
  (charges.map fun charge => mulShift charge config.feeMultiplier config.feeShift).foldl satAdd64 0

/-- The charges as the calculator has them, their sum scaled. -/
def calculatorScaled (config : GasConfig) (charges : List UInt64) : UInt64 :=
  mulShift (charges.foldl satAdd64 0) config.feeMultiplier config.feeShift

/-- What the calculator scales under the second gas model: the work of each operation, and
    the bytes of the block. -/
theorem mulShift_total_eq (models : List OperationModel) (config : GasConfig)
    (byteUnits : UInt64) :
    mulShift (satAdd64 (OperationModel.total models).workUnits byteUnits) config.feeMultiplier
        config.feeShift =
      calculatorScaled config (models.map OperationModel.workUnits ++ [byteUnits]) := by
  have hwork : (OperationModel.total models).workUnits =
      (models.map OperationModel.workUnits).foldl satAdd64 0 := by
    rw [List.foldl_map]
    exact (List.foldl_hom OperationModel.workUnits fun _ _ => rfl).symm
  rw [calculatorScaled, List.foldl_append, ← hwork]
  rfl

/-! ## Rounding -/

/-- What is rounded off and what is left add up to the whole. -/
theorem sum_div_add_sum_mod (ns : List ℕ) (m d : ℕ) :
    d * (ns.map fun n => n * m / d).sum + (ns.map fun n => n * m % d).sum = ns.sum * m := by
  induction ns with
  | nil => simp
  | cons n ns ih =>
    have h := Nat.div_add_mod (n * m) d
    simp only [List.map_cons, List.sum_cons, Nat.mul_add, Nat.add_mul]
    omega

/-- Each of the roundings drops less than a unit. -/
theorem sum_mod_le (ns : List ℕ) (m : ℕ) {d : ℕ} (hd : 0 < d) :
    (ns.map fun n => n * m % d).sum ≤ ns.length * (d - 1) := by
  induction ns with
  | nil => simp
  | cons n ns ih =>
    have h := Nat.mod_lt (n * m) hd
    rw [List.map_cons, List.sum_cons, List.length_cons, Nat.add_one_mul]
    omega

/-- Rounding one by one drops no less than rounding once. -/
theorem sum_div_le (ns : List ℕ) (m : ℕ) {d : ℕ} (hd : 0 < d) :
    (ns.map fun n => n * m / d).sum ≤ ns.sum * m / d := by
  rw [Nat.le_div_iff_mul_le hd, mul_comm, ← sum_div_add_sum_mod ns m d]
  exact Nat.le_add_right _ _

/-- A number is rounded to less than the sum, if it lacks more of it than the roundings of the
    sum can drop. -/
theorem div_lt_sum_div (ns : List ℕ) (k m : ℕ) {d : ℕ} (hd : 0 < d)
    (h : ns.length * (d - 1) < (ns.sum - k) * m) : k * m / d < (ns.map fun n => n * m / d).sum := by
  have hsum := sum_div_add_sum_mod ns m d
  have hmod := sum_mod_le ns m hd
  have hlacks : k * m + (ns.sum - k) * m = ns.sum * m := by
    rw [← Nat.add_mul, Nat.add_sub_cancel']
    by_contra hlt
    rw [show ns.sum - k = 0 by omega, zero_mul] at h
    exact absurd h (Nat.not_lt_zero _)
  rw [Nat.div_lt_iff_lt_mul hd, mul_comm _ d]
  omega

section

variable {config : GasConfig} {charges : List UInt64}

theorem toNat_mulShift (value multiplier : UInt64) {shift : UInt8} (h : ¬64 ≤ shift) :
    (mulShift value multiplier shift).toNat =
      min (value.toNat * multiplier.toNat / 2 ^ shift.toNat) (2 ^ 64 - 1) := by
  rw [mulShift, if_neg h, toNat_clamp64, Nat.shiftRight_eq_div_pow]

/-- A sum of numbers that keep to their type keeps to it as the sum of the numbers. -/
theorem min_sum_min (ns : List ℕ) (k : ℕ) : min (ns.map fun n => min n k).sum k = min ns.sum k := by
  induction ns with
  | nil => rfl
  | cons n ns ih =>
    rw [List.map_cons, List.sum_cons, List.sum_cons]
    omega

theorem toNat_chainScaled (h : ¬64 ≤ config.feeShift) : (chainScaled config charges).toNat =
    min ((charges.map UInt64.toNat).map fun n =>
      n * config.feeMultiplier.toNat / 2 ^ config.feeShift.toNat).sum (2 ^ 64 - 1) := by
  have hscaled : (charges.map fun charge => mulShift charge config.feeMultiplier
      config.feeShift).map UInt64.toNat = ((charges.map UInt64.toNat).map fun n =>
        n * config.feeMultiplier.toNat / 2 ^ config.feeShift.toNat).map fun n =>
          min n (2 ^ 64 - 1) := by
    simp only [List.map_map, Function.comp_def, toNat_mulShift _ _ h]
  rw [chainScaled, toNat_foldl_satAdd64, UInt64.toNat_zero, Nat.zero_add, hscaled, min_sum_min]

theorem toNat_calculatorScaled (h : ¬64 ≤ config.feeShift) :
    (calculatorScaled config charges).toNat =
      min (min (charges.map UInt64.toNat).sum (2 ^ 64 - 1) * config.feeMultiplier.toNat /
        2 ^ config.feeShift.toNat) (2 ^ 64 - 1) := by
  rw [calculatorScaled, toNat_mulShift _ _ h, toNat_foldl_satAdd64, UInt64.toNat_zero, Nat.zero_add]

end

/-- The scaling makes numbers smaller, though not nothing. -/
def GasConfig.Narrows (config : GasConfig) : Prop :=
  config.feeShift < 64 ∧ 0 < config.feeMultiplier.toNat ∧
    config.feeMultiplier.toNat < 2 ^ config.feeShift.toNat

/-- The charges add up to a word, or the scaling does not make numbers smaller, or makes
    them nothing. -/
def Covered (config : GasConfig) (charges : List UInt64) : Prop :=
  (charges.map UInt64.toNat).sum ≤ 2 ^ 64 - 1 ∨ ¬config.Narrows

section

variable {config : GasConfig} {charges : List UInt64}

theorem chainScaled_eq_zero (h : 64 ≤ config.feeShift) : chainScaled config charges = 0 := by
  have hall : charges.map (fun charge => mulShift charge config.feeMultiplier config.feeShift) =
      List.replicate charges.length 0 := by
    rw [List.eq_replicate_iff]
    simp [mulShift, if_pos h]
  refine UInt64.toNat_inj.1 ?_
  rw [chainScaled, hall, toNat_foldl_satAdd64]
  simp

theorem chainScaled_le_of_covered (h : Covered config charges) :
    chainScaled config charges ≤ calculatorScaled config charges := by
  by_cases hshift : 64 ≤ config.feeShift
  · rw [chainScaled_eq_zero hshift]
    exact UInt64.le_iff_toNat_le.2 (Nat.zero_le _)
  rw [UInt64.le_iff_toNat_le, toNat_chainScaled hshift, toNat_calculatorScaled hshift]
  have hunit : 0 < 2 ^ config.feeShift.toNat := Nat.two_pow_pos _
  have hle := sum_div_le (charges.map UInt64.toNat) config.feeMultiplier.toNat hunit
  rcases le_or_gt (charges.map UInt64.toNat).sum (2 ^ 64 - 1) with hsum | hsum
  · -- The calculator has the sum.
    rw [min_eq_left hsum]
    exact min_le_min_right _ hle
  -- It has the greatest word, which is scaled to nothing, or to no smaller number.
  rw [min_eq_right hsum.le]
  have hnarrows := h.resolve_left (not_le.2 hsum)
  rcases Nat.eq_zero_or_pos config.feeMultiplier.toNat with hzero | hpos
  · simp [hzero, Function.comp_def]
  · have hmultiplier : 2 ^ config.feeShift.toNat ≤ config.feeMultiplier.toNat :=
      not_lt.1 fun hlt => hnarrows ⟨UInt8.not_le.1 hshift, hpos, hlt⟩
    have hword : 2 ^ 64 - 1 ≤ (2 ^ 64 - 1) * config.feeMultiplier.toNat / 2 ^ config.feeShift.toNat :=
      (Nat.le_div_iff_mul_le hunit).2 (Nat.mul_le_mul_left _ hmultiplier)
    rw [min_eq_right hword]
    exact min_le_right _ _

/-- What is cut off the sum is more than the chain can round off. -/
theorem calculatorScaled_lt (h : config.Narrows)
    (hcut : charges.length * (2 ^ config.feeShift.toNat - 1) <
      ((charges.map UInt64.toNat).sum - (2 ^ 64 - 1)) * config.feeMultiplier.toNat) :
    calculatorScaled config charges < chainScaled config charges := by
  obtain ⟨hshift, hpos, hlt⟩ := h
  have hshift := UInt8.not_le.2 hshift
  have hunit : 0 < 2 ^ config.feeShift.toNat := Nat.two_pow_pos _
  have hless := div_lt_sum_div (charges.map UInt64.toNat) (2 ^ 64 - 1) config.feeMultiplier.toNat
    hunit (by rwa [List.length_map])
  have hsum : 2 ^ 64 - 1 ≤ (charges.map UInt64.toNat).sum := by
    by_contra hle
    rw [Nat.sub_eq_zero_of_le (not_le.1 hle).le, zero_mul] at hcut
    exact absurd hcut (Nat.not_lt_zero _)
  have hword : (2 ^ 64 - 1) * config.feeMultiplier.toNat / 2 ^ config.feeShift.toNat < 2 ^ 64 - 1 :=
    (Nat.div_lt_iff_lt_mul hunit).2 (Nat.mul_lt_mul_of_pos_left hlt (by norm_num))
  rw [UInt64.lt_iff_toNat_lt, toNat_chainScaled hshift, toNat_calculatorScaled hshift,
    min_eq_right hsum, min_eq_left hword.le]
  exact lt_min hless hword

/-- Two charges of the greatest word are enough for a scaling that makes numbers smaller. -/
theorem calculatorScaled_lt_greatest (h : config.Narrows) :
    calculatorScaled config [18446744073709551615, 18446744073709551615] <
      chainScaled config [18446744073709551615, 18446744073709551615] := by
  refine calculatorScaled_lt h ?_
  obtain ⟨hshift, hpos, -⟩ := h
  have hunit : 2 ^ config.feeShift.toNat ≤ 2 ^ 63 :=
    Nat.pow_le_pow_right (by norm_num) (Nat.le_of_lt_succ (UInt8.lt_iff_toNat_lt.1 hshift))
  have hgreatest : (18446744073709551615 : UInt64).toNat = 2 ^ 64 - 1 := rfl
  simp only [List.map_cons, List.map_nil, List.sum_cons, List.sum_nil, List.length_cons,
    List.length_nil, hgreatest]
  calc (0 + 1 + 1) * (2 ^ config.feeShift.toNat - 1)
      < 2 ^ 64 - 1 := by omega
    _ ≤ (2 ^ 64 - 1) * config.feeMultiplier.toNat := Nat.le_mul_of_pos_right _ hpos
    _ = _ := by norm_num

end

/-- The calculator's number covers the chain's where the charges add up to a word or the
    scaling does not narrow; elsewhere it falls short, if what is cut off the sum outweighs
    what the charges can be rounded by. A scaling covers all charges iff it does not narrow. -/
theorem scaled_covers (config : GasConfig) (charges : List UInt64) :
    (Covered config charges → chainScaled config charges ≤ calculatorScaled config charges) ∧
    (¬Covered config charges → charges.length * (2 ^ config.feeShift.toNat - 1) <
        ((charges.map UInt64.toNat).sum - (2 ^ 64 - 1)) * config.feeMultiplier.toNat →
      ¬chainScaled config charges ≤ calculatorScaled config charges) ∧
    ((∀ others, chainScaled config others ≤ calculatorScaled config others) ↔ ¬config.Narrows) := by
  refine ⟨chainScaled_le_of_covered, fun hnot hcut => ?_, fun h hnarrows => ?_, fun h others => ?_⟩
  · have hnarrows := not_not.1 fun h => hnot (.inr h)
    exact UInt64.not_le.2 (calculatorScaled_lt hnarrows hcut)
  · exact UInt64.not_le.2 (calculatorScaled_lt_greatest hnarrows) (h _)
  · exact chainScaled_le_of_covered (.inr h)

/-- Two charges, of the greatest word and of two, under a shift of one. -/
theorem not_chainScaled_le : ¬∀ (config : GasConfig) (charges : List UInt64),
    chainScaled config charges ≤ calculatorScaled config charges := by
  intro h
  exact absurd (h { feeMultiplier := 1, feeShift := 1 } [18446744073709551615, 2]) (by decide)

end PhantasmaSdk
