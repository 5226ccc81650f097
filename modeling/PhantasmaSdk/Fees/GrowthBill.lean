import PhantasmaSdk.Fees.Growth

/-!
# What growth costs

The net growth of the storage is billed by the byte. Some prices do not charge for it
(`GasConfig.GrowthFree`), and then two plans of a message compare as their work and
their results do (`Priced.le_of_net`). Elsewhere more growth is billed more
(`Priced.lt_of_net`), as long as the bill tells one unit from the next
(`GasConfig.Resolves`).
-/

namespace PhantasmaSdk

open Machine

/-- The prices do not charge for the growth of the storage. -/
def GasConfig.GrowthFree (config : GasConfig) : Prop :=
  if config.hasGasModelV2 then config.feeMultiplier = 0 ∨ 64 ≤ config.feeShift
  else config.gasFeePerByte = 0

/-- A bill tells one unit from the next: it is neither at its floor nor at the greatest
    word, and no unit is charged less than one. -/
structure GasConfig.Resolves (config : GasConfig) (bill : UInt64) : Prop where
  lt_greatest : bill.toNat < 2 ^ 64 - 1
  perUnit : if config.hasGasModelV2 then
      2 ^ config.feeShift.toNat ≤ config.feeMultiplier.toNat ∧ config.minimumGasBill < bill
    else config.gasFeePerByte ≠ 0

theorem GasConfig.Resolves.not_growthFree {config : GasConfig} {bill : UInt64}
    (h : config.Resolves bill) : ¬config.GrowthFree := by
  have hunit := h.perUnit
  unfold GasConfig.GrowthFree
  by_cases hv : config.hasGasModelV2 = true
  · rw [if_pos hv] at hunit ⊢
    have hlt := config.feeMultiplier.toNat_lt
    rintro (hzero | hshift)
    · rw [hzero] at hunit
      exact absurd hunit.1 (Nat.not_le.2 (Nat.two_pow_pos _))
    · have hpow : 2 ^ 64 ≤ 2 ^ config.feeShift.toNat :=
        Nat.pow_le_pow_right (by norm_num) (UInt8.le_iff_toNat_le.1 hshift)
      have := hunit.1
      omega
  · rw [if_neg hv] at hunit ⊢
    exact hunit

/-! ## Bills -/

section

variable {config : GasConfig} {transaction : NativeFeeTransactionParams}
  {costs costs' : ExactCosts}

theorem exactScaled_le_exactScaled {value value' : ℕ} (h : value' ≤ value) :
    exactScaled config value' ≤ exactScaled config value := by
  unfold exactScaled
  split
  · exact le_rfl
  · exact min_le_min_right _ (Nat.div_le_div_right (Nat.mul_le_mul_right _ h))

theorem exactScaled_of_growthFree (hv : config.hasGasModelV2 = true) (h : config.GrowthFree)
    (value : ℕ) : exactScaled config value = 0 := by
  rw [GasConfig.GrowthFree, if_pos hv] at h
  rw [exactScaled]
  rcases h with h | h
  · simp [h]
  · rw [if_pos h]

/-- The bill and the offer grow with the work, the policy fee and the result, and with the
    net growth if it is charged for. -/
theorem exactBill_le_exactBill (transaction : NativeFeeTransactionParams)
    (hwork : costs'.work ≤ costs.work)
    (hpolicy : costs'.policy ≤ costs.policy) (hresult : costs'.result ≤ costs.result)
    (hnet : config.GrowthFree ∨ costs'.new - costs'.deleted ≤ costs.new - costs.deleted) :
    (exactBill config transaction costs').1 ≤ (exactBill config transaction costs).1 ∧
      (exactBill config transaction costs').2 ≤ (exactBill config transaction costs).2 := by
  unfold exactBill
  by_cases hv : config.hasGasModelV2 = true
  · simp only [if_pos hv]
    have hcharged : exactScaled config (min (costs'.work + (transaction.envelopeBytes.toNat +
        (costs'.new - costs'.deleted) + costs'.result) * 25) (2 ^ 64 - 1)) ≤
        exactScaled config (min (costs.work + (transaction.envelopeBytes.toNat +
          (costs.new - costs.deleted) + costs.result) * 25) (2 ^ 64 - 1)) := by
      rcases hnet with hfree | hnet
      · rw [exactScaled_of_growthFree hv hfree, exactScaled_of_growthFree hv hfree]
      · exact exactScaled_le_exactScaled (by omega)
    omega
  · simp only [if_neg hv]
    have hcharged : exactScaled config costs'.work ≤ exactScaled config costs.work :=
      exactScaled_le_exactScaled hwork
    have hbytes (k : ℕ) : max (transaction.payloadBytes.toNat + costs'.result +
        (costs'.new - costs'.deleted)) k * config.gasFeePerByte.toNat ≤
        max (transaction.payloadBytes.toNat + costs.result + (costs.new - costs.deleted)) k *
          config.gasFeePerByte.toNat := by
      rcases hnet with hfree | hnet
      · rw [GasConfig.GrowthFree, if_neg hv] at hfree
        simp [hfree]
      · exact Nat.mul_le_mul_right _ (by omega)
    have hbill := hbytes 0
    have hoffer := hbytes 1024
    simp only [Nat.max_zero] at hbill
    omega

/-- A unit that is charged no less than one tells one number from the next. -/
theorem exactScaled_lt_exactScaled
    (hunit : 2 ^ config.feeShift.toNat ≤ config.feeMultiplier.toNat) {value value' : ℕ}
    (h : value < value') (hlt : exactScaled config value < 2 ^ 64 - 1) :
    value < 2 ^ 64 - 1 ∧ exactScaled config value < exactScaled config value' := by
  have hmultiplier := config.feeMultiplier.toNat_lt
  have hshift : ¬64 ≤ config.feeShift := fun hshift => by
    have hpow : 2 ^ 64 ≤ 2 ^ config.feeShift.toNat :=
      Nat.pow_le_pow_right (by norm_num) (UInt8.le_iff_toNat_le.1 hshift)
    omega
  have hpos : 0 < 2 ^ config.feeShift.toNat := Nat.two_pow_pos _
  rw [exactScaled, if_neg hshift] at hlt ⊢
  rw [exactScaled, if_neg hshift]
  have hself : value ≤ value * config.feeMultiplier.toNat / 2 ^ config.feeShift.toNat :=
    (Nat.le_div_iff_mul_le hpos).2 (Nat.mul_le_mul_left _ hunit)
  have hnext : value * config.feeMultiplier.toNat / 2 ^ config.feeShift.toNat + 1 ≤
      value' * config.feeMultiplier.toNat / 2 ^ config.feeShift.toNat := by
    rw [← Nat.add_div_right _ hpos]
    refine Nat.div_le_div_right ?_
    calc value * config.feeMultiplier.toNat + 2 ^ config.feeShift.toNat
        ≤ (value + 1) * config.feeMultiplier.toNat := by rw [Nat.add_one_mul]; omega
      _ ≤ value' * config.feeMultiplier.toNat := Nat.mul_le_mul_right _ h
  omega

/-- Where the bill tells units apart, it grows with the net growth. -/
theorem exactBill_lt_exactBill (hwork : costs'.work = costs.work)
    (hpolicy : costs'.policy = costs.policy) (hresult : costs'.result = costs.result)
    (hnet : costs.new - costs.deleted < costs'.new - costs'.deleted) {bill : UInt64}
    (hbill : bill.toNat = (exactBill config transaction costs).1) (h : config.Resolves bill) :
    (exactBill config transaction costs).1 < (exactBill config transaction costs').1 := by
  obtain ⟨hlt, hunit⟩ := h
  rw [hbill] at hlt
  unfold exactBill at hlt hbill ⊢
  by_cases hv : config.hasGasModelV2 = true
  · rw [if_pos hv] at hunit
    simp only [if_pos hv] at hlt hbill ⊢
    obtain ⟨hmultiplier, hfloor⟩ := hunit
    rw [UInt64.lt_iff_toNat_lt, hbill] at hfloor
    rw [hwork, hpolicy, hresult]
    -- No unit is cut off, as the bill would be at the greatest word.
    have hself := (exactScaled_lt_exactScaled hmultiplier (Nat.lt_succ_self _)
      (show exactScaled config (min (costs.work + (transaction.envelopeBytes.toNat +
        (costs.new - costs.deleted) + costs.result) * 25) (2 ^ 64 - 1)) < 2 ^ 64 - 1 by omega)).1
    have hcharged := (exactScaled_lt_exactScaled hmultiplier
      (show min (costs.work + (transaction.envelopeBytes.toNat +
        (costs.new - costs.deleted) + costs.result) * 25) (2 ^ 64 - 1) <
          min (costs.work + (transaction.envelopeBytes.toNat +
            (costs'.new - costs'.deleted) + costs.result) * 25) (2 ^ 64 - 1) by omega)
      (by omega)).2
    omega
  · rw [if_neg hv] at hunit
    simp only [if_neg hv] at hlt ⊢
    have hpos : 0 < config.gasFeePerByte.toNat :=
      Nat.pos_of_ne_zero fun h0 => hunit (UInt64.toNat_inj.1 h0)
    have hbytes := Nat.mul_lt_mul_of_pos_right (show transaction.payloadBytes.toNat +
      costs.result + (costs.new - costs.deleted) < transaction.payloadBytes.toNat +
        costs'.result + (costs'.new - costs'.deleted) by omega) hpos
    rw [hwork]
    omega

end

/-! ## Two plans of a message that burns -/

section

variable {config : GasConfig} {o o' : FeePlanOptions} {infusions infusions' : List InfusedAsset}

/-- What holds of each part, however the returned assets are given to it, holds part by
    part. -/
theorem forall₂_attachedAll {p : NativeFeePart → NativeFeePart → Prop}
    {r : List InfusedAsset → List InfusedAsset → Prop} (hnil : r [] [])
    (h : ∀ (part : NativeFeePart) (infusions infusions' : List InfusedAsset),
      r infusions' infusions → p (part.attached o infusions) (part.attached o' infusions'))
    (hr : r infusions' infusions) (parts : List NativeFeePart) :
    List.Forall₂ p (attachedAll o infusions parts) (attachedAll o' infusions' parts) := by
  induction parts generalizing infusions infusions' with
  | nil => exact .nil
  | cons part parts ih =>
    rw [attachedAll, attachedAll]
    refine .cons (h part _ _ hr) (ih ?_)
    split
    · exact hnil
    · exact hr

/-- The returned assets take the same work. -/
def SameWork (config : GasConfig) (infusions' infusions : List InfusedAsset) : Prop :=
  (infusions'.map (InfusedAsset.work config)).sum = (infusions.map (InfusedAsset.work config)).sum

/-- Of the facts, only whether a series is duplicated moves the work. -/
theorem exactWork_attached_le
    (hdup : o'.duplicatedSeries.getD true → o.duplicatedSeries.getD true) (hb : o.SameBudget o')
    (hwork : SameWork config infusions' infusions) (part : NativeFeePart) :
    (part.attached o' infusions').exactWork config ≤
      (part.attached o infusions).exactWork config := by
  obtain ⟨kind, params⟩ := part
  cases kind with
  | script =>
    change (o'.scriptUnitsAllowance.getD _).toNat ≤ (o.scriptUnitsAllowance.getD _).toNat
    rw [hb.scriptUnitsAllowance]
  | burnNonFungible => exact Nat.add_le_add_left hwork.le _
  | mintPhantasmaNonFungible =>
    have hqueries : (if o'.duplicatedSeries.getD true then 3 else 2) ≤
        if o.duplicatedSeries.getD true then 3 else 2 := by
      split <;> split <;> simp_all
    have hdistinct (n : ℕ) : (if o'.duplicatedSeries.getD true then n else 0) ≤
        if o.duplicatedSeries.getD true then n else 0 := by
      split <;> split <;> simp_all
    refine Nat.add_le_add_right (Nat.add_le_add (Nat.mul_le_mul_right _ (Nat.add_le_add_left
      (Nat.mul_le_mul_left _ hqueries) _)) (Nat.mul_le_mul_left _ (hdistinct _))) _
  | _ => exact le_rfl

theorem exactPolicy_attached (part : NativeFeePart) :
    (part.attached o' infusions').exactPolicy config =
      (part.attached o infusions).exactPolicy config := by
  obtain ⟨kind, params⟩ := part
  cases kind <;> rfl

/-- The work of a batch, and its policy fee, which is not a matter of the facts. -/
theorem exactCosts_attachedAll_le
    (hdup : o'.duplicatedSeries.getD true → o.duplicatedSeries.getD true) (hb : o.SameBudget o')
    (hwork : SameWork config infusions' infusions) (parts : List NativeFeePart) :
    (exactCosts config (attachedAll o' infusions' parts)).work ≤
        (exactCosts config (attachedAll o infusions parts)).work ∧
      (exactCosts config (attachedAll o' infusions' parts)).policy =
        (exactCosts config (attachedAll o infusions parts)).policy := by
  have hall : List.Forall₂ (fun part part' : NativeFeePart =>
      part'.exactWork config ≤ part.exactWork config ∧
        part'.exactPolicy config = part.exactPolicy config)
      (attachedAll o infusions parts) (attachedAll o' infusions' parts) :=
    forall₂_attachedAll (r := SameWork config) rfl (fun part _ _ hwork =>
      ⟨exactWork_attached_le hdup hb hwork part, exactPolicy_attached part⟩) hwork parts
  have hworks := sum_le_of_forall₂ (hall.imp fun _ _ h => h.1)
  have hpolicies := sum_eq_of_forall₂ (hall.imp fun _ _ h => h.2)
  exact ⟨min_le_min_right _ hworks, congrArg (min · _) hpolicies⟩

/-- The result of a batch is not a matter of what is returned. -/
theorem exactCosts_result (config : GasConfig) (o : FeePlanOptions)
    (infusions : List InfusedAsset) (parts : List NativeFeePart) :
    (exactCosts config (attachedAll o infusions parts)).result =
      min (parts.map fun part => (part.stated o).resultSize).sum (2 ^ 32 - 1) := by
  have hsum : ((attachedAll o infusions parts).map NativeFeePart.resultSize).sum =
      (parts.map fun part => (part.stated o).resultSize).sum := by
    induction parts generalizing infusions with
    | nil => rfl
    | cons part parts ih =>
      rw [attachedAll, List.map_cons, List.map_cons, List.sum_cons, List.sum_cons, ih,
        resultSize_attached]
  exact congrArg (min · _) hsum

/-- Of the facts, only whether an amount is big moves the result. -/
theorem resultSize_stated_congr (hbig : o'.bigFungible.getD true = o.bigFungible.getD true)
    (hb : o.SameBudget o') (part : NativeFeePart) :
    (part.stated o').resultSize = (part.stated o).resultSize := by
  obtain ⟨kind, params⟩ := part
  cases kind with
  | mintFungible | burnFungible => exact congrArg (fun big : Bool => if big then 33 else 9) hbig
  | script =>
    change (o'.scriptEventBytes.getD _).toNat = (o.scriptEventBytes.getD _).toNat
    rw [hb.scriptEventBytes]
  | _ => rfl

variable {msg : TxMsg} {parts : List NativeFeePart} {size : UInt32}
  {models models' : List OperationModel} {estimate estimate' : NativeFeeEstimate}

theorem OperationModel.Costs.net {total : OperationModel} {costs : ExactCosts}
    (h : total.Costs costs) : total.net.toNat = costs.new - costs.deleted := by
  rw [OperationModel.net, toNat_satSub32, h.new, h.deleted]

theorem Priced.isExact (h : Priced msg config o parts size models estimate) :
    estimate.IsExact config ⟨size, 0⟩
      (exactCosts config (attachedAll o (o.infusions.getD []) parts)) :=
  settle_exact (costs_total h.priced) h.settled

/-- Cheaper facts create no more rows, if no more are created for what is returned. -/
theorem Priced.newQuanta_le (h : Priced msg config o parts size models estimate)
    (h' : Priced msg config o' parts size models' estimate') (hc : o'.facts.Cheaper o.facts)
    (hb : o.SameBudget o') (hburn : .burnNonFungible ∈ parts.map NativeFeePart.kind)
    (hreturned : ((o'.infusions.getD []).map (InfusedAsset.newRows config)).sum ≤
      ((o.infusions.getD []).map (InfusedAsset.newRows config)).sum) :
    (OperationModel.total models').newQuanta ≤ (OperationModel.total models).newQuanta := by
  rw [UInt32.le_iff_toNat_le, (h.sums_of_burn hburn).1, (h'.sums_of_burn hburn).1]
  exact min_le_min_right _ (Nat.add_le_add
    (List.sum_le_sum fun part _ => part.newRows_stated_le hc fun _ => hb) hreturned)

/-- Cheaper facts cost no more, if the rows that are escrowed and the growth that is billed
    are no more. -/
theorem Priced.le_of_net (h : Priced msg config o parts size models estimate)
    (h' : Priced msg config o' parts size models' estimate') (hc : o'.facts.Cheaper o.facts)
    (hb : o.SameBudget o') (hwork : SameWork config (o'.infusions.getD []) (o.infusions.getD []))
    (hnew : config.dataEscrowPerRow = 0 ∨
      (OperationModel.total models').newQuanta ≤ (OperationModel.total models).newQuanta)
    (hnet : config.GrowthFree ∨
      (OperationModel.total models').net ≤ (OperationModel.total models).net) :
    estimate'.Le estimate := by
  have hcosts := costs_total h.priced
  have hcosts' := costs_total h'.priced
  obtain ⟨hworks, hpolicies⟩ := exactCosts_attachedAll_le hc.duplicatedSeries hb hwork parts
  have hresults : (exactCosts config (attachedAll o' (o'.infusions.getD []) parts)).result ≤
      (exactCosts config (attachedAll o (o.infusions.getD []) parts)).result := by
    rw [exactCosts_result, exactCosts_result]
    exact min_le_min_right _ (List.sum_le_sum fun part _ => part.resultSize_stated_le hc hb)
  rw [UInt32.le_iff_toNat_le, hcosts.net, hcosts'.net] at hnet
  rw [UInt32.le_iff_toNat_le, hcosts.new, hcosts'.new] at hnew
  have hbill := exactBill_le_exactBill ⟨size, 0⟩ hworks hpolicies.le hresults hnet
  refine ⟨?_, ?_, ?_⟩
  · rw [UInt64.le_iff_toNat_le, h.isExact.expectedGasBill, h'.isExact.expectedGasBill]
    exact hbill.1
  · rw [UInt64.le_iff_toNat_le, h.isExact.maxGas, h'.isExact.maxGas]
    exact hbill.2
  · rw [UInt64.le_iff_toNat_le, h.isExact.maxData, h'.isExact.maxData]
    refine min_le_min_right _ ?_
    rcases hnew with hfree | hnew
    · simp [hfree]
    · exact Nat.mul_le_mul_right _ hnew

/-- With the same work and result, more growth is billed more, where the bill tells units
    apart. -/
theorem Priced.lt_of_net (h : Priced msg config o parts size models estimate)
    (h' : Priced msg config o' parts size models' estimate')
    (hdup : o'.duplicatedSeries.getD true = o.duplicatedSeries.getD true)
    (hbig : o'.bigFungible.getD true = o.bigFungible.getD true) (hb : o.SameBudget o')
    (hwork : SameWork config (o'.infusions.getD []) (o.infusions.getD []))
    (hnet : (OperationModel.total models).net < (OperationModel.total models').net)
    (hresolves : config.Resolves estimate.expectedGasBill) :
    estimate.expectedGasBill < estimate'.expectedGasBill := by
  have hb' : o'.SameBudget o := ⟨hb.scriptUnitsAllowance.symm, hb.scriptEventBytes.symm,
    hb.scriptStorageQuanta.symm⟩
  obtain ⟨hworks, hpolicies⟩ := exactCosts_attachedAll_le (fun h => hdup ▸ h) hb hwork parts
  obtain ⟨hworks', -⟩ := exactCosts_attachedAll_le (fun h => hdup ▸ h) hb' hwork.symm parts
  have hresults : (exactCosts config (attachedAll o' (o'.infusions.getD []) parts)).result =
      (exactCosts config (attachedAll o (o.infusions.getD []) parts)).result := by
    rw [exactCosts_result, exactCosts_result]
    simp only [resultSize_stated_congr hbig hb]
  rw [UInt32.lt_iff_toNat_lt, (costs_total h.priced).net, (costs_total h'.priced).net] at hnet
  rw [UInt64.lt_iff_toNat_lt, h.isExact.expectedGasBill, h'.isExact.expectedGasBill]
  exact exactBill_lt_exactBill (le_antisymm hworks hworks') hpolicies hresults hnet
    h.isExact.expectedGasBill hresolves

end

end PhantasmaSdk
