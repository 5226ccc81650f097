import Mathlib.Algebra.Order.BigOperators.Group.List
import PhantasmaSdk.Fees.Wrap

/-!
# What a burn returns

A burned NFT returns the assets its address holds: rows are created for the burner, and
the rows of the address are deleted. Each returned asset deletes at least what it creates
(`InfusedAsset.newRows_le_deletedRows`), and each burned instance deletes more than the
counters a burn may create, so a burn never adds block data and is billed for its work
and its envelope alone (`burnNonFungible_spec`).
-/

namespace PhantasmaSdk

open Machine

/-- A row that is not free is created at most once. -/
theorem factRow_le_not_free (known free : Bool) : factRow known free ≤ (!free).toNat := by
  cases known <;> cases free <;> decide

/-- A returned asset deletes at least the rows it creates. -/
theorem InfusedAsset.newRows_le_deletedRows (config : GasConfig) (asset : InfusedAsset) :
    asset.newRows config ≤ asset.deletedRows config := by
  have hrow := factRow_le_not_free asset.burnerHoldsToken (config.freeRows asset.tokenId)
  rw [newRows, deletedRows]
  split
  · -- The balance of the address is deleted even where the rows of the token are free.
    have hone := Bool.toNat_le (!config.freeRows asset.tokenId)
    omega
  · exact hrow

/-- The rows of an instance, of which the owner's and the lookup's are always there. -/
theorem two_le_instanceQuanta (stored ram metaId : ℕ) : 2 ≤ instanceQuanta stored ram metaId := by
  rw [instanceQuanta]
  omega

theorem length_sizesFor {values : List UInt32} {count : UInt32} (h : SizedFor values count) :
    (sizesFor values count).length = count.toNat := by
  rcases values with - | ⟨value, - | ⟨value', values⟩⟩
  · exact List.length_replicate
  · exact List.length_replicate
  · exact h (Nat.le_add_left 2 _)

namespace NativeFeePart

variable {config : GasConfig} {part : NativeFeePart}

theorem length_instanceSizes (h : part.Sized) :
    part.instanceSizes.length = part.instances.toNat := by
  rw [instanceSizes, List.length_zip, length_sizesFor h.1, length_sizesFor h.2, Nat.min_self]

/-- A burn deletes two rows or more for every instance. -/
theorem two_mul_instances_le_deletedRows (hkind : part.kind = .burnNonFungible)
    (h : part.Sized) : 2 * part.instances.toNat ≤ part.deletedRows := by
  have hsum := List.card_nsmul_le_sum (part.instanceSizes.map fun sizes =>
    instanceQuanta sizes.1.toNat sizes.2.toNat part.metaIdRow) 2 (List.forall_mem_map.2
      fun _ _ => two_le_instanceQuanta _ _ _)
  rw [List.length_map, length_instanceSizes h, smul_eq_mul, Nat.mul_comm] at hsum
  rw [deletedRows, hkind]
  exact hsum

/-- A burn creates two rows at most, those of returned assets apart. -/
theorem newRows_le_two (hkind : part.kind = .burnNonFungible) : part.newRows config ≤ 2 := by
  have hburnt : part.burntRow config ≤ 1 := factRow_le_one _ _
  have hsupply : part.supplyRow config ≤ 1 := factRow_le_one _ _
  rw [newRows, hkind]
  exact Nat.add_le_add hburnt hsupply

/-- A burn deletes at least the rows it creates, those of returned assets included. -/
theorem totalNewRows_le_totalDeletedRows (hkind : part.kind = .burnNonFungible)
    (h : part.Admitted config) : part.totalNewRows config ≤ part.totalDeletedRows config := by
  obtain ⟨hne, hadmitted⟩ := h
  rw [hkind] at hadmitted
  have hpos : part.instances.toNat ≠ 0 := fun h0 => hne (UInt32.toNat_inj.1 h0)
  have hburn : part.newRows config ≤ part.deletedRows := by
    have hnew : part.newRows config ≤ 2 := newRows_le_two hkind
    have hdeleted := two_mul_instances_le_deletedRows hkind ⟨hadmitted.1, hadmitted.2.1⟩
    omega
  exact Nat.add_le_add hburn
    (List.sum_le_sum fun asset _ => asset.newRows_le_deletedRows config)

end NativeFeePart

/-! ## The bill -/

variable {config : GasConfig}

/-- A batch that is priced is settled, unless a needed envelope is missing. -/
theorem exists_settle_iff {models : List OperationModel}
    {transaction : NativeFeeTransactionParams} :
    (∃ estimate, settle models config transaction = .ok estimate) ↔
      (config.hasGasModelV2 → transaction.envelopeBytes ≠ 0) := by
  simp only [settle, bind_eq_ok, pure_eq_ok, Except.ok.injEq]
  constructor
  · rintro ⟨estimate, bill, hbill, -⟩ hv h0
    rw [if_pos hv, settleV2, if_pos h0] at hbill
    cases hbill
  · intro h
    by_cases hv : config.hasGasModelV2 = true
    · rw [if_pos hv, settleV2, if_neg (h hv)]
      exact ⟨_, _, rfl, rfl⟩
    · rw [if_neg hv]
      exact ⟨_, _, rfl, rfl⟩

/-- One operation is estimated where it is priced and settled. -/
theorem estimateNativeFee_eq_ok {kind : NativeFeeKind} {params : NativeFeeParams}
    {estimate : NativeFeeEstimate} : estimateNativeFee kind config params = .ok estimate ↔
      ∃ model, partModel config ⟨kind, params⟩ = .ok model ∧
        settle [model] config ⟨params.envelopeBytes, params.payloadBytes⟩ = .ok estimate := by
  rw [estimateNativeFee, estimateNativeFeeBatch, bind_eq_ok]
  simp only [mapM_eq_ok, List.forall₂_cons_left_iff, List.forall₂_nil_left_iff]
  constructor
  · rintro ⟨_, ⟨model, _, hmodel, rfl, rfl⟩, hsettle⟩
    exact ⟨model, hmodel, hsettle⟩
  · rintro ⟨model, hmodel, hsettle⟩
    exact ⟨_, ⟨model, _, hmodel, rfl, rfl⟩, hsettle⟩

/-- The work of a burn and of what it returns: per instance a transfer and two queries,
    and the transfers of the assets. -/
def burnWork (config : GasConfig) (params : NativeFeeParams) : ℕ :=
  (params.count.getD 1).toNat * (config.gasFeeTransfer.toNat + 2 * config.gasFeeQuery.toNat) +
    ((params.infusions.getD []).map (InfusedAsset.work config)).sum

theorem exactWork_burnNonFungible (config : GasConfig) (params : NativeFeeParams) :
    NativeFeePart.exactWork config ⟨.burnNonFungible, params⟩ = burnWork config params := by
  have hassets : NativeFeePart.assets ⟨.burnNonFungible, params⟩ = params.infusions.getD [] := rfl
  simp only [NativeFeePart.exactWork, burnWork, hassets, NativeFeePart.instances]
  rw [Nat.mul_comm, Nat.mul_comm config.gasFeeQuery.toNat]

/-- The bill under the second gas model, where no block data is added and nothing is
    charged apart from the work. -/
theorem exactBill_of_no_data {transaction : NativeFeeTransactionParams} {costs : ExactCosts}
    (hv : config.hasGasModelV2 = true) (hrows : costs.new ≤ costs.deleted)
    (hpolicy : costs.policy = 0) (hresult : costs.result = 0) {work : ℕ}
    (hwork : costs.work = min work (2 ^ 64 - 1)) :
    (exactBill config transaction costs).1 = max
      (mulShift (clamp64 (work + 25 * transaction.envelopeBytes.toNat)) config.feeMultiplier
        config.feeShift).toNat config.minimumGasBill.toNat := by
  have hunits : min (min work (2 ^ 64 - 1) + transaction.envelopeBytes.toNat * 25) (2 ^ 64 - 1) =
      (clamp64 (work + 25 * transaction.envelopeBytes.toNat)).toNat := by
    rw [toNat_clamp64]
    omega
  rw [exactBill, if_pos hv]
  simp only [hpolicy, hresult, hwork, Nat.sub_eq_zero_of_le hrows, Nat.add_zero, hunits,
    ← toNat_mulShift_eq]
  have hlt := (mulShift (clamp64 (work + 25 * transaction.envelopeBytes.toNat))
    config.feeMultiplier config.feeShift).toNat_lt
  rw [min_eq_left (by omega)]

/-- A burn is billed for its work and its envelope: the rows it creates are covered by
    those it deletes, and it pays no policy fee and returns no bytes. -/
theorem burnNonFungible_spec (config : GasConfig) (params : NativeFeeParams) :
    ((∃ estimate, estimateNativeFee .burnNonFungible config params = .ok estimate) ↔
      NativeFeePart.Fits config ⟨.burnNonFungible, params⟩ ∧
        (config.hasGasModelV2 → params.envelopeBytes ≠ 0)) ∧
    ∀ estimate, estimateNativeFee .burnNonFungible config params = .ok estimate →
      estimate.newStorageQuanta ≤ estimate.deletedStorageQuanta ∧
      (config.hasGasModelV2 → estimate.expectedGasBill = max
        (mulShift (clamp64 (burnWork config params + 25 * params.envelopeBytes.toNat))
          config.feeMultiplier config.feeShift) config.minimumGasBill) := by
  constructor
  · simp only [estimateNativeFee_eq_ok, ← NativeFeePart.exists_partModel_iff_fits]
    constructor
    · rintro ⟨estimate, model, hmodel, hsettle⟩
      exact ⟨⟨model, hmodel⟩, exists_settle_iff.1 ⟨estimate, hsettle⟩⟩
    · rintro ⟨⟨model, hmodel⟩, henvelope⟩
      have hsettle : ∃ estimate, settle [model] config
          ⟨params.envelopeBytes, params.payloadBytes⟩ = .ok estimate :=
        exists_settle_iff.2 henvelope
      exact hsettle.imp fun _ hsettle => ⟨model, hmodel, hsettle⟩
  · intro estimate h
    obtain ⟨models, hmodels, hsettle⟩ := bind_eq_ok.1 h
    have hexact := settle_exact (costs_total hmodels) hsettle
    obtain ⟨model, hmodel, -⟩ := estimateNativeFee_eq_ok.1 h
    have hrows := NativeFeePart.totalNewRows_le_totalDeletedRows rfl
      (NativeFeePart.partModel_eq_ok_exact.1 hmodel).1
    have hle : (exactCosts config [⟨.burnNonFungible, params⟩]).new ≤
        (exactCosts config [⟨.burnNonFungible, params⟩]).deleted := by
      simp only [exactCosts, List.map_cons, List.map_nil, List.sum_cons, List.sum_nil]
      omega
    constructor
    · rw [UInt32.le_iff_toNat_le, hexact.newStorageQuanta, hexact.deletedStorageQuanta]
      exact hle
    · intro hv
      refine UInt64.toNat_inj.1 ?_
      rw [hexact.expectedGasBill, toNat_max64, exactBill_of_no_data hv hle]
      · simp [exactCosts, NativeFeePart.exactPolicy]
      · simp [exactCosts, NativeFeePart.resultSize]
      · simp [exactCosts, exactWork_burnNonFungible]

/-- An NFT that holds some of the gas token, some of a token of the burner's and another
    NFT: a hundred units of work, and those of the envelope. -/
theorem burnNonFungible_spec_returns :
    let config : GasConfig := { version := 1, feeMultiplier := 10000, gasTokenId := 1,
                                dataTokenId := 2, gasFeeTransfer := 10, gasFeeQuery := 10,
                                minimumGasBill := 10000000 }
    let params : NativeFeeParams := { envelopeBytes := 138, tokenId := some 7, romBytes := [6170],
                                      tokenBurnedBefore := true, supplyRowExists := true,
                                      infusions := some [
                                        { tokenId := some 1 },
                                        { tokenId := some 97, burnerHoldsToken := true },
                                        { tokenId := some 9, nonFungible := true,
                                          burnerHoldsToken := true }] }
    ∃ estimate, estimateNativeFee .burnNonFungible config params = .ok estimate ∧
      estimate.newStorageQuanta ≤ estimate.deletedStorageQuanta ∧
        estimate.expectedGasBill = 35500000 := by
  intro config params
  have h : estimateNativeFee .burnNonFungible config params =
      .ok { maxGas := 35500000, maxData := 0, expectedGasBill := 35500000,
            newStorageQuanta := 1, deletedStorageQuanta := 13 } := by decide
  obtain ⟨hrows, hbill⟩ := (burnNonFungible_spec config params).2 _ h
  refine ⟨_, h, hrows, (hbill rfl).trans ?_⟩
  decide

end PhantasmaSdk
