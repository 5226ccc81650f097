import PhantasmaSdk.Fees.Restated

/-!
# Exact plans

A plan is exact if its facts at their cheapest readings give the same numbers. For a
message that burns no NFT this says that the facts do not matter: any other reading
lies between the two. A burn is different in two ways. What its NFTs hold is returned, and
whether the burner holds these tokens is not read again; and of a meta id that is left
open the cheapest reading deletes less, so that what it takes away from the growth and
what it adds to it may cancel. Where neither can move what is billed (`ReadAlike`), exact
plans are sound (`exactSound_iff`).
-/

namespace PhantasmaSdk

open Machine

/-- The two plans have the same bill, offer and ceiling. -/
structure FeePlan.SamePrice (plan' plan : FeePlan) : Prop where
  expectedGasBill : plan'.expectedGasBill = plan.expectedGasBill
  maxGas : plan'.maxGas = plan.maxGas
  maxData : plan'.maxData = plan.maxData

/-- The message has this price whatever facts are stated. -/
def ExactSound (msg : TxMsg) (config : GasConfig) (o : FeePlanOptions) (plan : FeePlan) : Prop :=
  ∀ (o' : FeePlanOptions) (plan' : FeePlan), o'.Restates o →
    planFees msg config o' = .ok plan' → plan'.SamePrice plan

/-- Growth is not charged for, or there is none, whether there are meta ids or not. -/
def NoGrowth (msg : TxMsg) (config : GasConfig) (o : FeePlanOptions) : Prop :=
  config.GrowthFree ∨ growth config o.withoutMetaIds msg.batch = 0

/-- Each returned asset has a balance row already, or a free one. -/
def ReturnsSettled (config : GasConfig) (o : FeePlanOptions) : Prop :=
  ∀ asset ∈ o.infusions.getD [], asset.burnerHoldsToken ∨ config.freeRows asset.tokenId

/-- The message burns nothing; or what is left open of its burns is not billed: of meta ids,
    because they are stated or there is no growth to pay for, and of returned assets,
    because they are settled or neither growth nor rows are paid for. -/
def ReadAlike (msg : TxMsg) (config : GasConfig) (o : FeePlanOptions) : Prop :=
  burnedInstances msg = [] ∨
    (o.romHasMetaId.isSome ∨ NoGrowth msg config o) ∧
      (ReturnsSettled config o ∨ config.dataEscrowPerRow = 0 ∧ NoGrowth msg config o)

theorem NativeFeeEstimate.Le.antisymm {a b : NativeFeeEstimate} (h : a.Le b) (h' : b.Le a) :
    a.expectedGasBill = b.expectedGasBill ∧ a.maxGas = b.maxGas ∧ a.maxData = b.maxData :=
  ⟨UInt64.le_antisymm h.expectedGasBill h'.expectedGasBill,
    UInt64.le_antisymm h.maxGas h'.maxGas, UInt64.le_antisymm h.maxData h'.maxData⟩

/-! ## Sound plans -/

section

variable {msg : TxMsg} {config : GasConfig} {o o' : FeePlanOptions} {parts : List NativeFeePart}
  {size : UInt32} {models models' : List OperationModel} {estimate estimate' : NativeFeeEstimate}

/-- Of burns, only what is returned makes the growth more, if it is stated alike whether
    there are meta ids. -/
theorem Priced.net_le_of_stated (h : Priced msg config o parts size models estimate)
    (h' : Priced msg config o' parts size models' estimate') (hc : o'.facts.Cheaper o.facts)
    (hb : o.SameBudget o') (hburn : .burnNonFungible ∈ parts.map NativeFeePart.kind)
    (hrom : o'.romHasMetaId = o.romHasMetaId)
    (hnew : ((o'.infusions.getD []).map (InfusedAsset.newRows config)).sum ≤
      ((o.infusions.getD []).map (InfusedAsset.newRows config)).sum)
    (hdeleted : ((o'.infusions.getD []).map (InfusedAsset.deletedRows config)).sum =
      ((o.infusions.getD []).map (InfusedAsset.deletedRows config)).sum) :
    (OperationModel.total models').net ≤ (OperationModel.total models).net := by
  rw [UInt32.le_iff_toNat_le, h.toNat_net_of_burn hburn, h'.toNat_net_of_burn hburn,
    ← h.partsGrowth_eq hburn, ← h.partsGrowth_eq hburn]
  refine grown_le_grown (Nat.add_le_add (List.sum_le_sum fun part _ =>
    part.newRows_stated_le hc fun _ => hb) hnew) (Nat.add_le_add (List.sum_le_sum fun part _ =>
      part.deletedRows_stated_le fun h => ?_) hdeleted.ge)
  rwa [hrom]

/-- NFTs are burned and minted by their native types in different messages. -/
theorem newRows_withoutMetaIds {part : NativeFeePart} (h : part.kind ≠ .mintNonFungible) :
    (part.stated o.withoutMetaIds).newRows config = (part.stated o).newRows config := by
  obtain ⟨kind, params⟩ := part
  cases kind <;> first | rfl | exact absurd rfl h

/-- Where there is no growth without meta ids, no restatement grows the storage. -/
theorem Priced.net_eq_zero (h : Priced msg config o' parts size models' estimate')
    (hrestates : o'.Restates o) (hburn : .burnNonFungible ∈ parts.map NativeFeePart.kind)
    (hnone : growth config o.withoutMetaIds msg.batch = 0) :
    (OperationModel.total models').net = 0 := by
  have hexclusive := no_native_mint h.operations hburn
  have hle : partsGrowth config o' parts ≤ partsGrowth config o.withoutMetaIds parts := by
    refine grown_le_grown (Nat.add_le_add (List.sum_le_sum fun part hpart => ?_)
      (sum_newRows_le hrestates.assets)) (Nat.add_le_add (List.sum_le_sum fun part _ => ?_)
        (sum_deletedRows_eq hrestates.assets).ge)
    · rw [newRows_withoutMetaIds fun hkind =>
        hexclusive (List.mem_map.2 ⟨part, hpart, hkind⟩)]
      exact part.newRows_stated_le hrestates.facts.cheaper fun _ => hrestates.toSameBudget
    · exact part.deletedRows_stated_le
        (Facts.getD_imp_of_restates' hrestates.facts.romHasMetaId)
  rw [h.partsGrowth_eq hburn, h.partsGrowth_eq hburn, hnone, Nat.le_zero,
    ← h.toNat_net_of_burn hburn] at hle
  exact UInt32.toNat_inj.1 hle

/-- A restatement costs no more. -/
theorem Priced.le_of_restates (h : Priced msg config o parts size models estimate)
    (h' : Priced msg config o' parts size models' estimate') (hrestates : o'.Restates o)
    (hburn : .burnNonFungible ∈ parts.map NativeFeePart.kind)
    (hmeta : o.romHasMetaId.isSome ∨ NoGrowth msg config o) : estimate'.Le estimate := by
  have hassets := hrestates.assets
  refine h.le_of_net h' hrestates.facts.cheaper hrestates.toSameBudget
    (sameWork_of_restates hassets) (.inr (h.newQuanta_le h' hrestates.facts.cheaper
      hrestates.toSameBudget hburn (sum_newRows_le hassets))) ?_
  rcases hmeta with hstated | hfree | hnone
  · obtain ⟨b, hb⟩ := Option.isSome_iff_exists.1 hstated
    exact .inr (h.net_le_of_stated h' hrestates.facts.cheaper hrestates.toSameBudget hburn
      ((hrestates.facts.romHasMetaId b hb).trans hb.symm) (sum_newRows_le hassets)
      (sum_deletedRows_eq hassets))
  · exact .inl hfree
  · rw [h'.net_eq_zero hrestates hburn hnone]
    exact .inr (UInt32.le_iff_toNat_le.2 (Nat.zero_le _))

/-- A restatement costs no less than the cheapest readings, where what is returned cannot
    move the price. -/
theorem Priced.cheapest_le {models₀ : List OperationModel} {estimate₀ : NativeFeeEstimate}
    (h : Priced msg config o.cheapest parts size models₀ estimate₀)
    (h' : Priced msg config o' parts size models' estimate') (hrestates : o'.Restates o)
    (hburn : .burnNonFungible ∈ parts.map NativeFeePart.kind)
    (hmeta : o.romHasMetaId.isSome ∨ NoGrowth msg config o)
    (hreturns : ReturnsSettled config o ∨ config.dataEscrowPerRow = 0 ∧ NoGrowth msg config o) :
    estimate₀.Le estimate' := by
  have hassets := hrestates.assets
  have hbudget := hrestates.budget_cheapest
  have hcheaper : o.cheapest.facts.Cheaper o'.facts := hrestates.facts.cheapest_cheaper
  have hnone (hng : NoGrowth msg config o) : config.GrowthFree ∨
      (OperationModel.total models₀).net ≤ (OperationModel.total models').net := by
    refine hng.imp_right fun hnone => ?_
    rw [h.net_eq_zero (cheapest_restates o) hburn hnone]
    exact UInt32.le_iff_toNat_le.2 (Nat.zero_le _)
  have hwork : SameWork config (o.infusions.getD []) (o'.infusions.getD []) :=
    (sameWork_of_restates hassets).symm
  rcases hreturns with hsettled | ⟨hescrow, hng⟩
  · have hnew := (sum_newRows_eq hassets hsettled).ge
    refine h'.le_of_net h hcheaper hbudget hwork
      (.inr (h'.newQuanta_le h hcheaper hbudget hburn hnew)) ?_
    rcases hmeta with hstated | hng
    · obtain ⟨b, hb⟩ := Option.isSome_iff_exists.1 hstated
      refine .inr (h'.net_le_of_stated h hcheaper hbudget hburn ?_ hnew
        (sum_deletedRows_eq hassets).symm)
      have hb' : o'.romHasMetaId = some b := hrestates.facts.romHasMetaId b hb
      rw [hb']
      exact congrArg (fun c : Option Bool => some (c.getD false)) hb
    · exact hnone hng
  · exact h'.le_of_net h hcheaper hbudget hwork (.inl hescrow) (hnone hng)

theorem exactSound_of_readAlike {plan : FeePlan} (hplan : planFees msg config o = .ok plan)
    (hexact : plan.exact) (h : ReadAlike msg config o) : ExactSound msg config o plan := by
  intro o' plan' hrestates hplan'
  obtain ⟨-, parts, size, models, estimate, exact, hpriced, hisExact, rfl⟩ :=
    planFees_eq_ok.1 hplan
  obtain ⟨-, parts', size', models', estimate', exact', hpriced', -, rfl⟩ :=
    planFees_eq_ok.1 hplan'
  obtain ⟨rfl, rfl⟩ := hpriced.unique hrestates.witnessCount hpriced'
  rcases (isExact_eq_ok hpriced).1 hisExact with ⟨-, rfl⟩ | ⟨-, models₀, estimate₀, hpriced₀, hiff⟩
  · cases hexact
  obtain ⟨hbill₀, hgas₀, hdata₀⟩ := hiff.1 hexact
  -- What is restated lies between the cheapest readings and the stated ones.
  have hbetween : estimate'.Le estimate ∧ estimate₀.Le estimate' := by
    by_cases hburn : .burnNonFungible ∈ parts'.map NativeFeePart.kind
    · obtain ⟨hmeta, hreturns⟩ := h.resolve_left
        ((listsAll_burnedInstances hpriced.operations).ne_nil_iff.2 hburn)
      exact ⟨hpriced.le_of_restates hpriced' hrestates hburn hmeta,
        hpriced₀.cheapest_le hpriced' hrestates hburn hmeta hreturns⟩
    · exact ⟨hpriced.le hpriced' hrestates.facts.cheaper hrestates.toSameBudget hburn,
        hpriced'.le hpriced₀ hrestates.facts.cheapest_cheaper hrestates.budget_cheapest hburn⟩
  obtain ⟨hle, hge⟩ := hbetween
  have hge' : estimate.Le estimate' :=
    ⟨hbill₀ ▸ hge.expectedGasBill, hgas₀ ▸ hge.maxGas, hdata₀ ▸ hge.maxData⟩
  obtain ⟨hbill, hgas, hdata⟩ := hle.antisymm hge'
  exact ⟨hbill, hgas, hdata⟩

end

/-! ## Where a burn is not exact -/

/-- The bill tells one unit from the next, and the rows and what is escrowed for them are
    not at the greatest word. -/
structure FeePlan.Resolved (config : GasConfig) (plan : FeePlan) : Prop where
  expectedGasBill : config.Resolves plan.expectedGasBill
  maxData : plan.maxData.toNat < 2 ^ 64 - 1
  newStorageQuanta : plan.newStorageQuanta.toNat < 2 ^ 32 - 1

section

variable {msg : TxMsg} {config : GasConfig} {o : FeePlanOptions} {plan : FeePlan}

theorem grown_lt_grown {created deleted deleted' : ℕ} (h : grown created deleted' ≠ 0)
    (hlt : deleted' < deleted) : grown created deleted < grown created deleted' := by
  unfold grown at h ⊢
  omega

/-- A burn deletes more with its meta ids than without them. -/
theorem Priced.sum_deletedRows_withoutMetaIds_lt
    (h : Priced msg config o parts size models estimate)
    (hburn : .burnNonFungible ∈ parts.map NativeFeePart.kind) (hopen : o.romHasMetaId = none) :
    (parts.map fun part => (part.stated o.withoutMetaIds).deletedRows).sum <
      (parts.map fun part => (part.stated o).deletedRows).sum := by
  obtain ⟨part, hpart, hkind⟩ := List.mem_map.1 hburn
  obtain ⟨h0, hsized⟩ := h.sized_of_burn hpart hkind
  refine List.sum_lt_sum _ _ (fun part _ => part.deletedRows_stated_le ?_) ⟨part, hpart, ?_⟩
  · simp [hopen]
  -- The part has instances, and deletes a row less for each.
  have hsome : part.instanceSizes ≠ [] := by
    rw [← List.length_pos_iff, NativeFeePart.length_instanceSizes hsized]
    exact Nat.pos_of_ne_zero fun hzero => h0 (UInt32.toNat_inj.1 hzero)
  obtain ⟨kind, params⟩ := part
  cases hkind
  refine List.sum_lt_sum_of_ne_nil hsome _ _ fun sizes _ => ?_
  rw [FeePlanOptions.withoutMetaIds, NativeFeePart.stated, NativeFeePart.stated, hopen]
  exact Nat.add_lt_add_left Nat.one_pos _

/-- Stating that there are no meta ids grows the storage more, if it grows then at all. -/
theorem not_exactSound_of_open (hplan : planFees msg config o = .ok plan)
    (hburned : burnedInstances msg ≠ []) (hopen : o.romHasMetaId = none)
    (hgrowth : growth config o.withoutMetaIds msg.batch ≠ 0)
    (hresolves : config.Resolves plan.expectedGasBill) : ¬ExactSound msg config o plan := by
  intro hsound
  have hrestates := withoutMetaIds_restates o
  obtain ⟨plan', hplan'⟩ := exists_planFees_of_restates hplan hrestates
  have hsame := (hsound _ plan' hrestates hplan').expectedGasBill
  obtain ⟨-, parts, size, models, estimate, exact, hpriced, -, rfl⟩ := planFees_eq_ok.1 hplan
  obtain ⟨-, parts', size', models', estimate', exact', hpriced', -, rfl⟩ :=
    planFees_eq_ok.1 hplan'
  obtain ⟨rfl, rfl⟩ := hpriced.unique hrestates.witnessCount hpriced'
  have hburn := (listsAll_burnedInstances hpriced.operations).ne_nil_iff.1 hburned
  have hexclusive := no_native_mint hpriced.operations hburn
  have hcreated : (parts'.map fun part => (part.stated o.withoutMetaIds).newRows config) =
      parts'.map fun part => (part.stated o).newRows config :=
    List.map_congr_left fun part hpart => newRows_withoutMetaIds fun hkind =>
      hexclusive (List.mem_map.2 ⟨part, hpart, hkind⟩)
  have hdeleted := hpriced.sum_deletedRows_withoutMetaIds_lt hburn hopen
  have hnet : (OperationModel.total models).net < (OperationModel.total models').net := by
    rw [← hpriced.partsGrowth_eq hburn] at hgrowth
    rw [UInt32.lt_iff_toNat_lt, hpriced.toNat_net_of_burn hburn, hpriced'.toNat_net_of_burn hburn,
      ← hpriced.partsGrowth_eq hburn, ← hpriced.partsGrowth_eq hburn]
    unfold partsGrowth at hgrowth ⊢
    rw [hcreated] at hgrowth ⊢
    exact grown_lt_grown hgrowth (Nat.add_lt_add_right hdeleted _)
  have hlt := hpriced.lt_of_net hpriced' rfl rfl hrestates.toSameBudget rfl hnet hresolves
  exact absurd hsame (UInt64.ne_of_lt hlt).symm

/-- Fewer rows that are created grow the storage less, if they grow it at all and can be
    counted. -/
theorem grown_lt_grown_of_created {created created' deleted : ℕ} (h : grown created deleted ≠ 0)
    (hlt : created' < created) (hcounted : created < 2 ^ 32 - 1) :
    grown created' deleted < grown created deleted := by
  unfold grown at h ⊢
  omega

/-- Stating that the burner holds what is returned creates fewer rows, which are escrowed or
    billed. -/
theorem not_exactSound_of_unsettled (hplan : planFees msg config o = .ok plan)
    (hburned : burnedInstances msg ≠ []) (hunsettled : ¬ReturnsSettled config o)
    (hpaid : config.dataEscrowPerRow ≠ 0 ∨ growth config o msg.batch ≠ 0)
    (hresolved : plan.Resolved config) : ¬ExactSound msg config o plan := by
  intro hsound
  have hrestates := settled_restates o
  obtain ⟨plan', hplan'⟩ := exists_planFees_of_restates hplan hrestates
  have hsame := hsound _ plan' hrestates hplan'
  obtain ⟨-, parts, size, models, estimate, exact, hpriced, -, rfl⟩ := planFees_eq_ok.1 hplan
  obtain ⟨-, parts', size', models', estimate', exact', hpriced', -, rfl⟩ :=
    planFees_eq_ok.1 hplan'
  obtain ⟨rfl, rfl⟩ := hpriced.unique hrestates.witnessCount hpriced'
  have hburn := (listsAll_burnedInstances hpriced.operations).ne_nil_iff.1 hburned
  have hassets : o.settled.infusions.getD [] = (o.infusions.getD []).map InfusedAsset.held := by
    change (o.infusions.map _).getD [] = _
    rcases o.infusions with - | infusions <;> rfl
  have hreturned : ((o.settled.infusions.getD []).map (InfusedAsset.newRows config)).sum <
      ((o.infusions.getD []).map (InfusedAsset.newRows config)).sum := by
    rw [hassets]
    exact sum_newRows_held_lt (by simpa [ReturnsSettled] using hunsettled)
  obtain ⟨hnew, -⟩ := hpriced.sums_of_burn hburn
  obtain ⟨hnew', -⟩ := hpriced'.sums_of_burn hburn
  have hstated (part : NativeFeePart) : part.stated o.settled = part.stated o := rfl
  simp only [hstated] at hnew'
  have hcounted : (OperationModel.total models).newQuanta.toNat < 2 ^ 32 - 1 := by
    rw [(costs_total hpriced.priced).new, ← hpriced.isExact.newStorageQuanta]
    exact hresolved.newStorageQuanta
  rcases hpaid with hescrow | hgrowth
  · have hless : (OperationModel.total models').newQuanta.toNat <
        (OperationModel.total models).newQuanta.toNat := by omega
    have hpos : 0 < config.dataEscrowPerRow.toNat :=
      Nat.pos_of_ne_zero fun h0 => hescrow (UInt64.toNat_inj.1 h0)
    have hlt := Nat.mul_lt_mul_of_pos_right hless hpos
    have hceiling := hresolved.maxData
    have hdata : estimate'.maxData.toNat = estimate.maxData.toNat :=
      congrArg UInt64.toNat hsame.maxData
    simp only [hpriced.isExact.maxData, hpriced'.isExact.maxData,
      ← (costs_total hpriced.priced).new, ← (costs_total hpriced'.priced).new] at hdata hceiling
    omega
  · have hnet : (OperationModel.total models').net < (OperationModel.total models).net := by
      rw [UInt32.lt_iff_toNat_lt, hpriced.toNat_net_of_burn hburn, hpriced'.toNat_net_of_burn hburn,
        ← hpriced.partsGrowth_eq hburn, ← hpriced.partsGrowth_eq hburn]
      rw [← hpriced.partsGrowth_eq hburn] at hgrowth
      have hdeleted : ((o.settled.infusions.getD []).map (InfusedAsset.deletedRows config)).sum =
          ((o.infusions.getD []).map (InfusedAsset.deletedRows config)).sum :=
        sum_deletedRows_eq hrestates.assets
      unfold partsGrowth at hgrowth ⊢
      rw [hdeleted]
      simp only [hstated]
      exact grown_lt_grown_of_created hgrowth (Nat.add_lt_add_left hreturned _) (by omega)
    have hbill : estimate'.expectedGasBill = estimate.expectedGasBill := hsame.expectedGasBill
    have hlt := hpriced'.lt_of_net hpriced rfl rfl ⟨rfl, rfl, rfl⟩
      (sameWork_of_restates hrestates.assets).symm hnet (hbill ▸ hresolved.expectedGasBill)
    exact absurd hbill (UInt64.ne_of_lt hlt)

theorem not_exactSound_of_not_readAlike (hplan : planFees msg config o = .ok plan)
    (h : ¬ReadAlike msg config o) (hresolved : plan.Resolved config) :
    ¬ExactSound msg config o plan := by
  have hfree := hresolved.expectedGasBill.not_growthFree
  have hgrows (hng : ¬NoGrowth msg config o) : growth config o.withoutMetaIds msg.batch ≠ 0 :=
    fun hzero => hng (.inr hzero)
  simp only [ReadAlike, not_or, not_and_or] at h
  obtain ⟨hburned, ⟨hopen, hng⟩ | ⟨hunsettled, hpaid⟩⟩ := h
  · exact not_exactSound_of_open hplan hburned (Option.not_isSome_iff_eq_none.1 hopen) (hgrows hng)
      hresolved.expectedGasBill
  rcases hrom : o.romHasMetaId with - | b
  · rcases hpaid with hescrow | hng
    · exact not_exactSound_of_unsettled hplan hburned hunsettled (.inl hescrow) hresolved
    · exact not_exactSound_of_open hplan hburned hrom (hgrows hng) hresolved.expectedGasBill
  · -- The meta ids are stated, and are read as they are.
    have hsame : o.withoutMetaIds = o := by
      rw [FeePlanOptions.withoutMetaIds, hrom]
      exact hrom ▸ rfl
    refine not_exactSound_of_unsettled hplan hburned hunsettled (hpaid.imp_right fun hng => ?_)
      hresolved
    rw [← hsame]
    exact hgrows hng

end

/-- An exact plan is sound where what it does not read again, or reads against what else is
    cheaper, is not billed; and nowhere else, as long as its numbers tell one unit from
    the next. -/
theorem exactSound_iff {msg : TxMsg} {config : GasConfig} {o : FeePlanOptions} {plan : FeePlan}
    (hplan : planFees msg config o = .ok plan) (hexact : plan.exact) :
    (ReadAlike msg config o → ExactSound msg config o plan) ∧
      (plan.Resolved config → (ExactSound msg config o plan ↔ ReadAlike msg config o)) := by
  refine ⟨exactSound_of_readAlike hplan hexact, fun hresolved =>
    ⟨fun hsound => ?_, exactSound_of_readAlike hplan hexact⟩⟩
  by_contra h
  exact not_exactSound_of_not_readAlike hplan h hresolved hsound

/-- A burn of one NFT, by its native type. -/
def burnOne : TxMsg where
  txType := .burnNonFungible
  expiry := 0
  maxGas := 0
  maxData := 0
  gasFrom := emptyBytes32
  payload := ⟨""⟩
  msg := .burnNonFungible { tokenId := 0, instanceId := 0 }

/-- A unit for each unit of work and each byte, and one in escrow for each row. -/
def perRow : GasConfig := { version := 1, feeMultiplier := 1, dataEscrowPerRow := 1 }

/-- Every fact at its cheapest reading, and one asset returned to a burner who may hold
    it. -/
def knownOptions (burnerHoldsToken : Bool) : FeePlanOptions where
  recipientHoldsToken := true
  tokenBurnedBefore := true
  supplyRowExists := true
  bigFungible := some false
  romHasMetaId := some false
  seriesHasMetaId := some false
  duplicatedSeries := some false
  infusions := some [{ burnerHoldsToken }]

theorem exists_exact_held : ∃ plan, planFees burnOne perRow (knownOptions true) = .ok plan ∧
    (plan.exact, plan.maxData) = (true, 0) := exists_ok_of_map (by decide +kernel)

theorem exists_exact_open : ∃ plan, planFees burnOne perRow (knownOptions false) = .ok plan ∧
    (plan.exact, plan.expectedGasBill, plan.maxData, plan.newStorageQuanta) = (true, 3450, 1, 1) :=
  exists_ok_of_map (by decide +kernel)

/-- The exact plan of the burn is sound where the burner is known to hold the asset, and
    not where the balance row is left open. -/
theorem exactSound_iff_burnOne :
    (∃ plan, planFees burnOne perRow (knownOptions true) = .ok plan ∧ plan.exact ∧
      ExactSound burnOne perRow (knownOptions true) plan) ∧
    ∃ plan, planFees burnOne perRow (knownOptions false) = .ok plan ∧ plan.exact ∧
      ¬ExactSound burnOne perRow (knownOptions false) plan := by
  constructor
  · obtain ⟨plan, hplan, hmap⟩ := exists_exact_held
    obtain ⟨hexact, -⟩ := Prod.mk.inj hmap
    have hsettled : ReturnsSettled perRow (knownOptions true) := fun asset hmem =>
      .inl (by rw [List.mem_singleton.1 hmem])
    exact ⟨plan, hplan, hexact,
      (exactSound_iff hplan hexact).1 (.inr ⟨.inl rfl, .inl hsettled⟩)⟩
  · obtain ⟨plan, hplan, hmap⟩ := exists_exact_open
    simp only [Prod.mk.injEq] at hmap
    obtain ⟨hexact, hbill, hdata, hrows⟩ := hmap
    have hresolved : plan.Resolved perRow := by
      refine ⟨?_, ?_, ?_⟩
      · rw [hbill]
        exact ⟨by decide, by decide⟩
      · rw [hdata]
        decide
      · rw [hrows]
        decide
    refine ⟨plan, hplan, hexact, fun hsound => ?_⟩
    rcases ((exactSound_iff hplan hexact).2 hresolved).1 hsound with hnone | ⟨-, hsettled | hfree⟩
    · cases hnone
    · exact absurd (hsettled _ (List.mem_singleton.2 rfl)) (by decide)
    · exact absurd hfree.1 (by decide)

/-- The burned NFT holds an asset. The plan is exact with a ceiling of one row, and the
    burner's balance row takes the row away. -/
theorem not_exactSound : ¬∀ (msg : TxMsg) (config : GasConfig) (o : FeePlanOptions)
    (plan : FeePlan), planFees msg config o = .ok plan → plan.exact →
      ExactSound msg config o plan := by
  intro h
  obtain ⟨plan, hplan, hmap⟩ := exists_exact_open
  obtain ⟨plan', hplan', hmap'⟩ := exists_exact_held
  simp only [Prod.mk.injEq] at hmap hmap'
  have hrestates : (knownOptions true).Restates (knownOptions false) :=
    settled_restates (knownOptions false)
  have hsame := (h burnOne perRow _ plan hplan hmap.1 _ plan' hrestates hplan').maxData
  rw [hmap.2.2.1, hmap'.2] at hsame
  exact absurd hsame (by decide)

end PhantasmaSdk
