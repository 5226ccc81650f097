import PhantasmaSdk.Fees.GrowthBill

/-!
# Restated facts

Facts that are left open, or at their costlier reading, may be stated anew
(`FeePlanOptions.Restates`). A restatement of the returned assets returns the same and
deletes the same rows, and creates no more of them. What can be planned can be planned
with its facts restated (`exists_planFees_of_restates`), the readings that an exact plan
is priced with a second time among them.
-/

namespace PhantasmaSdk

open Machine

/-- The same asset, but for a balance row that may be stated to be there. -/
structure InfusedAsset.Restates (asset' asset : InfusedAsset) : Prop where
  tokenId : asset'.tokenId = asset.tokenId
  nonFungible : asset'.nonFungible = asset.nonFungible
  instanceCount : asset'.instanceCount = asset.instanceCount
  burnerHoldsToken : asset.burnerHoldsToken → asset'.burnerHoldsToken

/-- The same options, but for facts that were left open or at their costlier reading. -/
structure FeePlanOptions.Restates (o' o : FeePlanOptions) : Prop extends o.SameBudget o' where
  witnessCount : o'.witnessCount = o.witnessCount
  facts : o'.facts.Restates o.facts
  infusions : Option.Rel (List.Forall₂ InfusedAsset.Restates) o'.infusions o.infusions

/-! ## Returned assets -/

section

variable {config : GasConfig} {o o' : FeePlanOptions} {asset asset' : InfusedAsset}
  {infusions infusions' : List InfusedAsset}

namespace InfusedAsset.Restates

theorem work_eq (h : asset'.Restates asset) : asset'.work config = asset.work config := by
  simp only [work, instances, h.nonFungible, h.instanceCount]

theorem deletedRows_eq (h : asset'.Restates asset) :
    asset'.deletedRows config = asset.deletedRows config := by
  simp only [deletedRows, instances, h.nonFungible, h.instanceCount, h.tokenId]

theorem newRows_le (h : asset'.Restates asset) :
    asset'.newRows config ≤ asset.newRows config := by
  simp only [newRows, instances, h.nonFungible, h.instanceCount, h.tokenId]
  exact Nat.add_le_add_right (NativeFeePart.factRow_le_factRow h.burnerHoldsToken _) _

/-- A balance row that is there, or free, is not restated. -/
theorem newRows_eq (h : asset'.Restates asset)
    (hsettled : asset.burnerHoldsToken ∨ config.freeRows asset.tokenId) :
    asset'.newRows config = asset.newRows config := by
  have hholds := h.burnerHoldsToken
  simp only [newRows, instances, h.nonFungible, h.instanceCount, h.tokenId, factRow]
  rcases hsettled with hsettled | hsettled
  · simp [hsettled, hholds hsettled]
  · simp [hsettled]

theorem refused_iff (h : asset'.Restates asset) : asset'.Refused ↔ asset.Refused := by
  simp only [Refused, instances, h.nonFungible, h.instanceCount]

end InfusedAsset.Restates

/-- The returned assets, restated. -/
theorem FeePlanOptions.Restates.assets (h : o'.Restates o) :
    List.Forall₂ InfusedAsset.Restates (o'.infusions.getD []) (o.infusions.getD []) := by
  have hinfusions := h.infusions
  revert hinfusions
  rcases o'.infusions with - | infusions' <;> rcases o.infusions with - | infusions
  · exact fun _ => .nil
  · rintro ⟨⟩
  · rintro ⟨⟩
  · rintro ⟨h⟩
    exact h

theorem FeePlanOptions.Restates.isSome_infusions (h : o'.Restates o)
    (hsome : o.infusions.isSome) : o'.infusions.isSome := by
  have hinfusions := h.infusions
  revert hinfusions hsome
  rcases o'.infusions with - | infusions' <;> rcases o.infusions with - | infusions
  · exact fun h _ => h
  · rintro - ⟨⟩
  · exact fun _ _ => rfl
  · exact fun _ _ => rfl

theorem sameWork_of_restates (h : List.Forall₂ InfusedAsset.Restates infusions' infusions) :
    SameWork config infusions' infusions :=
  sum_eq_of_forall₂ (h.flip.imp fun _ _ h => h.work_eq)

theorem sum_deletedRows_eq (h : List.Forall₂ InfusedAsset.Restates infusions' infusions) :
    (infusions'.map (InfusedAsset.deletedRows config)).sum =
      (infusions.map (InfusedAsset.deletedRows config)).sum :=
  sum_eq_of_forall₂ (h.flip.imp fun _ _ h => h.deletedRows_eq)

theorem sum_newRows_le (h : List.Forall₂ InfusedAsset.Restates infusions' infusions) :
    (infusions'.map (InfusedAsset.newRows config)).sum ≤
      (infusions.map (InfusedAsset.newRows config)).sum :=
  sum_le_of_forall₂ (h.flip.imp fun _ _ h => h.newRows_le)

theorem sum_newRows_eq (h : List.Forall₂ InfusedAsset.Restates infusions' infusions)
    (hsettled : ∀ asset ∈ infusions, asset.burnerHoldsToken ∨ config.freeRows asset.tokenId) :
    (infusions'.map (InfusedAsset.newRows config)).sum =
      (infusions.map (InfusedAsset.newRows config)).sum :=
  sum_eq_of_forall₂ (forall₂_imp_mem h.flip fun asset hmem _ h =>
    h.newRows_eq (hsettled asset hmem))

theorem not_refused_of_restates (h : List.Forall₂ InfusedAsset.Restates infusions' infusions)
    (hall : ∀ asset ∈ infusions, ¬asset.Refused) : ∀ asset ∈ infusions', ¬asset.Refused := by
  intro asset' hmem
  obtain ⟨asset, hasset, hrestates⟩ := exists_of_forall₂_mem h hmem
  rw [hrestates.refused_iff]
  exact hall asset hasset

end

/-! ## Readings -/

/-- The readings a plan is priced with a second time restate it. -/
theorem cheapest_restates (o : FeePlanOptions) : o.cheapest.Restates o where
  scriptUnitsAllowance := rfl
  scriptEventBytes := rfl
  scriptStorageQuanta := rfl
  witnessCount := rfl
  facts := ⟨fun _ => rfl, fun _ => rfl, fun _ => rfl, fun _ => rfl,
    fun b h => congrArg (fun c : Option Bool => some (c.getD false)) h,
    fun b h => congrArg (fun c : Option Bool => some (c.getD false)) h,
    fun b h => congrArg (fun c : Option Bool => some (c.getD false)) h⟩
  infusions := by
    change Option.Rel _ o.infusions o.infusions
    rcases o.infusions with - | infusions
    · exact .none
    · exact .some (List.forall₂_same.2 fun _ _ => ⟨rfl, rfl, rfl, id⟩)

theorem FeePlanOptions.Restates.budget_cheapest {o o' : FeePlanOptions} (h : o'.Restates o) :
    o'.SameBudget o.cheapest :=
  ⟨h.scriptUnitsAllowance.symm, h.scriptEventBytes.symm, h.scriptStorageQuanta.symm⟩

/-- The options with the burned ROMs having no meta ids, unless it is stated that they do. -/
def FeePlanOptions.withoutMetaIds (o : FeePlanOptions) : FeePlanOptions :=
  { o with romHasMetaId := some (o.romHasMetaId.getD false) }

theorem withoutMetaIds_restates (o : FeePlanOptions) : o.withoutMetaIds.Restates o where
  scriptUnitsAllowance := rfl
  scriptEventBytes := rfl
  scriptStorageQuanta := rfl
  witnessCount := rfl
  facts := ⟨id, id, id, id, fun _ h => congrArg (fun c : Option Bool => some (c.getD false)) h,
    fun _ => id, fun _ => id⟩
  infusions := (cheapest_restates o).infusions

/-- The asset with its balance row stated to be there. -/
def InfusedAsset.held (asset : InfusedAsset) : InfusedAsset :=
  { asset with burnerHoldsToken := true }

/-- The options with every balance row of a returned asset stated to be there. -/
def FeePlanOptions.settled (o : FeePlanOptions) : FeePlanOptions :=
  { o with infusions := o.infusions.map (List.map InfusedAsset.held) }

theorem forall₂_map_held (infusions : List InfusedAsset) :
    List.Forall₂ InfusedAsset.Restates (infusions.map InfusedAsset.held) infusions := by
  rw [List.forall₂_map_left_iff]
  exact List.forall₂_same.2 fun _ _ => ⟨rfl, rfl, rfl, fun _ => rfl⟩

theorem settled_restates (o : FeePlanOptions) : o.settled.Restates o where
  scriptUnitsAllowance := rfl
  scriptEventBytes := rfl
  scriptStorageQuanta := rfl
  witnessCount := rfl
  facts := ⟨id, id, id, id, fun _ => id, fun _ => id, fun _ => id⟩
  infusions := by
    change Option.Rel _ (o.infusions.map _) o.infusions
    rcases o.infusions with - | infusions
    · exact .none
    · exact .some (forall₂_map_held infusions)

/-- A returned asset without a balance row, or a free one, creates one. -/
theorem sum_newRows_held_lt {config : GasConfig} {infusions : List InfusedAsset}
    (h : ∃ asset ∈ infusions, ¬(asset.burnerHoldsToken ∨ config.freeRows asset.tokenId)) :
    ((infusions.map InfusedAsset.held).map (InfusedAsset.newRows config)).sum <
      (infusions.map (InfusedAsset.newRows config)).sum := by
  obtain ⟨asset, hmem, hunsettled⟩ := h
  rw [List.map_map]
  refine List.sum_lt_sum _ _ (fun asset _ => ?_) ⟨asset, hmem, ?_⟩
  · exact InfusedAsset.Restates.newRows_le ⟨rfl, rfl, rfl, fun _ => rfl⟩
  · rw [not_or, Bool.not_eq_true, Bool.not_eq_true] at hunsettled
    simp only [Function.comp_apply, InfusedAsset.newRows, InfusedAsset.instances,
      InfusedAsset.held, factRow, hunsettled]
    exact Nat.add_lt_add_right (by decide) _

/-! ## Restated plans -/

section

variable {msg : TxMsg} {config : GasConfig} {o o' : FeePlanOptions} {parts : List NativeFeePart}
  {size : UInt32} {models models' : List OperationModel} {estimate estimate' : NativeFeeEstimate}

/-- What can be priced can be priced with cheaper facts. -/
theorem NativeFeePart.Fits.restated {infusions infusions' : List InfusedAsset}
    {part : NativeFeePart} (h : (part.attached o infusions).Fits config)
    (hc : o'.facts.Cheaper o.facts) (hb : o.SameBudget o')
    (hassets : List.Forall₂ InfusedAsset.Restates infusions' infusions) :
    (part.attached o' infusions').Fits config := by
  obtain ⟨hadmitted, hrefused, hnew, hdeleted, hresult⟩ := h
  simp only [totalNewRows, totalDeletedRows, newRows_attached, deletedRows_attached,
    resultSize_attached] at hnew hdeleted hresult
  have hassets' : List.Forall₂ InfusedAsset.Restates (part.attached o' infusions').assets
      (part.attached o infusions).assets := by
    obtain ⟨kind, params⟩ := part
    cases kind with
    | burnNonFungible => exact hassets
    | _ => exact .nil
  have hrows : (part.stated o').newRows config ≤ (part.stated o).newRows config :=
    part.newRows_stated_le hc fun _ => hb
  refine ⟨?_, not_refused_of_restates hassets' hrefused, ?_, ?_, ?_⟩
  · obtain ⟨kind, params⟩ := part
    cases kind with
    | mintPhantasmaNonFungible =>
      exact ⟨hadmitted.1, hadmitted.2.1, hadmitted.2.2.1, hadmitted.2.2.2.1, fun hdup =>
        hadmitted.2.2.2.2 (hc.duplicatedSeries hdup)⟩
    | _ => exact hadmitted
  · rw [totalNewRows, newRows_attached]
    exact lt_of_le_of_lt (Nat.add_le_add hrows (sum_newRows_le hassets')) hnew
  · rw [totalDeletedRows, deletedRows_attached, sum_deletedRows_eq hassets']
    exact lt_of_le_of_lt (Nat.add_le_add_right
      (part.deletedRows_stated_le hc.romHasMetaId) _) hdeleted
  · rw [resultSize_attached]
    exact lt_of_le_of_lt (part.resultSize_stated_le hc hb) hresult

/-- A message that has a price has one with its facts restated. -/
theorem Priced.exists_of_restates (h : Priced msg config o parts size models estimate)
    (hrestates : o'.Restates o) :
    ∃ models' estimate', Priced msg config o' parts size models' estimate' := by
  have hfits : List.Forall₂ (fun part part' : NativeFeePart =>
      part.Fits config → part'.Fits config) (attachedAll o (o.infusions.getD []) parts)
      (attachedAll o' (o'.infusions.getD []) parts) :=
    forall₂_attachedAll (r := List.Forall₂ InfusedAsset.Restates) .nil (fun _ _ _ hassets h =>
      h.restated hrestates.facts.cheaper hrestates.toSameBudget hassets) hrestates.assets parts
  have hmodels : ∃ models', List.Forall₂ (fun part model => partModel config part = .ok model)
      (attachedAll o' (o'.infusions.getD []) parts) models' := by
    refine forall₂_of_isOk fun part' hpart' => ?_
    obtain ⟨part, hpart, hfit⟩ := exists_of_forall₂_mem hfits.flip hpart'
    obtain ⟨model, -, hmodel⟩ := exists_of_forall₂_mem (mapM_eq_ok.1 h.priced) hpart
    exact NativeFeePart.exists_partModel_iff_fits.2
      (hfit (NativeFeePart.exists_partModel_iff_fits.1 ⟨model, hmodel⟩))
  obtain ⟨models', hmodels'⟩ := hmodels
  obtain ⟨estimate', hsettled⟩ : ∃ estimate', settle models' config ⟨size, 0⟩ = .ok estimate' :=
    exists_settle_iff.2 (exists_settle_iff.1 ⟨estimate, h.settled⟩)
  exact ⟨models', estimate', h.operations, fun hburn =>
    hrestates.isSome_infusions (h.infusions hburn), hrestates.witnessCount ▸ h.envelope,
    mapM_eq_ok.2 hmodels', hsettled⟩

/-- A message that is planned is planned with its facts restated. -/
theorem exists_planFees_of_restates {plan : FeePlan} (hplan : planFees msg config o = .ok plan)
    (hrestates : o'.Restates o) : ∃ plan', planFees msg config o' = .ok plan' := by
  obtain ⟨hw, parts, size, models, estimate, exact, hpriced, -, -⟩ := planFees_eq_ok.1 hplan
  obtain ⟨models', estimate', hpriced'⟩ := hpriced.exists_of_restates hrestates
  obtain ⟨models₀, estimate₀, hpriced₀⟩ := hpriced'.exists_of_restates (cheapest_restates o')
  have hexact : ∃ exact', isExact msg config o' (parts.map NativeFeePart.kind) ⟨size, 0⟩
      estimate' = .ok exact' := by
    simp only [isExact_eq_ok hpriced']
    by_cases hs : .script ∈ parts.map NativeFeePart.kind
    · exact ⟨false, .inl ⟨hs, rfl⟩⟩
    · exact ⟨decide _, .inr ⟨hs, models₀, estimate₀, hpriced₀, decide_eq_true_iff⟩⟩
  obtain ⟨exact', hexact'⟩ := hexact
  exact ⟨_, planFees_eq_ok.2 ⟨hrestates.witnessCount ▸ hw, parts, size, models', estimate', exact',
    hpriced', hexact', rfl⟩⟩

end

end PhantasmaSdk
