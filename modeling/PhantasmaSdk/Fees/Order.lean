import PhantasmaSdk.Fees.Budget

/-!
# The order of a batch

The calls of a batch are priced one by one and added up, and only the first burn of NFTs
returns what these hold. What is returned and priced is the same whichever burn comes
first (`sums_of_mapM`, `works_of_mapM`), and so is whether a batch can be priced at all,
as long as the rows of no burn leave their type with what is returned added to them
(`exists_mapM_iff`). A batch in another order has the same plan, its kinds in that
order (`planFees_reordered`).
-/

namespace PhantasmaSdk

open Machine Codec CarbonWriter

/-! ## Calls -/

/-- The message with a batch of calls. -/
def TxMsg.withCalls (msg : TxMsg) (calls : List TxMsgCall) : TxMsg :=
  { msg with msg := .callMulti ⟨calls⟩ }

section

variable {msg : TxMsg} {calls calls' : List TxMsgCall}

/-- A batch in another order performs the operations in that order. -/
theorem operations_reordered {parts : List NativeFeePart} (hperm : calls'.Perm calls)
    (h : operations (msg.withCalls calls) = .ok parts) :
    ∃ parts', operations (msg.withCalls calls') = .ok parts' ∧ parts'.Perm parts := by
  obtain ⟨parts', hall', hparts⟩ := List.perm_comp_forall₂ hperm (forall₂_of_describeCalls h)
  exact ⟨parts', (describeCalls_noFacts calls').trans (mapM_eq_ok.2 hall'), hparts⟩

/-- A batch in another order is as long. -/
theorem writeCarbon_reordered {enc : Bytes} (hperm : calls'.Perm calls)
    (h : writeCarbon (msg.withCalls calls) = .ok enc) :
    ∃ enc', writeCarbon (msg.withCalls calls') = .ok enc' ∧ enc'.length = enc.length := by
  obtain ⟨header, inner, hheader, hinner, rfl⟩ := TxMsg.writeCarbon_eq_ok.1 h
  obtain ⟨count, hcount, hinner⟩ := bind_eq_ok.1 hinner
  obtain ⟨encs, hencs, hinner⟩ := bind_eq_ok.1 hinner
  obtain ⟨encs', hencs', hperm'⟩ := List.perm_comp_forall₂ hperm (mapM_eq_ok.1 hencs)
  dsimp only at hcount
  rw [← hperm.length_eq] at hcount
  have hinner' : (TxPayload.callMulti ⟨calls'⟩).writeCarbon =
      .ok (write4 count.toInt32 ++ encs'.flatten) :=
    bind_eq_ok.2 ⟨count, hcount, bind_eq_ok.2 ⟨encs', mapM_eq_ok.2 hencs', rfl⟩⟩
  refine ⟨_, TxMsg.writeCarbon_eq_ok.2 ⟨header, _, hheader, hinner', rfl⟩, ?_⟩
  have hflatten : encs'.flatten.length = encs.flatten.length := by
    rw [List.length_flatten, List.length_flatten]
    exact (hperm'.map List.length).sum_eq
  rw [← Except.ok.inj hinner]
  simp only [List.length_append, hflatten]

/-- A batch in another order has an envelope of the same size. -/
theorem envelopeBytes_reordered {count : Option UInt32} {size : UInt32}
    (hperm : calls'.Perm calls) (h : envelopeBytes (msg.withCalls calls) count = .ok size) :
    envelopeBytes (msg.withCalls calls') count = .ok size := by
  obtain ⟨addresses, haddresses, h⟩ := bind_eq_ok.1 h
  obtain ⟨env, henv, h⟩ := bind_eq_ok.1 h
  obtain ⟨enc, hmsg, henv⟩ := bind_eq_ok.1 henv
  obtain ⟨witnesses, hwitnesses, henv⟩ := bind_eq_ok.1 henv
  obtain ⟨enc', hmsg', hlength⟩ := writeCarbon_reordered hperm hmsg
  have henv' : serialize (⟨msg.withCalls calls', addresses.map placeholder⟩ : SignedTxMsg) =
      .ok (enc' ++ witnesses) := bind_eq_ok.2 ⟨enc', hmsg', bind_eq_ok.2 ⟨witnesses, hwitnesses, rfl⟩⟩
  refine bind_eq_ok.2 ⟨addresses, haddresses, bind_eq_ok.2 ⟨_, henv', ?_⟩⟩
  rw [← h, ← Except.ok.inj henv, List.length_append, List.length_append, hlength]

end

/-! ## Burns -/

section

variable {config : GasConfig} {o : FeePlanOptions} {infusions : List InfusedAsset}
  {parts parts' : List NativeFeePart}

/-- What is returned adds to the rows of no burn so many that these leave their type. -/
def RowsFit (config : GasConfig) (o : FeePlanOptions) (infusions : List InfusedAsset)
    (parts : List NativeFeePart) : Prop :=
  ∀ part ∈ parts, part.kind = .burnNonFungible → ∀ returned,
    returnedAssets { infusions := some infusions } config = .ok returned →
      (part.stated o).newRows config + returned.newQuanta.toNat < 2 ^ 32 ∧
        (part.stated o).deletedRows + returned.deletedQuanta.toNat < 2 ^ 32

theorem RowsFit.perm (h : RowsFit config o infusions parts) (hperm : parts'.Perm parts) :
    RowsFit config o infusions parts' :=
  fun part hmem => h part (hperm.mem_iff.1 hmem)

/-- Rows that fit fit at readings that cost less. -/
theorem RowsFit.cheaper {o' : FeePlanOptions} (h : RowsFit config o infusions parts)
    (hc : o'.facts.Cheaper o.facts) : RowsFit config o' infusions parts := by
  intro part hmem hkind returned hreturned
  obtain ⟨hnew, hdeleted⟩ := h part hmem hkind returned hreturned
  have hnew' : (part.stated o').newRows config ≤ (part.stated o).newRows config :=
    part.newRows_stated_le hc fun hs => by
      rw [hkind] at hs
      cases hs
  have hdeleted' : (part.stated o').deletedRows ≤ (part.stated o).deletedRows :=
    part.deletedRows_stated_le hc.romHasMetaId
  omega

theorem admitted_attached_iff (part : NativeFeePart) :
    (part.attached o infusions).Admitted config ↔ (part.attached o []).Admitted config := by
  obtain ⟨kind, params⟩ := part
  cases kind <;> rfl

/-- A burn can be priced with what it returns iff it can be priced without and what it
    returns can. -/
theorem exists_partModel_iff {part : NativeFeePart} (hkind : part.kind = .burnNonFungible)
    (hfit : ∀ returned, returnedAssets { infusions := some infusions } config = .ok returned →
      (part.stated o).newRows config + returned.newQuanta.toNat < 2 ^ 32 ∧
        (part.stated o).deletedRows + returned.deletedQuanta.toNat < 2 ^ 32) :
    (∃ model, partModel config (part.attached o infusions) = .ok model) ↔
      (∃ model, partModel config (part.attached o []) = .ok model) ∧
        ∃ returned, returnedAssets { infusions := some infusions } config = .ok returned := by
  have hreturnedBy (assets : List InfusedAsset) : (part.attached o assets).returned config =
      returnedAssets { infusions := some assets } config := by
    rw [returned_attached_eq, returnedBy, if_pos (by simp [hkind])]
  -- Sums that fit their words are those of a model.
  have hfits {new deleted : ℕ} (hnew : new < 2 ^ 32) (hdeleted : deleted < 2 ^ 32)
      (work policy : UInt64) (hresult : (part.stated o).resultSize < 2 ^ 32) :
      ∃ model : OperationModel, model.Is work policy (part.stated o).resultSize new deleted := by
    obtain ⟨new, -, rfl⟩ := exists_word32 hnew
    obtain ⟨deleted, -, rfl⟩ := exists_word32 hdeleted
    obtain ⟨result, -, hresult⟩ := exists_word32 hresult
    exact ⟨⟨work, policy, result, new, deleted⟩, rfl, rfl, hresult, rfl, rfl⟩
  constructor
  · rintro ⟨model, hmodel⟩
    obtain ⟨hadmitted, returned, hreturned, hmodel⟩ := partModel_eq_ok.1 hmodel
    rw [hreturnedBy] at hreturned
    -- Without what it returns the burn has fewer rows.
    obtain ⟨hnew, hdeleted⟩ := hfit returned hreturned
    have hresult := model.resultBytes.toNat_lt
    rw [hmodel.resultBytes, resultSize_attached] at hresult
    have hnew' : (part.stated o).newRows config < 2 ^ 32 := by omega
    have hdeleted' : (part.stated o).deletedRows < 2 ^ 32 := by omega
    obtain ⟨model', hmodel'⟩ := hfits hnew' hdeleted'
      ((part.attached o []).work config {}) ((part.attached o []).policy config) hresult
    refine ⟨⟨model', partModel_eq_ok.2 ⟨(admitted_attached_iff part).1 hadmitted, {},
      hreturnedBy [], ?_⟩⟩, returned, hreturned⟩
    rwa [newRows_attached, deletedRows_attached, resultSize_attached]
  · rintro ⟨⟨model, hmodel⟩, returned, hreturned⟩
    obtain ⟨hadmitted, _, -, hmodel⟩ := partModel_eq_ok.1 hmodel
    -- With it, `hfit` says that they still fit.
    obtain ⟨hnew, hdeleted⟩ := hfit returned hreturned
    have hresult := model.resultBytes.toNat_lt
    rw [hmodel.resultBytes, resultSize_attached] at hresult
    obtain ⟨model', hmodel'⟩ := hfits hnew hdeleted ((part.attached o infusions).work config returned)
      ((part.attached o infusions).policy config) hresult
    refine ⟨model', partModel_eq_ok.2 ⟨(admitted_attached_iff part).2 hadmitted, returned,
      (hreturnedBy infusions).trans hreturned, ?_⟩⟩
    rwa [newRows_attached, deletedRows_attached, resultSize_attached]

theorem exists_mapM_iff_forall {α β : Type} {f : α → Result β} {as : List α} :
    (∃ bs, as.mapM f = .ok bs) ↔ ∀ a ∈ as, ∃ b, f a = .ok b := by
  simp only [mapM_eq_ok]
  constructor
  · rintro ⟨bs, hall⟩ a ha
    obtain ⟨b, -, hb⟩ := exists_of_forall₂_mem hall ha
    exact ⟨b, hb⟩
  · exact forall₂_of_isOk

theorem attachedAll_nil (parts : List NativeFeePart) :
    attachedAll o [] parts = parts.map (NativeFeePart.attached o []) := by
  induction parts with
  | nil => rfl
  | cons part parts ih => rw [attachedAll, ite_self, ih, List.map_cons]

/-- A batch can be priced iff each of its operations can be, returning nothing, and what
    it returns can be. -/
theorem exists_mapM_iff (hfit : RowsFit config o infusions parts) :
    (∃ models, (attachedAll o infusions parts).mapM (partModel config) = .ok models) ↔
      (∀ part ∈ parts, ∃ model, partModel config (part.attached o []) = .ok model) ∧
        ∃ returned, returnedBy config infusions parts = .ok returned := by
  induction parts with
  | nil => exact ⟨fun _ => ⟨by simp, {}, rfl⟩, fun _ => ⟨[], rfl⟩⟩
  | cons part parts ih =>
    rw [exists_mapM_iff_forall, attachedAll, List.forall_mem_cons, List.forall_mem_cons]
    by_cases hkind : part.kind = .burnNonFungible
    · -- The first burn: those after it return nothing.
      rw [if_pos hkind, attachedAll_nil, List.forall_mem_map,
        exists_partModel_iff hkind (hfit part List.mem_cons_self hkind), returnedBy_cons_burn hkind,
        returnedBy, if_pos (by simp [hkind]), and_right_comm]
    · rw [if_neg hkind, ← exists_mapM_iff_forall,
        ih fun part' hmem => hfit part' (List.mem_cons_of_mem _ hmem), returnedBy_cons hkind,
        NativeFeePart.attached, NativeFeePart.attached, if_neg hkind, if_neg hkind, and_assoc]

theorem returnedBy_perm (hperm : parts'.Perm parts) :
    returnedBy config infusions parts' = returnedBy config infusions parts := by
  unfold returnedBy
  simp only [(hperm.map NativeFeePart.kind).mem_iff]

/-- Whether a batch can be priced is not a matter of its order. -/
theorem exists_mapM_reordered (hperm : parts'.Perm parts) (hfit : RowsFit config o infusions parts)
    {models : List OperationModel}
    (h : (attachedAll o infusions parts).mapM (partModel config) = .ok models) :
    ∃ models', (attachedAll o infusions parts').mapM (partModel config) = .ok models' := by
  obtain ⟨hparts, hreturned⟩ := (exists_mapM_iff hfit).1 ⟨models, h⟩
  rw [exists_mapM_iff (hfit.perm hperm), returnedBy_perm hperm]
  exact ⟨fun part hmem => hparts part (hperm.mem_iff.1 hmem), hreturned⟩

/-- The work of an operation, that of returning what it returns apart. -/
theorem toNat_work (part : NativeFeePart) (returned : OperationModel)
    (h : part.kind ≠ .burnNonFungible → returned = {}) : (part.work config returned).toNat =
      min ((part.work config {}).toNat + returned.workUnits.toNat) (2 ^ 64 - 1) := by
  rw [← toNat_satAdd64]
  obtain ⟨kind, params⟩ := part
  by_cases hkind : kind = .burnNonFungible
  · subst hkind
    simp only [NativeFeePart.work, satAdd64_zero]
  · rw [h hkind, satAdd64_zero]

/-- The work and the policy fees of a batch are those of its parts, and the work of
    what is returned. -/
theorem works_of_mapM {models : List OperationModel}
    (hm : (attachedAll o infusions parts).mapM (partModel config) = .ok models) :
    ∃ returned, returnedBy config infusions parts = .ok returned ∧
      min (models.map fun model => model.workUnits.toNat).sum (2 ^ 64 - 1) =
        min ((parts.map fun part => ((part.stated o).work config {}).toNat).sum +
          returned.workUnits.toNat) (2 ^ 64 - 1) ∧
      (models.map fun model => model.policyFee.toNat).sum =
        (parts.map fun part => ((part.stated o).policy config).toNat).sum := by
  induction parts generalizing infusions models with
  | nil =>
    rw [← Except.ok.inj hm]
    exact ⟨{}, rfl, rfl, rfl⟩
  | cons part parts ih =>
    rw [attachedAll, List.mapM_cons, bind_eq_ok] at hm
    obtain ⟨model, hmodel, hm⟩ := hm
    obtain ⟨rest, hrest, hm⟩ := bind_eq_ok.1 hm
    rw [← Except.ok.inj hm]
    obtain ⟨-, returned, hreturned, hmodel⟩ := partModel_eq_ok.1 hmodel
    rw [work_attached, policy_attached] at hmodel
    rw [returned_attached_eq] at hreturned
    obtain ⟨returned', hreturned', hwork, hpolicy⟩ := ih hrest
    have hnone : part.kind ≠ .burnNonFungible → returned = {} := fun hkind => by
      rw [returnedBy, if_neg (by simp [Ne.symm hkind])] at hreturned
      exact (Except.ok.inj hreturned).symm
    -- The work saturates, so that it is compared below the greatest word only.
    have hpart : ((part.stated o).work config returned).toNat =
        min (((part.stated o).work config {}).toNat + returned.workUnits.toNat) (2 ^ 64 - 1) :=
      toNat_work (part.stated o) returned fun hkind =>
        hnone (by rwa [NativeFeePart.kind_stated] at hkind)
    simp only [List.map_cons, List.sum_cons, hmodel.workUnits, hmodel.policyFee, hpart, hpolicy]
    by_cases hkind : part.kind = .burnNonFungible
    · -- The parts after the first burn return nothing.
      rw [if_pos hkind, returnedBy_nil] at hreturned'
      rw [← Except.ok.inj hreturned', UInt64.toNat_zero] at hwork
      rw [returnedBy_cons_burn hkind]
      exact ⟨returned, hreturned, by omega, trivial⟩
    · rw [if_neg hkind] at hreturned'
      rw [hnone hkind, UInt64.toNat_zero, returnedBy_cons hkind]
      exact ⟨returned', hreturned', by omega, trivial⟩

/-- A batch in another order has the same totals. -/
theorem total_reordered {models models' : List OperationModel} (hperm : parts'.Perm parts)
    (h : (attachedAll o infusions parts).mapM (partModel config) = .ok models)
    (h' : (attachedAll o infusions parts').mapM (partModel config) = .ok models') :
    OperationModel.total models' = OperationModel.total models := by
  obtain ⟨returned, hreturned, hresult, hnew, hdeleted⟩ := sums_of_mapM h
  obtain ⟨returned', hreturned', hresult', hnew', hdeleted'⟩ := sums_of_mapM h'
  obtain ⟨_, hworked, hwork, hpolicy⟩ := works_of_mapM h
  obtain ⟨_, hworked', hwork', hpolicy'⟩ := works_of_mapM h'
  -- Both orders return the same, so that each total is the same sum in another order.
  obtain rfl := Except.ok.inj (hreturned.symm.trans hworked)
  obtain rfl := Except.ok.inj (hreturned'.symm.trans hworked')
  rw [returnedBy_perm hperm, hreturned] at hreturned'
  obtain rfl := Except.ok.inj hreturned'
  rw [(hperm.map _).sum_eq] at hresult' hnew' hdeleted' hwork' hpolicy'
  have hfields (a b : OperationModel) (hw : a.workUnits.toNat = b.workUnits.toNat)
      (hp : a.policyFee.toNat = b.policyFee.toNat)
      (hr : a.resultBytes.toNat = b.resultBytes.toNat)
      (hn : a.newQuanta.toNat = b.newQuanta.toNat)
      (hd : a.deletedQuanta.toNat = b.deletedQuanta.toNat) : a = b := by
    obtain ⟨aw, ap, ar, an, ad⟩ := a
    obtain ⟨bw, bp, br, bn, bd⟩ := b
    rw [UInt64.toNat_inj] at hw hp
    rw [UInt32.toNat_inj] at hr hn hd
    exact OperationModel.mk.injEq _ _ _ _ _ _ _ _ _ _ ▸ ⟨hw, hp, hr, hn, hd⟩
  refine hfields _ _ ?_ ?_ ?_ ?_ ?_
  · rw [OperationModel.toNat_workUnits_total, OperationModel.toNat_workUnits_total, hwork, hwork']
  · rw [OperationModel.toNat_policyFee_total, OperationModel.toNat_policyFee_total, hpolicy,
      hpolicy']
  · rw [OperationModel.toNat_resultBytes_total, OperationModel.toNat_resultBytes_total, hresult,
      hresult']
  · rw [OperationModel.toNat_newQuanta_total, OperationModel.toNat_newQuanta_total, hnew, hnew']
  · rw [OperationModel.toNat_deletedQuanta_total, OperationModel.toNat_deletedQuanta_total,
      hdeleted, hdeleted']

/-- A batch is settled by its totals. -/
theorem settle_eq_of_total {models models' : List OperationModel}
    (h : OperationModel.total models' = OperationModel.total models)
    (transaction : NativeFeeTransactionParams) :
    settle models' config transaction = settle models config transaction := by
  unfold OperationModel.total at h
  rw [settle, settle, h]

end

/-! ## Plans -/

theorem Facts.restates_refl (f : Facts) : f.Restates f :=
  ⟨id, id, id, id, fun _ => id, fun _ => id, fun _ => id⟩

section

variable {msg : TxMsg} {config : GasConfig} {o : FeePlanOptions} {calls calls' : List TxMsgCall}

/-- A batch in another order has the same price. -/
theorem exists_priced_reordered {parts parts' : List NativeFeePart} {size : UInt32}
    {models : List OperationModel} {estimate : NativeFeeEstimate} (hperm : calls'.Perm calls)
    (hparts : operations (msg.withCalls calls') = .ok parts') (hparts' : parts'.Perm parts)
    (hfit : RowsFit config o (o.infusions.getD []) parts)
    (h : Priced (msg.withCalls calls) config o parts size models estimate) :
    ∃ models', Priced (msg.withCalls calls') config o parts' size models' estimate := by
  obtain ⟨models', hmodels'⟩ := exists_mapM_reordered hparts' hfit h.priced
  refine ⟨models', hparts, fun hburn => ?_, envelopeBytes_reordered hperm h.envelope, hmodels', ?_⟩
  · exact h.infusions ((hparts'.map NativeFeePart.kind).mem_iff.1 hburn)
  · rw [settle_eq_of_total (total_reordered hparts' h.priced hmodels'), h.settled]

/-- The same plan, its kinds in another order. -/
structure FeePlan.Reorders (plan' plan : FeePlan) : Prop where
  kinds : plan'.kinds.Perm plan.kinds
  rest : plan' = { plan with kinds := plan'.kinds }

theorem exists_plan_reordered {plan : FeePlan} (hperm : calls'.Perm calls)
    (hfit : ∀ parts, operations (msg.withCalls calls) = .ok parts →
      RowsFit config o (o.infusions.getD []) parts)
    (h : planFees (msg.withCalls calls) config o = .ok plan) :
    ∃ plan', planFees (msg.withCalls calls') config o = .ok plan' ∧ plan'.Reorders plan := by
  obtain ⟨hw, parts, size, models, estimate, exact, hpriced, hexact, rfl⟩ := planFees_eq_ok.1 h
  have hfits := hfit parts hpriced.operations
  obtain ⟨parts', hoperations, hparts'⟩ := operations_reordered hperm hpriced.operations
  have hkinds := hparts'.map NativeFeePart.kind
  obtain ⟨models', hpriced'⟩ := exists_priced_reordered hperm hoperations hparts' hfits hpriced
  have hexact' : isExact (msg.withCalls calls') config o (parts'.map NativeFeePart.kind) ⟨size, 0⟩
      estimate = .ok exact := by
    rw [isExact_eq_ok hpriced']
    rw [isExact_eq_ok hpriced] at hexact
    refine hexact.imp (fun ⟨hs, hfalse⟩ => ⟨hkinds.mem_iff.2 hs, hfalse⟩) ?_
    rintro ⟨hs, models₀, estimate₀, hpriced₀, hiff⟩
    -- A plan is exact by comparison with the cheapest facts, which reorder in the same way.
    have hcheaper : o.cheapest.facts.Cheaper o.facts :=
      (Facts.restates_refl o.facts).cheapest_cheaper
    obtain ⟨models₀', hpriced₀'⟩ := exists_priced_reordered (o := o.cheapest) hperm hoperations
      hparts' (hfits.cheaper hcheaper) hpriced₀
    exact ⟨fun hs' => hs (hkinds.mem_iff.1 hs'), models₀', estimate₀, hpriced₀', hiff⟩
  exact ⟨_, planFees_eq_ok.2 ⟨hw, parts', size, models', estimate, exact, hpriced', hexact', rfl⟩,
    hkinds, rfl⟩

/-- What the burns among some parts return, each in turn. -/
def returnedOf (parts : List NativeFeePart) : List (Option (List InfusedAsset)) :=
  (parts.filter (·.kind = .burnNonFungible)).map (·.params.infusions)

theorem kind_attached (infusions : List InfusedAsset) (part : NativeFeePart) :
    (part.attached o infusions).kind = part.kind := by
  rw [NativeFeePart.attached]
  split
  · rw [NativeFeePart.kind_returning, NativeFeePart.kind_stated]
  · exact NativeFeePart.kind_stated o part

theorem returnedOf_cons_burn {part : NativeFeePart} {parts : List NativeFeePart}
    {infusions : List InfusedAsset} (hkind : part.kind = .burnNonFungible) :
    returnedOf (part.attached o infusions :: parts) = some infusions :: returnedOf parts := by
  have hattached : (part.attached o infusions).kind = .burnNonFungible :=
    (kind_attached infusions part).trans hkind
  rw [returnedOf, List.filter_cons_of_pos (by simpa using hattached), List.map_cons,
    NativeFeePart.attached, if_pos hkind]
  rfl

theorem returnedOf_cons {part : NativeFeePart} {parts : List NativeFeePart}
    {infusions : List InfusedAsset} (hkind : part.kind ≠ .burnNonFungible) :
    returnedOf (part.attached o infusions :: parts) = returnedOf parts := by
  have hattached : (part.attached o infusions).kind ≠ .burnNonFungible :=
    (kind_attached infusions part).trans_ne hkind
  rw [returnedOf, List.filter_cons_of_neg (by simpa using hattached), returnedOf]

theorem returnedOf_attachedAll_nil (parts : List NativeFeePart) :
    ∃ others, returnedOf (attachedAll o [] parts) = List.replicate others (some []) := by
  induction parts with
  | nil => exact ⟨0, rfl⟩
  | cons part parts ih =>
    obtain ⟨others, hothers⟩ := ih
    rw [attachedAll, ite_self]
    by_cases hkind : part.kind = .burnNonFungible
    · exact ⟨others + 1, by rw [returnedOf_cons_burn hkind, hothers, List.replicate_succ]⟩
    · exact ⟨others, by rw [returnedOf_cons hkind, hothers]⟩

/-- The first burn returns what there is, and the others nothing. -/
theorem returnedOf_attachedAll {parts : List NativeFeePart} {infusions : List InfusedAsset}
    (hburn : .burnNonFungible ∈ parts.map NativeFeePart.kind) :
    ∃ others, returnedOf (attachedAll o infusions parts) =
      some infusions :: List.replicate others (some []) := by
  induction parts with
  | nil => cases hburn
  | cons part parts ih =>
    rw [attachedAll]
    by_cases hkind : part.kind = .burnNonFungible
    · obtain ⟨others, hothers⟩ := returnedOf_attachedAll_nil (o := o) parts
      exact ⟨others, by rw [if_pos hkind, returnedOf_cons_burn hkind, hothers]⟩
    · obtain ⟨others, hothers⟩ := ih ((List.mem_cons.1 hburn).resolve_left (Ne.symm hkind))
      exact ⟨others, by rw [if_neg hkind, returnedOf_cons hkind, hothers]⟩

/-- The order of a batch does not matter: it can be planned in one order iff it can be in
    the other, the plans are the same but for the order of the kinds, and what its NFTs
    hold is returned by one burn, if there is any. -/
theorem planFees_reordered (msg : TxMsg) (calls calls' : List TxMsgCall)
    (hperm : calls'.Perm calls) (config : GasConfig) (o : FeePlanOptions)
    (hfit : ∀ parts, operations (msg.withCalls calls) = .ok parts →
      RowsFit config o (o.infusions.getD []) parts) :
    ((∃ plan, planFees (msg.withCalls calls) config o = .ok plan) ↔
      ∃ plan, planFees (msg.withCalls calls') config o = .ok plan) ∧
    (∀ plan plan', planFees (msg.withCalls calls) config o = .ok plan →
      planFees (msg.withCalls calls') config o = .ok plan' → plan'.Reorders plan) ∧
    ∀ parts, describe (msg.withCalls calls') o = .ok parts →
      .burnNonFungible ∈ parts.map NativeFeePart.kind →
        ∃ others, returnedOf parts = o.infusions :: List.replicate others (some []) := by
  have hfit' : ∀ parts, operations (msg.withCalls calls') = .ok parts →
      RowsFit config o (o.infusions.getD []) parts := by
    intro parts' hparts'
    obtain ⟨parts, hparts, hreordered⟩ := operations_reordered hperm.symm hparts'
    exact (hfit parts hparts).perm hreordered.symm
  refine ⟨⟨?_, ?_⟩, ?_, ?_⟩
  · rintro ⟨plan, hplan⟩
    obtain ⟨plan', hplan', -⟩ := exists_plan_reordered hperm hfit hplan
    exact ⟨plan', hplan'⟩
  · rintro ⟨plan, hplan⟩
    obtain ⟨plan', hplan', -⟩ := exists_plan_reordered hperm.symm hfit' hplan
    exact ⟨plan', hplan'⟩
  · intro plan plan' hplan hplan'
    obtain ⟨plan'', hplan'', hreorders⟩ := exists_plan_reordered hperm hfit hplan
    rw [hplan'] at hplan''
    exact Except.ok.inj hplan'' ▸ hreorders
  · intro parts hparts hburn
    obtain ⟨parts₀, -, hattach⟩ := describe_eq_ok.1 hparts
    rw [kinds_of_attachAll hattach] at hburn
    obtain ⟨hsome, rfl⟩ := attachAll_eq_ok.1 hattach
    obtain ⟨infusions, hinfusions⟩ := Option.isSome_iff_exists.1 (hsome hburn)
    rw [hinfusions]
    exact returnedOf_attachedAll hburn

end

/-- Burns of one NFT and of two. -/
def burnCalls : List TxMsgCall :=
  [1, 2].map fun count => {
    moduleId := ModuleId.token, methodId := TokenContractMethod.burnNonFungible,
    args := List.replicate 40 0 ++ [count, 0, 0, 0] ++ List.replicate (8 * count.toNat) 0,
    sections := none }

/-- A batch, of no calls so far. -/
def emptyBatch : TxMsg where
  txType := .callMulti
  expiry := 0
  maxGas := 0
  maxData := 0
  gasFrom := emptyBytes32
  payload := ⟨""⟩
  msg := .callMulti ⟨[]⟩

/-- One asset is returned. -/
def returningOne : FeePlanOptions := { infusions := some [{}], witnessCount := some 1 }

/-- The plan of the two burns the other way round. -/
theorem planFees_reordered_burns : ∃ plan plan',
    planFees (emptyBatch.withCalls burnCalls) {} returningOne = .ok plan ∧
      planFees (emptyBatch.withCalls burnCalls.reverse) {} returningOne = .ok plan' ∧
        plan'.Reorders plan := by
  have hfits : ((operations (emptyBatch.withCalls burnCalls)).toOption.all fun parts =>
      parts.all fun part => (part.stated returningOne).newRows {} < 4 ∧
        (part.stated returningOne).deletedRows < 9) = true := by decide +kernel
  have hfit : ∀ parts, operations (emptyBatch.withCalls burnCalls) = .ok parts →
      RowsFit {} returningOne [{}] parts := by
    intro parts hparts part hmem hkind returned hreturned
    -- The rows of both burns are small numbers, evaluated in `hfits`.
    rw [hparts] at hfits
    have hrows := List.all_eq_true.1 hfits part hmem
    rw [decide_eq_true_iff] at hrows
    have hone : returnedAssets { infusions := some [{}] } {} =
        .ok { newQuanta := 1, deletedQuanta := 1 } := by decide
    obtain rfl := Except.ok.inj (hone.symm.trans hreturned)
    exact ⟨by simp only [UInt32.reduceToNat]; omega, by simp only [UInt32.reduceToNat]; omega⟩
  obtain ⟨hplans, hsame, -⟩ := planFees_reordered emptyBatch burnCalls burnCalls.reverse
    burnCalls.reverse_perm {} returningOne hfit
  have hsome : (planFees (emptyBatch.withCalls burnCalls) {} returningOne).toOption.isSome := by
    decide +kernel
  obtain ⟨plan, hplan⟩ := exists_ok_of_isSome hsome
  obtain ⟨plan', hplan'⟩ := hplans.1 ⟨plan, hplan⟩
  exact ⟨plan, plan', hplan, hplan', hsame plan plan' hplan hplan'⟩

end PhantasmaSdk
