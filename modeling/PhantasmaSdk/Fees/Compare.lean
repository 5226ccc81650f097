import PhantasmaSdk.Fees.Settle

/-!
# Two plans of one message

Facts that read cheaper cost no more, operation by operation: no more rows are created,
no more bytes are returned and no more work is done (`NativeFeePart.Le`). Only the rows
that burns delete go the other way, since what is deleted offsets what is created. So a
plan with the cheaper facts costs no more as long as nothing is burned
(`estimate_le_estimate`).
-/

namespace PhantasmaSdk

open Machine

/-! ## Parts -/

section

variable {config : GasConfig} {o o' : FeePlanOptions}

/-- The options agree in what is not a fact. -/
structure FeePlanOptions.SameBudget (o o' : FeePlanOptions) : Prop where
  scriptUnitsAllowance : o'.scriptUnitsAllowance = o.scriptUnitsAllowance
  scriptEventBytes : o'.scriptEventBytes = o.scriptEventBytes
  scriptStorageQuanta : o'.scriptStorageQuanta = o.scriptStorageQuanta

namespace NativeFeePart

variable (part : NativeFeePart)

@[simp] theorem tokenId_stated (h : part.kind ≠ .script) :
    (part.stated o).params.tokenId = part.params.tokenId := by
  obtain ⟨kind, params⟩ := part
  cases kind <;> first | rfl | exact absurd rfl h

theorem toNat_le_toNat_of_imp {a b : Bool} (h : a → b) : a.toNat ≤ b.toNat := by
  cases a <;> cases b <;> simp_all

theorem ite_le_ite_of_imp {c c' : Bool} (h : c' → c) {a b : UInt64} (hle : b ≤ a) :
    (if c' then a else b) ≤ if c then a else b := by
  cases c <;> cases c' <;> simp_all

theorem factRow_le_factRow {known known' : Bool} (h : known → known') (free : Bool) :
    factRow known' free ≤ factRow known free := by
  cases known <;> cases known' <;> cases free <;> simp_all [factRow]

theorem instanceQuanta_le_instanceQuanta {stored ram metaId metaId' : ℕ} (h : metaId' ≤ metaId) :
    instanceQuanta stored ram metaId' ≤ instanceQuanta stored ram metaId :=
  Nat.add_le_add_left h _

/-- Facts that read cheaper create no more rows. -/
theorem newRows_stated_le (h : o'.facts.Cheaper o.facts)
    (hb : part.kind = .script → o.SameBudget o') :
    (part.stated o').newRows config ≤ (part.stated o).newRows config := by
  have hrecipient := factRow_le_factRow h.recipientHoldsToken (config.freeRows part.params.tokenId)
  have hburnt := factRow_le_factRow h.tokenBurnedBefore (config.freeRows part.params.tokenId)
  have hsupply := factRow_le_factRow h.supplyRowExists (config.freeRows part.params.tokenId)
  obtain ⟨kind, params⟩ := part
  cases kind with
  | createToken | registerName => exact le_rfl
  | transferFungible => exact hrecipient
  | transferNonFungible => exact Nat.add_le_add_left hrecipient _
  | mintFungible => exact Nat.add_le_add hrecipient hsupply
  | burnFungible | burnNonFungible => exact Nat.add_le_add hburnt hsupply
  | mintNonFungible =>
    refine Nat.add_le_add (Nat.add_le_add hrecipient hsupply) (List.sum_le_sum fun size _ => ?_)
    exact instanceQuanta_le_instanceQuanta (toNat_le_toNat_of_imp h.romHasMetaId)
  | mintPhantasmaNonFungible => exact Nat.add_le_add_right (Nat.add_le_add hrecipient hsupply) _
  | createTokenSeries => exact Nat.add_le_add_left (toNat_le_toNat_of_imp h.seriesHasMetaId) _
  | script =>
    simp only [stated, scriptPart, newRows, (hb rfl).scriptStorageQuanta]
    exact le_rfl

theorem resultSize_stated_le (h : o'.facts.Cheaper o.facts) (hb : o.SameBudget o') :
    (part.stated o').resultSize ≤ (part.stated o).resultSize := by
  have hbig : (if o'.bigFungible.getD true then 33 else 9) ≤
      if o.bigFungible.getD true then 33 else 9 := by
    have := h.bigFungible
    simp only [FeePlanOptions.facts] at this
    split <;> split <;> simp_all
  obtain ⟨kind, params⟩ := part
  cases kind with
  | mintFungible | burnFungible => exact hbig
  | script =>
    simp only [stated, scriptPart, resultSize, hb.scriptEventBytes]
    exact le_rfl
  | _ => exact le_rfl

theorem work_stated_le (h : o'.facts.Cheaper o.facts) (hb : o.SameBudget o')
    (returned : OperationModel) :
    (part.stated o').work config returned ≤ (part.stated o).work config returned := by
  obtain ⟨kind, params⟩ := part
  cases kind with
  | script =>
    simp only [stated, scriptPart, work, hb.scriptUnitsAllowance]
    exact UInt64.le_refl _
  | mintPhantasmaNonFungible =>
    have hdup := h.duplicatedSeries
    simp only [FeePlanOptions.facts] at hdup
    simp only [stated, work]
    refine satAdd64_le_satAdd64 (satAdd64_le_satAdd64 (satMul64_le_satMul64
      (satAdd64_le_satAdd64 (UInt64.le_refl _) (satMul64_le_satMul64 (UInt64.le_refl _) ?_))
      (UInt64.le_refl _)) (satMul64_le_satMul64 (UInt64.le_refl _) ?_)) (UInt64.le_refl _)
    · exact ite_le_ite_of_imp hdup (by decide)
    · exact ite_le_ite_of_imp hdup (UInt64.le_iff_toNat_le.2 (Nat.zero_le _))
  | _ => exact UInt64.le_refl _

theorem policy_stated : (part.stated o').policy config = (part.stated o).policy config := by
  obtain ⟨kind, params⟩ := part
  cases kind <;> rfl

/-- Only burns delete rows by what is stated. -/
theorem deletedRows_stated (h : part.kind ≠ .burnNonFungible) :
    (part.stated o).deletedRows = part.deletedRows := by
  obtain ⟨kind, params⟩ := part
  cases kind <;> first | rfl | exact absurd rfl h

/-- Burns delete a row more of each instance with a meta id. -/
theorem deletedRows_stated_le (h : o'.romHasMetaId.getD true → o.romHasMetaId.getD true) :
    (part.stated o').deletedRows ≤ (part.stated o).deletedRows := by
  obtain ⟨kind, params⟩ := part
  cases kind with
  | burnNonFungible =>
    refine List.sum_le_sum fun size _ => ?_
    exact instanceQuanta_le_instanceQuanta (toNat_le_toNat_of_imp h)
  | _ => exact le_rfl

end NativeFeePart

end

/-! ## Batches -/

/-- The part as the options have it, returning some assets if it burns NFTs. -/
def NativeFeePart.attached (o : FeePlanOptions) (infusions : List InfusedAsset)
    (part : NativeFeePart) : NativeFeePart :=
  if part.kind = .burnNonFungible then (part.stated o).returning infusions else part.stated o

/-- The parts as the options have them, the first burn returning some assets. -/
def attachedAll (o : FeePlanOptions) :
    List InfusedAsset → List NativeFeePart → List NativeFeePart
  | _, [] => []
  | infusions, part :: parts =>
    part.attached o infusions ::
      attachedAll o (if part.kind = .burnNonFungible then [] else infusions) parts

theorem attach_eq_ok_iff {o : FeePlanOptions} {infusions : Option (List InfusedAsset)}
    {part part' : NativeFeePart} : part.attach o infusions = .ok part' ↔
      (part.kind = .burnNonFungible → infusions.isSome) ∧
        part' = part.attached o (infusions.getD []) := by
  unfold NativeFeePart.attach NativeFeePart.attached
  by_cases hkind : part.kind = .burnNonFungible
  · rw [if_pos hkind, if_pos hkind]
    cases infusions with
    | none => exact ⟨nofun, fun h => absurd (h.1 hkind) (by simp)⟩
    | some infusions =>
      exact ⟨fun h => ⟨fun _ => rfl, (Except.ok.inj h).symm⟩, fun h => congrArg Except.ok h.2.symm⟩
  · rw [if_neg hkind, if_neg hkind]
    exact ⟨fun h => ⟨fun h' => absurd h' hkind, (Except.ok.inj h).symm⟩,
      fun h => congrArg Except.ok h.2.symm⟩

theorem attachAll_eq_ok {o : FeePlanOptions} {infusions : Option (List InfusedAsset)}
    {parts parts' : List NativeFeePart} : attachAll o infusions parts = .ok parts' ↔
      (.burnNonFungible ∈ parts.map NativeFeePart.kind → infusions.isSome) ∧
        parts' = attachedAll o (infusions.getD []) parts := by
  induction parts generalizing infusions parts' with
  | nil =>
    exact ⟨fun h => ⟨fun h' => absurd h' List.not_mem_nil, (Except.ok.inj h).symm⟩,
      fun h => congrArg Except.ok h.2.symm⟩
  | cons part parts ih =>
    rw [attachAll, bind_eq_ok]
    simp only [attach_eq_ok_iff, bind_eq_ok, ih, pure_eq_ok, Except.ok.injEq, attachedAll,
      List.map_cons, List.mem_cons]
    by_cases hkind : part.kind = .burnNonFungible
    · simp only [if_pos hkind, Option.isSome_some, Option.getD_some]
      constructor
      · rintro ⟨_, ⟨hsome, rfl⟩, _, ⟨-, rfl⟩, rfl⟩
        exact ⟨fun _ => hsome hkind, rfl⟩
      · rintro ⟨hsome, rfl⟩
        exact ⟨_, ⟨fun _ => hsome (Or.inl hkind.symm), rfl⟩, _, ⟨fun _ => trivial, rfl⟩, rfl⟩
    · simp only [if_neg hkind]
      constructor
      · rintro ⟨_, ⟨-, rfl⟩, _, ⟨hsome, rfl⟩, rfl⟩
        exact ⟨fun h => hsome (h.resolve_left (Ne.symm hkind)), rfl⟩
      · rintro ⟨hsome, rfl⟩
        exact ⟨_, ⟨fun h => absurd h hkind, rfl⟩, _, ⟨fun h => hsome (Or.inr h), rfl⟩, rfl⟩

section

variable {config : GasConfig} {o o' : FeePlanOptions} {infusions infusions' : List InfusedAsset}
  {part : NativeFeePart}

@[simp] theorem newRows_attached :
    (part.attached o infusions).newRows config = (part.stated o).newRows config := by
  rw [NativeFeePart.attached]
  split <;> rfl

@[simp] theorem deletedRows_attached :
    (part.attached o infusions).deletedRows = (part.stated o).deletedRows := by
  rw [NativeFeePart.attached]
  split <;> rfl

@[simp] theorem resultSize_attached :
    (part.attached o infusions).resultSize = (part.stated o).resultSize := by
  rw [NativeFeePart.attached]
  split <;> rfl

@[simp] theorem work_attached (returned : OperationModel) :
    (part.attached o infusions).work config returned = (part.stated o).work config returned := by
  rw [NativeFeePart.attached]
  split <;> rfl

@[simp] theorem policy_attached :
    (part.attached o infusions).policy config = (part.stated o).policy config := by
  rw [NativeFeePart.attached]
  split <;> rfl

/-- What is returned is not a matter of the facts, and only burns return anything. -/
theorem returned_attached (h : part.kind = .burnNonFungible → infusions' = infusions) :
    (part.attached o' infusions').returned config =
      (part.attached o infusions).returned config := by
  unfold NativeFeePart.attached NativeFeePart.returned
  by_cases hkind : part.kind = .burnNonFungible
  · rw [if_pos hkind, if_pos hkind, h hkind]
    simp only [NativeFeePart.kind_returning, NativeFeePart.kind_stated, if_pos hkind]
    rfl
  · simp [hkind]

/-- One operation costs no more than the other, the rows that it deletes apart. -/
structure OperationModel.Cheaper (model' model : OperationModel) : Prop where
  workUnits : model'.workUnits.toNat ≤ model.workUnits.toNat
  policyFee : model'.policyFee.toNat = model.policyFee.toNat
  resultBytes : model'.resultBytes.toNat ≤ model.resultBytes.toNat
  newQuanta : model'.newQuanta.toNat ≤ model.newQuanta.toNat

/-- An operation with facts that read cheaper costs no more. -/
theorem cheaper_of_partModel {model model' : OperationModel} (h : o'.facts.Cheaper o.facts)
    (hb : o.SameBudget o') (hi : part.kind = .burnNonFungible → infusions' = infusions)
    (hm : partModel config (part.attached o infusions) = .ok model)
    (hm' : partModel config (part.attached o' infusions') = .ok model') :
    model'.Cheaper model ∧ (part.kind ≠ .burnNonFungible →
      model'.deletedQuanta.toNat = model.deletedQuanta.toNat) := by
  obtain ⟨-, returned, hreturned, hm⟩ := partModel_eq_ok.1 hm
  obtain ⟨-, returned', hreturned', hm'⟩ := partModel_eq_ok.1 hm'
  rw [returned_attached hi, hreturned] at hreturned'
  obtain rfl := Except.ok.inj hreturned'
  simp only [newRows_attached, deletedRows_attached, resultSize_attached, work_attached,
    policy_attached] at hm hm'
  refine ⟨⟨?_, ?_, ?_, ?_⟩, fun hkind => ?_⟩
  · rw [hm.workUnits, hm'.workUnits, ← UInt64.le_iff_toNat_le]
    exact part.work_stated_le h hb returned
  · rw [hm.policyFee, hm'.policyFee, part.policy_stated]
  · rw [hm.resultBytes, hm'.resultBytes]
    exact part.resultSize_stated_le h hb
  · rw [hm.newQuanta, hm'.newQuanta]
    exact Nat.add_le_add_right (part.newRows_stated_le h fun _ => hb) _
  · rw [hm.deletedQuanta, hm'.deletedQuanta, part.deletedRows_stated hkind,
      part.deletedRows_stated hkind]

end

/-! ## Sums -/

theorem sum_le_of_forall₂ {α β : Type} {f : α → ℕ} {g : β → ℕ} {as : List α} {bs : List β}
    (h : List.Forall₂ (fun a b => g b ≤ f a) as bs) : (bs.map g).sum ≤ (as.map f).sum := by
  induction h with
  | nil => exact le_rfl
  | cons h _ ih => exact Nat.add_le_add h ih

theorem sum_eq_of_forall₂ {α β : Type} {f : α → ℕ} {g : β → ℕ} {as : List α} {bs : List β}
    (h : List.Forall₂ (fun a b => g b = f a) as bs) : (bs.map g).sum = (as.map f).sum := by
  induction h with
  | nil => rfl
  | cons h _ ih => rw [List.map_cons, List.map_cons, List.sum_cons, List.sum_cons, h, ih]

/-- Batches whose operations cost no more one by one cost no more together, if their net
    growth of storage is no more. -/
theorem OperationModel.total_le {models models' : List OperationModel}
    (h : List.Forall₂ (fun model model' => model'.Cheaper model) models models')
    (hnet : (total models').net ≤ (total models).net) : (total models').Le (total models) where
  workUnits := by
    have := sum_le_of_forall₂ (h.imp fun _ _ h => h.workUnits)
    rw [UInt64.le_iff_toNat_le, toNat_workUnits_total, toNat_workUnits_total]
    omega
  policyFee := by
    have := sum_eq_of_forall₂ (h.imp fun _ _ h => h.policyFee)
    rw [UInt64.le_iff_toNat_le, toNat_policyFee_total, toNat_policyFee_total]
    omega
  resultBytes := by
    have := sum_le_of_forall₂ (h.imp fun _ _ h => h.resultBytes)
    rw [UInt32.le_iff_toNat_le, toNat_resultBytes_total, toNat_resultBytes_total]
    omega
  newQuanta := by
    have := sum_le_of_forall₂ (h.imp fun _ _ h => h.newQuanta)
    rw [UInt32.le_iff_toNat_le, toNat_newQuanta_total, toNat_newQuanta_total]
    omega
  net := hnet

section

variable {config : GasConfig} {o o' : FeePlanOptions} {infusions infusions' : List InfusedAsset}
  {parts : List NativeFeePart} {models models' : List OperationModel}

theorem cheaper_of_mapM (h : o'.facts.Cheaper o.facts) (hb : o.SameBudget o')
    (hi : .burnNonFungible ∈ parts.map NativeFeePart.kind → infusions' = infusions)
    (hm : (attachedAll o infusions parts).mapM (partModel config) = .ok models)
    (hm' : (attachedAll o' infusions' parts).mapM (partModel config) = .ok models') :
    List.Forall₂ (fun model model' => model'.Cheaper model) models models' ∧
      (.burnNonFungible ∉ parts.map NativeFeePart.kind → List.Forall₂ (fun model model' =>
        model'.deletedQuanta.toNat = model.deletedQuanta.toNat) models models') := by
  induction parts generalizing infusions infusions' models models' with
  | nil =>
    rw [← Except.ok.inj hm, ← Except.ok.inj hm']
    exact ⟨.nil, fun _ => .nil⟩
  | cons part parts ih =>
    rw [attachedAll, List.mapM_cons, bind_eq_ok] at hm hm'
    obtain ⟨model, hmodel, hm⟩ := hm
    obtain ⟨rest, hrest, hm⟩ := bind_eq_ok.1 hm
    obtain ⟨model', hmodel', hm'⟩ := hm'
    obtain ⟨rest', hrest', hm'⟩ := bind_eq_ok.1 hm'
    rw [← Except.ok.inj hm, ← Except.ok.inj hm']
    obtain ⟨hpart, hdeleted⟩ := cheaper_of_partModel h hb
      (fun hkind => hi (List.mem_cons.2 (Or.inl hkind.symm))) hmodel hmodel'
    obtain ⟨hall, halldeleted⟩ := ih (fun hmem => by
      rw [hi (List.mem_cons_of_mem _ hmem)]) hrest hrest'
    refine ⟨.cons hpart hall, fun hnot => ?_⟩
    rw [List.map_cons, List.mem_cons, not_or] at hnot
    exact .cons (hdeleted (Ne.symm hnot.1)) (halldeleted hnot.2)

end

/-! ## Plans -/

/-- A message with some options has a price. -/
structure Priced (msg : TxMsg) (config : GasConfig) (o : FeePlanOptions)
    (parts : List NativeFeePart) (size : UInt32) (models : List OperationModel)
    (estimate : NativeFeeEstimate) : Prop where
  operations : operations msg = .ok parts
  infusions : .burnNonFungible ∈ parts.map NativeFeePart.kind → o.infusions.isSome
  envelope : envelopeBytes msg o.witnessCount = .ok size
  priced : (attachedAll o (o.infusions.getD []) parts).mapM (partModel config) = .ok models
  settled : settle models config ⟨size, 0⟩ = .ok estimate

section

variable {msg : TxMsg} {config : GasConfig} {o o' : FeePlanOptions}

/-- The plan of a message is its price. -/
theorem planFees_eq_ok {plan : FeePlan} : planFees msg config o = .ok plan ↔
    ¬(requiredWitnesses msg = none ∧ o.witnessCount = none) ∧
      ∃ parts size models estimate exact, Priced msg config o parts size models estimate ∧
        isExact msg config o (parts.map NativeFeePart.kind) ⟨size, 0⟩ estimate = .ok exact ∧
        plan = {
          kinds := parts.map NativeFeePart.kind
          exact
          envelopeBytes := size
          maxGas := estimate.maxGas
          maxData := estimate.maxData
          expectedGasBill := estimate.expectedGasBill
          newStorageQuanta := estimate.newStorageQuanta
          deletedStorageQuanta := estimate.deletedStorageQuanta } := by
  rw [planFees]
  by_cases hw : requiredWitnesses msg = none ∧ o.witnessCount = none
  · rw [if_pos hw]
    exact ⟨nofun, fun h => absurd hw h.1⟩
  rw [if_neg hw, and_iff_right hw]
  constructor
  · intro h
    obtain ⟨parts', hparts', h⟩ := bind_eq_ok.1 h
    obtain ⟨size, hsize, h⟩ := bind_eq_ok.1 h
    obtain ⟨estimate, hestimate, h⟩ := bind_eq_ok.1 h
    obtain ⟨exact, hexact, h⟩ := bind_eq_ok.1 h
    obtain ⟨parts, hparts, hparts'⟩ := describe_eq_ok.1 hparts'
    obtain ⟨models, hmodels, hsettle⟩ := bind_eq_ok.1 hestimate
    rw [kinds_of_attachAll hparts'] at h hexact
    obtain ⟨hinfusions, hattached⟩ := attachAll_eq_ok.1 hparts'
    rw [hattached] at hmodels
    exact ⟨parts, size, models, estimate, exact, ⟨hparts, hinfusions, hsize, hmodels, hsettle⟩,
      hexact, (Except.ok.inj h).symm⟩
  · rintro ⟨parts, size, models, estimate, exact, h, hexact, hplan⟩
    have hattached := (attachAll_eq_ok (o := o)).2 ⟨h.infusions, rfl⟩
    rw [← kinds_of_attachAll hattached] at hexact hplan
    exact bind_eq_ok.2 ⟨_, describe_eq_ok.2 ⟨parts, h.operations, hattached⟩,
      bind_eq_ok.2 ⟨size, h.envelope, bind_eq_ok.2 ⟨estimate,
        bind_eq_ok.2 ⟨models, h.priced, h.settled⟩, bind_eq_ok.2 ⟨exact, hexact,
          congrArg Except.ok hplan.symm⟩⟩⟩⟩

/-- A plan is exact iff nothing of it is budgeted and the cheapest readings have the same
    price. -/
theorem isExact_eq_ok {parts : List NativeFeePart} {size : UInt32} {models : List OperationModel}
    {estimate : NativeFeeEstimate} {exact : Bool}
    (h : Priced msg config o parts size models estimate) :
    isExact msg config o (parts.map NativeFeePart.kind) ⟨size, 0⟩ estimate = .ok exact ↔
      (.script ∈ parts.map NativeFeePart.kind ∧ exact = false) ∨
      (.script ∉ parts.map NativeFeePart.kind ∧ ∃ models' estimate',
        Priced msg config o.cheapest parts size models' estimate' ∧
          (exact ↔ estimate'.expectedGasBill = estimate.expectedGasBill ∧
            estimate'.maxGas = estimate.maxGas ∧ estimate'.maxData = estimate.maxData)) := by
  rw [isExact]
  by_cases hs : .script ∈ parts.map NativeFeePart.kind
  · rw [if_pos hs, pure_eq_ok, Except.ok.injEq]
    constructor
    · exact fun h => Or.inl ⟨hs, h.symm⟩
    · rintro (⟨-, h⟩ | ⟨h, -⟩)
      · exact h.symm
      · exact absurd hs h
  rw [if_neg hs]
  have hiff (estimate' : NativeFeeEstimate) : (!decide (estimate'.expectedGasBill ≠
      estimate.expectedGasBill ∨ estimate'.maxGas ≠ estimate.maxGas ∨
        estimate'.maxData ≠ estimate.maxData)) = true ↔
      estimate'.expectedGasBill = estimate.expectedGasBill ∧
        estimate'.maxGas = estimate.maxGas ∧ estimate'.maxData = estimate.maxData := by
    simp only [Bool.not_eq_true', decide_eq_false_iff_not, not_or, not_not]
  constructor
  · intro h'
    obtain ⟨mattered, hmattered, h'⟩ := bind_eq_ok.1 h'
    obtain ⟨parts', hparts', hquoted⟩ := bind_eq_ok.1 hmattered
    obtain ⟨estimate', hestimate', hcompared⟩ := bind_eq_ok.1 hquoted
    obtain ⟨models', hmodels', hsettle'⟩ := bind_eq_ok.1 hestimate'
    obtain ⟨parts'', hparts, hattached⟩ := describe_eq_ok.1 hparts'
    obtain rfl := Except.ok.inj (h.operations.symm.trans hparts)
    obtain ⟨-, rfl⟩ := attachAll_eq_ok.1 hattached
    refine Or.inr ⟨hs, models', estimate', ⟨hparts, h.infusions, h.envelope, hmodels', hsettle'⟩, ?_⟩
    rw [← Except.ok.inj h', ← Except.ok.inj hcompared]
    exact hiff estimate'
  · rintro (⟨h', -⟩ | ⟨-, models', estimate', hpriced, hexact⟩)
    · exact absurd h' hs
    have hattached := (attachAll_eq_ok (o := o.cheapest)).2 ⟨hpriced.infusions, rfl⟩
    refine bind_eq_ok.2 ⟨_, bind_eq_ok.2 ⟨_, describe_eq_ok.2 ⟨parts, h.operations, hattached⟩,
      bind_eq_ok.2 ⟨estimate', bind_eq_ok.2 ⟨models', hpriced.priced, hpriced.settled⟩, rfl⟩⟩,
      congrArg Except.ok ?_⟩
    rw [Bool.eq_iff_iff, hexact]
    exact hiff estimate'

/-- A message has one price. -/
theorem Priced.unique {parts parts' : List NativeFeePart} {size size' : UInt32}
    {models models' : List OperationModel} {estimate estimate' : NativeFeeEstimate}
    (hw : o'.witnessCount = o.witnessCount) (h : Priced msg config o parts size models estimate)
    (h' : Priced msg config o' parts' size' models' estimate') : parts' = parts ∧ size' = size := by
  have hparts := h'.operations
  have hsize := h'.envelope
  rw [h.operations] at hparts
  rw [hw, h.envelope] at hsize
  exact ⟨(Except.ok.inj hparts).symm, (Except.ok.inj hsize).symm⟩

/-- Without a burn, facts that read cheaper cost no more. -/
theorem Priced.le {parts : List NativeFeePart} {size : UInt32}
    {models models' : List OperationModel} {estimate estimate' : NativeFeeEstimate}
    (h : Priced msg config o parts size models estimate)
    (h' : Priced msg config o' parts size models' estimate') (hc : o'.facts.Cheaper o.facts)
    (hb : o.SameBudget o') (hburn : .burnNonFungible ∉ parts.map NativeFeePart.kind) :
    estimate'.Le estimate := by
  obtain ⟨hall, hdeleted⟩ := cheaper_of_mapM hc hb (fun h => absurd h hburn) h.priced h'.priced
  refine settle_le_settle (OperationModel.total_le hall ?_) h.settled h'.settled
  have hnew := sum_le_of_forall₂ (hall.imp fun _ _ h => h.newQuanta)
  have hdel := sum_eq_of_forall₂ (hdeleted hburn)
  rw [UInt32.le_iff_toNat_le, OperationModel.net, OperationModel.net, toNat_satSub32,
    toNat_satSub32, OperationModel.toNat_newQuanta_total, OperationModel.toNat_newQuanta_total,
    OperationModel.toNat_deletedQuanta_total, OperationModel.toNat_deletedQuanta_total]
  omega

end

end PhantasmaSdk
