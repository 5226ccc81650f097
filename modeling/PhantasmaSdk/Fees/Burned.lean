import PhantasmaSdk.Fees.Compare

/-!
# Burned instances

Which NFTs a message burns is read out of it twice: the planner describes each burn as
a part with a count, and refuses a burn if nobody says what it returns, and
`burnedInstances` lists the instances, for a client to read what they hold. The lists
are as long as the counts say (`length_burnedInstances`), so that a message plans
without the returned assets exactly where there is nothing to read
(`planFees_without_infusions`).
-/

namespace PhantasmaSdk

/-- How many NFTs a part burns. -/
def NativeFeePart.burnedCount (part : NativeFeePart) : ℕ :=
  if part.kind = .burnNonFungible then part.instances.toNat else 0

/-! ## Calls -/

/-- The call burns NFTs, if its arguments are read. -/
def TxMsgCall.BurnsNfts (call : TxMsgCall) : Prop :=
  ¬MsgCallArgSections.present call.sections ∧ call.moduleId = ModuleId.token ∧
    call.methodId = TokenContractMethod.burnNonFungible

theorem burnedByCall_of_not_burnsNfts {call : TxMsgCall} (h : ¬call.BurnsNfts) :
    burnedByCall call = [] := by
  rw [burnedByCall]
  by_cases hs : MsgCallArgSections.present call.sections = true
  · rw [if_pos hs]
  rw [if_neg hs]
  refine if_pos ?_
  by_contra hno
  rw [not_or, not_not, not_not] at hno
  exact h ⟨hs, hno⟩

theorem describeCall_of_burnsNfts {call : TxMsgCall} (h : call.BurnsNfts) (o : FeePlanOptions)
    (infusions : Option (List InfusedAsset)) : describeCall call o.state o infusions =
      (do let args ← callArgs BurnNonFungibleArgs "BurnNonFungible arguments" call.args
          let count ← instanceCount args.instanceIds.length
          describeBurn args.tokenId count o.state infusions) := by
  obtain ⟨hs, hmodule, hmethod⟩ := h
  rw [describeCall, if_neg hs, if_pos hmodule, hmethod, if_neg (by decide), if_neg (by decide),
    if_neg (by decide), if_neg (by decide), if_pos rfl]

/-- Only the calls that burn NFTs are described as burns of them. -/
theorem kind_of_describeCall {call : TxMsgCall} {part : NativeFeePart}
    (h : describeCall call noFacts.state noFacts (some []) = .ok part) (hno : ¬call.BurnsNfts) :
    part.kind ≠ .burnNonFungible := by
  rw [kind_describedKind h]
  exact fun hkind => hno ((describedKind_eq_iff (by decide)).1 hkind)

/-- A list of as many instances as a part burns, some if the part is a burn. -/
def Lists (instances : List BurnedInstance) (part : NativeFeePart) : Prop :=
  instances.length = part.burnedCount ∧ (part.kind = .burnNonFungible → instances ≠ [])

theorem lists_nil {part : NativeFeePart} (h : part.kind ≠ .burnNonFungible) : Lists [] part :=
  ⟨(if_neg h).symm, fun h' => absurd h' h⟩

/-- The instances a call burns are as many as it is described to burn. -/
theorem lists_burnedByCall {call : TxMsgCall} {part : NativeFeePart}
    (h : describeCall call noFacts.state noFacts (some []) = .ok part) :
    Lists (burnedByCall call) part := by
  by_cases hburns : call.BurnsNfts
  · rw [describeCall_of_burnsNfts hburns] at h
    obtain ⟨args, hargs, h⟩ := bind_eq_ok.1 h
    obtain ⟨count, hcount, h⟩ := bind_eq_ok.1 h
    obtain ⟨h0, hcount⟩ := instanceCount_eq_ok.1 hcount
    obtain ⟨hs, hmodule, hmethod⟩ := hburns
    have hlist : burnedByCall call = args.instanceIds.map fun instanceId =>
        { tokenId := args.tokenId, instanceId } := by
      rw [burnedByCall, if_neg hs, if_neg (by simp [hmodule, hmethod]),
        callArgs_eq_ok.1 hargs]
    have hpart : part.burnedCount = count.toNat := by
      rw [← Except.ok.inj h]
      rfl
    rw [hlist]
    refine ⟨by rw [List.length_map, hpart, hcount], fun _ hnil => h0 (UInt32.toNat_inj.1 ?_)⟩
    rw [hcount, List.map_eq_nil_iff.1 hnil]
    rfl
  · rw [burnedByCall_of_not_burnsNfts hburns]
    exact lists_nil (kind_of_describeCall h hburns)

/-! ## Messages -/

/-- As many instances as the parts burn together, some if there is a burn. -/
structure ListsAll (instances : List BurnedInstance) (parts : List NativeFeePart) : Prop where
  length_eq : instances.length = (parts.map NativeFeePart.burnedCount).sum
  ne_nil_iff : instances ≠ [] ↔ .burnNonFungible ∈ parts.map NativeFeePart.kind

theorem burnedCount_eq_zero {part : NativeFeePart} (h : part.kind ≠ .burnNonFungible) :
    part.burnedCount = 0 := if_neg h

theorem listsAll_nil : ListsAll [] [] := ⟨rfl, by simp⟩

theorem ListsAll.cons {instances rest : List BurnedInstance} {part : NativeFeePart}
    {parts : List NativeFeePart} (h : Lists instances part) (hrest : ListsAll rest parts) :
    ListsAll (instances ++ rest) (part :: parts) where
  length_eq := by rw [List.length_append, h.1, hrest.length_eq, List.map_cons, List.sum_cons]
  ne_nil_iff := by
    rw [List.map_cons, List.mem_cons, ← hrest.ne_nil_iff, ne_eq, List.append_eq_nil_iff,
      not_and_or]
    refine or_congr_left ⟨fun hne => ?_, fun hkind => h.2 hkind.symm⟩
    by_contra hkind
    exact hne (List.length_eq_zero_iff.1 (h.1.trans (burnedCount_eq_zero (Ne.symm hkind))))

theorem listsAll_singleton {instances : List BurnedInstance} {part : NativeFeePart}
    (h : Lists instances part) : ListsAll instances [part] := by
  have hall := ListsAll.cons h listsAll_nil
  rwa [List.append_nil] at hall

theorem listsAll_describeCalls {calls : List TxMsgCall} {parts : List NativeFeePart}
    (h : describeCalls noFacts.state noFacts (some []) calls = .ok parts) :
    ListsAll (calls.flatMap burnedByCall) parts := by
  induction calls generalizing parts with
  | nil =>
    rw [← Except.ok.inj h]
    exact listsAll_nil
  | cons call calls ih =>
    obtain ⟨part, hpart, h⟩ := bind_eq_ok.1 h
    obtain ⟨rest, hrest, h⟩ := bind_eq_ok.1 h
    rw [ite_self] at hrest
    rw [← Except.ok.inj h, List.flatMap_cons]
    exact ListsAll.cons (lists_burnedByCall hpart) (ih hrest)

/-- The instances a message burns are as many as its operations burn. -/
theorem listsAll_burnedInstances {msg : TxMsg} {parts : List NativeFeePart}
    (h : operations msg = .ok parts) : ListsAll (burnedInstances msg) parts := by
  rw [operations, describe] at h
  rw [burnedInstances]
  revert h
  cases msg.msg with
  | call call =>
    intro h
    obtain ⟨part, hpart, h⟩ := bind_eq_ok.1 h
    exact Except.ok.inj h ▸ listsAll_singleton (lists_burnedByCall hpart)
  | callMulti batch => exact listsAll_describeCalls
  | burnNonFungible inner | burnNonFungibleGasPayer inner =>
    intro h
    exact Except.ok.inj h ▸ listsAll_singleton ⟨rfl, fun _ => List.cons_ne_nil _ _⟩
  | phantasmaRaw => rintro ⟨⟩
  | transferNonFungibleMulti inner | transferNonFungibleMultiGasPayer inner =>
    intro h
    obtain ⟨count, -, h⟩ := bind_eq_ok.1 h
    exact Except.ok.inj h ▸ listsAll_singleton (lists_nil (by rintro ⟨⟩))
  | mintNonFungible inner =>
    intro h
    obtain ⟨rom, -, h⟩ := bind_eq_ok.1 h
    obtain ⟨ram, -, h⟩ := bind_eq_ok.1 h
    exact Except.ok.inj h ▸ listsAll_singleton (lists_nil (by rintro ⟨⟩))
  | _ =>
    intro h
    exact Except.ok.inj h ▸ listsAll_singleton (lists_nil (by rintro ⟨⟩))

/-! ## Plans -/

/-- The counts of the burns among some parts, summed up. -/
def burnCounts (parts : List NativeFeePart) : ℕ :=
  ((parts.filter (·.kind = .burnNonFungible)).map fun part => part.instances.toNat).sum

theorem burnCounts_eq (parts : List NativeFeePart) :
    burnCounts parts = (parts.map NativeFeePart.burnedCount).sum := by
  rw [burnCounts]
  induction parts with
  | nil => rfl
  | cons part parts ih =>
    rw [List.map_cons, List.sum_cons, ← ih, NativeFeePart.burnedCount]
    by_cases hkind : part.kind = .burnNonFungible
    · rw [List.filter_cons_of_pos (by simpa using hkind), List.map_cons, List.sum_cons, if_pos hkind]
    · rw [List.filter_cons_of_neg (by simpa using hkind), if_neg hkind, Nat.zero_add]

/-- Stating the options of a burn does not change its count. -/
theorem burnedCount_attached (o : FeePlanOptions) (infusions : List InfusedAsset)
    (part : NativeFeePart) : (part.attached o infusions).burnedCount = part.burnedCount := by
  obtain ⟨kind, params⟩ := part
  cases kind <;> rfl

theorem burnCounts_attachedAll (o : FeePlanOptions) (infusions : List InfusedAsset)
    (parts : List NativeFeePart) :
    burnCounts (attachedAll o infusions parts) = burnCounts parts := by
  rw [burnCounts_eq, burnCounts_eq]
  induction parts generalizing infusions with
  | nil => rfl
  | cons part parts ih =>
    rw [attachedAll, List.map_cons, List.map_cons, List.sum_cons, List.sum_cons, ih,
      burnedCount_attached]

/-- Without a burn, it does not matter what a burn would return. -/
theorem attachedAll_of_no_burn {o : FeePlanOptions} {parts : List NativeFeePart}
    (h : .burnNonFungible ∉ parts.map NativeFeePart.kind) (infusions infusions' : List InfusedAsset)
    (returns : Option (List InfusedAsset)) :
    attachedAll { o with infusions := returns } infusions' parts =
      attachedAll o infusions parts := by
  induction parts with
  | nil => rfl
  | cons part parts ih =>
    rw [List.map_cons, List.mem_cons, not_or] at h
    have hkind : part.kind ≠ .burnNonFungible := Ne.symm h.1
    rw [attachedAll, attachedAll, if_neg hkind, if_neg hkind, ih h.2,
      NativeFeePart.attached, NativeFeePart.attached, if_neg hkind, if_neg hkind]
    rfl

/-- A message is described iff its operations are and, where it burns NFTs, it is said
    what they hold. -/
theorem describe_eq_attachedAll {msg : TxMsg} {o : FeePlanOptions} {parts : List NativeFeePart}
    (h : operations msg = .ok parts)
    (hinfusions : .burnNonFungible ∈ parts.map NativeFeePart.kind → o.infusions.isSome) :
    describe msg o = .ok (attachedAll o (o.infusions.getD []) parts) :=
  describe_eq_ok.2 ⟨parts, h, attachAll_eq_ok.2 ⟨hinfusions, rfl⟩⟩

/-- Without a burn, a message is described alike whatever is said to be returned. -/
theorem describe_of_no_burn {msg : TxMsg} {parts : List NativeFeePart}
    (h : operations msg = .ok parts) (hburn : .burnNonFungible ∉ parts.map NativeFeePart.kind)
    (o : FeePlanOptions) (returns : Option (List InfusedAsset)) :
    describe msg { o with infusions := returns } = describe msg o := by
  rw [describe_eq_attachedAll h fun hmem => absurd hmem hburn,
    describe_eq_attachedAll h fun hmem => absurd hmem hburn, attachedAll_of_no_burn hburn]

/-- The planner and the list of burned instances recognise the same burns: the counts add
    up to as many instances, and where nobody says what is returned, a message that could
    be planned is refused iff there are any, and otherwise planned alike. -/
theorem burnedInstances_agree (msg : TxMsg) (config : GasConfig) (o : FeePlanOptions)
    (plan : FeePlan) (hinfusions : o.infusions.isSome) (hplan : planFees msg config o = .ok plan) :
    (∃ parts, describe msg o = .ok parts ∧ burnCounts parts = (burnedInstances msg).length) ∧
      ((∃ e, planFees msg config { o with infusions := none } = .error e) ↔
        burnedInstances msg ≠ []) ∧
      (burnedInstances msg = [] →
        planFees msg config { o with infusions := none } = .ok plan) := by
  obtain ⟨-, parts, size, models, estimate, exact, hpriced, -⟩ := planFees_eq_ok.1 hplan
  have hlists := listsAll_burnedInstances hpriced.operations
  have hsame : burnedInstances msg = [] →
      planFees msg config { o with infusions := none } = .ok plan := by
    intro hnil
    have hburn : .burnNonFungible ∉ parts.map NativeFeePart.kind := fun hmem =>
      hlists.ne_nil_iff.2 hmem hnil
    have hdescribe := describe_of_no_burn hpriced.operations hburn
    have hcheapest : describe msg { o with infusions := none }.cheapest =
        describe msg o.cheapest := hdescribe o.cheapest none
    rw [← hplan]
    simp only [planFees, isExact, assumptionsMattered, hdescribe, hcheapest]
  refine ⟨⟨_, describe_eq_attachedAll hpriced.operations fun _ => hinfusions, ?_⟩, ⟨?_, ?_⟩, hsame⟩
  · rw [burnCounts_attachedAll, burnCounts_eq, hlists.length_eq]
  · rintro ⟨e, he⟩ hnil
    rw [hsame hnil] at he
    cases he
  · intro hne
    cases hunread : planFees msg config { o with infusions := none } with
    | error e => exact ⟨e, rfl⟩
    | ok plan' =>
      obtain ⟨-, parts', _, _, _, _, hpriced', -⟩ := planFees_eq_ok.1 hunread
      obtain rfl := Except.ok.inj (hpriced.operations.symm.trans hpriced'.operations)
      exact absurd (hpriced'.infusions (hlists.ne_nil_iff.1 hne)) (by simp)

/-- A batch of a burn of two NFTs and a call of a module that is not modelled. -/
def burnPair : TxMsg where
  txType := .callMulti
  expiry := 0
  maxGas := 0
  maxData := 0
  gasFrom := emptyBytes32
  payload := ⟨""⟩
  msg := .callMulti ⟨[
    { moduleId := ModuleId.token, methodId := TokenContractMethod.burnNonFungible,
      args := List.replicate 40 0 ++ [2, 0, 0, 0] ++ List.replicate 16 0, sections := none },
    { moduleId := 2, methodId := 0, args := [], sections := none }]⟩

theorem burnedInstances_agree_pair :
    (∃ parts, describe burnPair { witnessCount := some 1, infusions := some [] } = .ok parts ∧
      burnCounts parts = 2) ∧
      ∃ e, planFees burnPair {} { witnessCount := some 1 } = .error e := by
  let o : FeePlanOptions := { witnessCount := some 1, infusions := some [] }
  have hplans : (planFees burnPair {} o).toOption.isSome := by decide +kernel
  cases hplan : planFees burnPair {} o with
  | error e => rw [hplan] at hplans; cases hplans
  | ok plan =>
    obtain ⟨⟨parts, hparts, hcounts⟩, hunread, -⟩ := burnedInstances_agree burnPair {} o plan rfl hplan
    have hlength : (burnedInstances burnPair).length = 2 := by decide +kernel
    refine ⟨⟨parts, hparts, hcounts.trans hlength⟩, hunread.2 fun hnil => ?_⟩
    rw [hnil] at hlength
    cases hlength

end PhantasmaSdk
