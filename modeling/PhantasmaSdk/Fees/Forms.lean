import PhantasmaSdk.Fees.Facts

/-!
# The forms of an operation

A transfer, a mint or a burn of a token is sent as a native type, as that type with a
gas payer, or as a call of the token module. The fee is read from the same things in
each (`TokenOperation`): every form is described alike, and two of them are planned
alike but for the sizes of their envelopes (`formsAgree_iff`).

One operation is not described alike in each. The native transfer of NFTs counts up to
`2 ^ 32 - 1` of them, while the arguments of the call are an array whose length is
written as a `u32` and read as an `i32`: from `2 ^ 31` instances on, the call is refused.
-/

namespace PhantasmaSdk

open Machine

/-! ## Operations -/

/-- An operation of the token module with a native type, as far as its fee goes. -/
inductive TokenOperation
  | transferFungible (tokenId : UInt64) (toAddress : Bytes32)
  | transferNonFungible (tokenId : UInt64) (toAddress : Bytes32) (instanceIds : List UInt64)
  | mintFungible (tokenId : UInt64) (toAddress : Bytes32)
  | burnFungible (tokenId : UInt64)
  | burnNonFungible (tokenId : UInt64) (instanceIds : List UInt64)
  deriving DecidableEq, Repr

namespace TokenOperation

def instanceIds : TokenOperation → List UInt64
  | transferNonFungible _ _ ids | burnNonFungible _ ids => ids
  | _ => []

/-- The part the operation is priced as. -/
def part (o : FeePlanOptions) : TokenOperation → Result NativeFeePart
  | transferFungible tokenId toAddress =>
    pure ⟨.transferFungible, { o.state with
      tokenId := some tokenId, toIsNftAddress := isNftAddress toAddress }⟩
  | transferNonFungible tokenId toAddress ids => do
    let count ← instanceCount ids.length
    pure ⟨.transferNonFungible, { o.state with
      tokenId := some tokenId, count := some count, toIsNftAddress := isNftAddress toAddress }⟩
  | mintFungible tokenId toAddress =>
    pure ⟨.mintFungible, { o.state with
      tokenId := some tokenId, toIsNftAddress := isNftAddress toAddress }⟩
  | burnFungible tokenId => pure ⟨.burnFungible, { o.state with tokenId := some tokenId }⟩
  | burnNonFungible tokenId ids => do
    let count ← instanceCount ids.length
    describeBurn tokenId count o.state o.infusions

end TokenOperation

/-! ## Forms -/

/-- The operation of a native type, plain or with a gas payer. -/
def TxPayload.nativeOperation : TxPayload → Option TokenOperation
  | .transferFungible inner => some (.transferFungible inner.tokenId inner.toAddress)
  | .transferFungibleGasPayer inner => some (.transferFungible inner.tokenId inner.toAddress)
  | .transferNonFungibleSingle inner =>
    some (.transferNonFungible inner.tokenId inner.toAddress [inner.instanceId])
  | .transferNonFungibleSingleGasPayer inner =>
    some (.transferNonFungible inner.tokenId inner.toAddress [inner.instanceId])
  | .transferNonFungibleMulti inner =>
    some (.transferNonFungible inner.tokenId inner.toAddress inner.instanceIds)
  | .transferNonFungibleMultiGasPayer inner =>
    some (.transferNonFungible inner.tokenId inner.toAddress inner.instanceIds)
  | .mintFungible inner => some (.mintFungible inner.tokenId inner.toAddress)
  | .burnFungible inner => some (.burnFungible inner.tokenId)
  | .burnFungibleGasPayer inner => some (.burnFungible inner.tokenId)
  | .burnNonFungible inner => some (.burnNonFungible inner.tokenId [inner.instanceId])
  | .burnNonFungibleGasPayer inner => some (.burnNonFungible inner.tokenId [inner.instanceId])
  | _ => none

namespace TxMsgCall

/-- The call is of a method of the token module, with these arguments. -/
structure Carries {α : Type} [CarbonSerializable α] (call : TxMsgCall) (methodId : UInt32)
    (args : α) : Prop where
  sections : ¬MsgCallArgSections.present call.sections
  moduleId : call.moduleId = ModuleId.token
  methodId : call.methodId = methodId
  args : serialize args = .ok call.args

/-- The call performs the operation, whoever sends it and whatever the amount. -/
inductive Performs (call : TxMsgCall) : TokenOperation → Prop
  | transferFungible (args : TransferFungibleArgs) (hrange : args.amount.InRange)
    (h : call.Carries TokenContractMethod.transferFungible args) :
    Performs call (.transferFungible args.tokenId args.toAddress)
  | transferNonFungible (args : TransferNonFungibleArgs)
    (h : call.Carries TokenContractMethod.transferNonFungible args) :
    Performs call (.transferNonFungible args.tokenId args.toAddress args.instanceIds)
  | mintFungible (args : MintFungibleArgs) (hrange : args.amount.InRange)
    (h : call.Carries TokenContractMethod.mintFungible args) :
    Performs call (.mintFungible args.tokenId args.toAddress)
  | burnFungible (args : BurnFungibleArgs) (hrange : args.amount.InRange)
    (h : call.Carries TokenContractMethod.burnFungible args) :
    Performs call (.burnFungible args.tokenId)
  | burnNonFungible (args : BurnNonFungibleArgs)
    (h : call.Carries TokenContractMethod.burnNonFungible args) :
    Performs call (.burnNonFungible args.tokenId args.instanceIds)

end TxMsgCall

/-- The payload performs the operation, by a native type or by a call. -/
def TxPayload.Performs (payload : TxPayload) (op : TokenOperation) : Prop :=
  payload.nativeOperation = some op ∨ ∃ call, payload = .call call ∧ call.Performs op

/-! ## Descriptions -/

theorem describe_of_native {msg : TxMsg} {op : TokenOperation} {o : FeePlanOptions}
    (h : msg.msg.nativeOperation = some op) :
    describe msg o = (do let part ← op.part o; pure [part]) := by
  obtain ⟨txType, expiry, maxGas, maxData, gasFrom, payload, inner⟩ := msg
  dsimp only at h
  rw [describe]
  cases inner with
  | transferFungible | transferFungibleGasPayer | mintFungible | burnFungible
  | burnFungibleGasPayer | transferNonFungibleSingle | transferNonFungibleSingleGasPayer
  | burnNonFungible | burnNonFungibleGasPayer => exact Option.some.inj h ▸ rfl
  | transferNonFungibleMulti inner | transferNonFungibleMultiGasPayer inner =>
    rw [← Option.some.inj h, TokenOperation.part, bind_assoc]
    exact congrArg _ (funext fun count => rfl)
  | _ => cases h

open Codec in
/-- Arguments that fit are read as they were written. -/
theorem TxMsgCall.Carries.callArgs_eq {α : Type} [CarbonSerializable α] {call : TxMsgCall}
    {methodId : UInt32} {args : α} (h : call.Carries methodId args) {Fits Exact : α → Prop}
    {minLength : ℕ}
    (hlawful : Lawful (writeCarbon : α → Result Bytes) readCarbon Fits Exact minLength)
    (hfits : Fits args) (name : String) : callArgs α name call.args = .ok args :=
  callArgs_eq_ok.2 (deserialize_eq_ok.2 (hlawful.reads args call.args hfits h.args).run_self)

/-- What a call with such arguments is described as. -/
theorem describeCall_of_performs {call : TxMsgCall} {op : TokenOperation} {o : FeePlanOptions}
    (h : call.Performs op) (hlong : op.instanceIds.length < 2 ^ 31) :
    describeCall call o.state o o.infusions = op.part o := by
  cases h with
  | transferFungible args hrange h =>
    rw [describeCall, if_neg h.sections, if_pos h.moduleId, if_pos h.methodId,
      h.callArgs_eq TransferFungibleArgs.lawful hrange]
    rfl
  | transferNonFungible args h =>
    rw [describeCall, if_neg h.sections, if_pos h.moduleId, h.methodId, if_neg (by decide),
      if_pos rfl, h.callArgs_eq TransferNonFungibleArgs.lawful hlong]
    rfl
  | mintFungible args hrange h =>
    rw [describeCall, if_neg h.sections, if_pos h.moduleId, h.methodId, if_neg (by decide),
      if_neg (by decide), if_pos rfl, h.callArgs_eq MintFungibleArgs.lawful hrange]
    rfl
  | burnFungible args hrange h =>
    rw [describeCall, if_neg h.sections, if_pos h.moduleId, h.methodId, if_neg (by decide),
      if_neg (by decide), if_neg (by decide), if_pos rfl,
      h.callArgs_eq BurnFungibleArgs.lawful hrange]
    rfl
  | burnNonFungible args h =>
    rw [describeCall, if_neg h.sections, if_pos h.moduleId, h.methodId, if_neg (by decide),
      if_neg (by decide), if_neg (by decide), if_neg (by decide), if_pos rfl,
      h.callArgs_eq BurnNonFungibleArgs.lawful hlong]
    rfl

/-- A call that transfers `2 ^ 31` instances or more is refused. -/
theorem describeCall_ne_ok_of_long {call : TxMsgCall} {args : TransferNonFungibleArgs}
    (h : call.Carries TokenContractMethod.transferNonFungible args) (o : FeePlanOptions)
    (hlong : 2 ^ 31 ≤ args.instanceIds.length) (part : NativeFeePart) :
    describeCall call o.state o o.infusions ≠ .ok part := by
  intro hpart
  rw [describeCall, if_neg h.sections, if_pos h.moduleId, h.methodId, if_neg (by decide),
    if_pos rfl] at hpart
  obtain ⟨args', hargs', -⟩ := bind_eq_ok.1 hpart
  have hread := callArgs_eq_ok.1 hargs'
  rw [TransferNonFungibleArgs.deserialize_of_long hlong h.args] at hread
  cases hread

/-! ## Plans -/

/-- The plan of a message that is described as given, with the options and with their
    cheapest reading, and whose envelope is of this size. -/
def planSized (parts cheaper : Result (List NativeFeePart)) (config : GasConfig)
    (size : UInt32) : Result FeePlan := do
  let parts ← parts
  let estimate ← estimateNativeFeeBatch parts config ⟨size, 0⟩
  let kinds := parts.map NativeFeePart.kind
  let exact ← (if .script ∈ kinds then pure false
    else do
      let cheaper ← cheaper
      let cheapest ← estimateNativeFeeBatch cheaper config ⟨size, 0⟩
      pure !decide (cheapest.expectedGasBill ≠ estimate.expectedGasBill ∨
        cheapest.maxGas ≠ estimate.maxGas ∨ cheapest.maxData ≠ estimate.maxData) : Result Bool)
  pure {
    kinds
    exact
    envelopeBytes := size
    maxGas := estimate.maxGas
    maxData := estimate.maxData
    expectedGasBill := estimate.expectedGasBill
    newStorageQuanta := estimate.newStorageQuanta
    deletedStorageQuanta := estimate.deletedStorageQuanta }

/-- A plan is made of the descriptions of its message and of the size of its envelope. -/
theorem planSized_of_planFees {msg : TxMsg} {config : GasConfig} {o : FeePlanOptions}
    {plan : FeePlan} (h : planFees msg config o = .ok plan) :
    planSized (describe msg o) (describe msg o.cheapest) config plan.envelopeBytes = .ok plan := by
  obtain ⟨-, h⟩ | ⟨-, h⟩ := ite_eq_iff.1 h
  · cases h
  obtain ⟨parts, hparts, h⟩ := bind_eq_ok.1 h
  obtain ⟨size, hsize, h⟩ := bind_eq_ok.1 h
  obtain ⟨estimate, hestimate, h⟩ := bind_eq_ok.1 h
  obtain ⟨exact, hexact, h⟩ := bind_eq_ok.1 h
  obtain rfl := Except.ok.inj h
  refine bind_eq_ok.2 ⟨parts, hparts, bind_eq_ok.2 ⟨estimate, hestimate,
    bind_eq_ok.2 ⟨exact, ?_, rfl⟩⟩⟩
  rw [← hexact, isExact, assumptionsMattered]
  simp only [bind_assoc, pure_bind]

/-- The same operations, rows and escrow. -/
structure FeePlan.SameRows (plan' plan : FeePlan) : Prop where
  kinds : plan'.kinds = plan.kinds
  maxData : plan'.maxData = plan.maxData
  newStorageQuanta : plan'.newStorageQuanta = plan.newStorageQuanta
  deletedStorageQuanta : plan'.deletedStorageQuanta = plan.deletedStorageQuanta

/-- The size of the envelope changes the gas only. -/
theorem sameRows_of_planSized {parts cheaper : Result (List NativeFeePart)} {config : GasConfig}
    {size size' : UInt32} {plan plan' : FeePlan}
    (h : planSized parts cheaper config size = .ok plan)
    (h' : planSized parts cheaper config size' = .ok plan') : plan'.SameRows plan := by
  obtain ⟨ps, hps, h⟩ := bind_eq_ok.1 h
  obtain ⟨ps', hps', h'⟩ := bind_eq_ok.1 h'
  obtain rfl := Except.ok.inj (hps.symm.trans hps')
  obtain ⟨estimate, hestimate, h⟩ := bind_eq_ok.1 h
  obtain ⟨estimate', hestimate', h'⟩ := bind_eq_ok.1 h'
  obtain ⟨exact, -, h⟩ := bind_eq_ok.1 h
  obtain ⟨exact', -, h'⟩ := bind_eq_ok.1 h'
  obtain ⟨models, hmodels, hestimate⟩ := bind_eq_ok.1 hestimate
  obtain ⟨models', hmodels', hestimate'⟩ := bind_eq_ok.1 hestimate'
  obtain rfl := Except.ok.inj (hmodels.symm.trans hmodels')
  obtain ⟨_, -, hestimate⟩ := bind_eq_ok.1 hestimate
  obtain ⟨_, -, hestimate'⟩ := bind_eq_ok.1 hestimate'
  rw [← Except.ok.inj h, ← Except.ok.inj h', ← Except.ok.inj hestimate,
    ← Except.ok.inj hestimate']
  exact ⟨rfl, rfl, rfl, rfl⟩

/-- The two are described alike, and the plan of each is made of the description of the
    first and of the size of its own envelope: the operations, the rows and the escrow are
    the same. -/
structure FormsAgree (msg msg' : TxMsg) (o : FeePlanOptions) : Prop where
  described : describe msg' o = describe msg o
  planned : ∀ config plan', planFees msg' config o = .ok plan' →
    planSized (describe msg o) (describe msg o.cheapest) config plan'.envelopeBytes = .ok plan'
  sameRows : ∀ config plan plan', planFees msg config o = .ok plan →
    planFees msg' config o = .ok plan' → plan'.SameRows plan
  eq_of_size : ∀ config plan plan', planFees msg config o = .ok plan →
    planFees msg' config o = .ok plan' → plan'.envelopeBytes = plan.envelopeBytes → plan' = plan

theorem formsAgree_of_describe {msg msg' : TxMsg} {o : FeePlanOptions}
    (h : ∀ o, describe msg' o = describe msg o) : FormsAgree msg msg' o := by
  have hplanned : ∀ config plan', planFees msg' config o = .ok plan' →
      planSized (describe msg o) (describe msg o.cheapest) config plan'.envelopeBytes =
        .ok plan' := by
    intro config plan' hplan'
    rw [← h o, ← h o.cheapest]
    exact planSized_of_planFees hplan'
  refine ⟨h o, hplanned, fun config plan plan' hplan hplan' =>
    sameRows_of_planSized (planSized_of_planFees hplan) (hplanned config plan' hplan'),
    fun config plan plan' hplan hplan' hsize => ?_⟩
  have hsized := planSized_of_planFees hplan
  rw [← hsize, hplanned config plan' hplan'] at hsized
  exact Except.ok.inj hsized

/-- The native types burn one NFT. -/
theorem length_of_burnNonFungible {payload : TxPayload} {tokenId : UInt64} {ids : List UInt64}
    (h : payload.nativeOperation = some (.burnNonFungible tokenId ids)) : ids.length = 1 := by
  cases payload with
  | burnNonFungible inner | burnNonFungibleGasPayer inner =>
    cases Option.some.inj h
    rfl
  | _ => cases h

/-- A transfer of so many NFTs is described by its native type and refused as a call. -/
theorem describe_ne_of_long {msg msg' : TxMsg} {call : TxMsgCall} {args : TransferNonFungibleArgs}
    (o : FeePlanOptions)
    (h : msg.msg.nativeOperation =
      some (.transferNonFungible args.tokenId args.toAddress args.instanceIds))
    (hcall : msg'.msg = .call call)
    (hcarries : call.Carries TokenContractMethod.transferNonFungible args)
    (hlong : 2 ^ 31 ≤ args.instanceIds.length) : describe msg' o ≠ describe msg o := by
  intro heq
  obtain ⟨enc, hids, -⟩ := bind_eq_ok.1 hcarries.args
  have hlt := CarbonWriter.length_lt_of_writeArray hids
  have hcount : instanceCount args.instanceIds.length =
      .ok (UInt32.ofNat args.instanceIds.length) := by
    have htoNat := UInt32.toNat_ofNat_of_lt' hlt
    refine instanceCount_eq_ok.2 ⟨fun h0 => ?_, htoNat⟩
    rw [h0, UInt32.toNat_zero] at htoNat
    omega
  rw [describe_of_native h, TokenOperation.part, hcount, describe, hcall] at heq
  obtain ⟨part, hpart, -⟩ := bind_eq_ok.1 heq
  exact describeCall_ne_ok_of_long hcarries o hlong part hpart

/-- The native forms of an operation agree with each other and with its call, iff that does
    not carry `2 ^ 31` instances or more. -/
theorem formsAgree_iff (msg msg' : TxMsg) (op : TokenOperation) (o : FeePlanOptions)
    (h : msg.msg.nativeOperation = some op) (h' : msg'.msg.Performs op) :
    FormsAgree msg msg' o ↔
      ((∃ call, msg'.msg = .call call) → op.instanceIds.length < 2 ^ 31) := by
  constructor
  · rintro hagree ⟨call, hcall⟩
    by_contra hlong
    rw [not_lt] at hlong
    -- Too many instances are only in a call that transfers NFTs, which is not described.
    have hperforms : call.Performs op := by
      rcases h' with h' | ⟨call', hcall', hperforms⟩
      · rw [hcall] at h'
        cases h'
      · obtain rfl := TxPayload.call.inj (hcall.symm.trans hcall')
        exact hperforms
    cases hperforms with
    | transferNonFungible args hcarries =>
      exact describe_ne_of_long o h hcall hcarries hlong hagree.described
    | burnNonFungible args hcarries =>
      rw [TokenOperation.instanceIds, length_of_burnNonFungible h] at hlong
      norm_num at hlong
    | _ => norm_num [TokenOperation.instanceIds] at hlong
  · intro hlong
    -- Both are described as the operation, whatever the options.
    refine formsAgree_of_describe fun o => ?_
    rw [describe_of_native h]
    rcases h' with h' | ⟨call, hcall, hperforms⟩
    · exact describe_of_native h'
    · rw [describe, hcall]
      dsimp only
      rw [describeCall_of_performs hperforms (hlong ⟨call, hcall⟩)]

/-- A transfer of NFTs, by its native type. -/
def nftTransfer (ids : List UInt64) : TxMsg where
  txType := .transferNonFungibleMulti
  expiry := 0
  maxGas := 0
  maxData := 0
  gasFrom := emptyBytes32
  payload := ⟨""⟩
  msg := .transferNonFungibleMulti ⟨emptyBytes32, 0, ids⟩

/-- A transfer of NFTs, as a call with these arguments. -/
def nftTransferCall (args : Bytes) : TxMsgCall where
  moduleId := ModuleId.token
  methodId := TokenContractMethod.transferNonFungible
  args := args
  sections := none

theorem carries_nftTransferCall {args : TransferNonFungibleArgs} {enc : Bytes}
    (h : serialize args = .ok enc) :
    (nftTransferCall enc).Carries TokenContractMethod.transferNonFungible args :=
  ⟨Bool.false_ne_true, rfl, rfl, h⟩

def nftTransferCallMsg (args : Bytes) : TxMsg :=
  { nftTransfer [] with
    txType := .call
    msg := .call (nftTransferCall args) }

theorem formsAgree_nftTransfer : ∃ args,
    FormsAgree (nftTransfer [1, 2]) (nftTransferCallMsg args) { witnessCount := some 1 } := by
  obtain ⟨args, hargs⟩ := exists_ok_of_isSome
    (x := serialize (⟨emptyBytes32, emptyBytes32, 0, [1, 2]⟩ : TransferNonFungibleArgs))
    (by decide +kernel)
  exact ⟨args, (formsAgree_iff (nftTransfer [1, 2]) (nftTransferCallMsg args) _ _ rfl
    (Or.inr ⟨_, rfl, .transferNonFungible _ (carries_nftTransferCall hargs)⟩)).2
    fun _ => by decide⟩

/-- At `2 ^ 31` instances. -/
theorem not_formsAgree : ¬∀ (msg msg' : TxMsg) (op : TokenOperation) (o : FeePlanOptions),
    msg.msg.nativeOperation = some op → msg'.msg.Performs op → FormsAgree msg msg' o := by
  intro h
  have hids (n : ℕ) : ∃ ids : List UInt64, ids.length = n :=
    ⟨List.replicate n 0, List.length_replicate⟩
  obtain ⟨ids, hlength⟩ := hids (2 ^ 31)
  have hlt : ids.length < 2 ^ 32 := by omega
  obtain ⟨enc, henc⟩ := CarbonWriter.exists_writeU64Array hlt
  have hargs : serialize (⟨emptyBytes32, emptyBytes32, 0, ids⟩ : TransferNonFungibleArgs) =
      .ok _ := bind_eq_ok.2 ⟨enc, henc, rfl⟩
  have hcarries := carries_nftTransferCall hargs
  exact describe_ne_of_long {} rfl rfl hcarries hlength.ge
    (h (nftTransfer ids) (nftTransferCallMsg _) _ {} rfl
      (Or.inr ⟨_, rfl, .transferNonFungible _ hcarries⟩)).described

end PhantasmaSdk
