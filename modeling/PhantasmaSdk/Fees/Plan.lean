import PhantasmaSdk.Carbon.Envelope
import PhantasmaSdk.Carbon.TokenArgs
import PhantasmaSdk.Carbon.VmValue
import PhantasmaSdk.Fees.Operation

/-!
# Fee plans

A plan prices a message: the operations it performs are read out of it (`describe`),
each with the facts of the chain's state that the caller states, and settled as one
transaction of the size its envelope will have. A plan is *exact* if stating every
fact at its cheaper reading gives the same numbers.
-/

namespace PhantasmaSdk

open Machine

/-- The facts a message does not carry and its fee depends on. -/
structure FeePlanOptions where
  witnessCount : Option UInt32 := none
  recipientHoldsToken : Bool := false
  bigFungible : Option Bool := none
  tokenBurnedBefore : Bool := false
  supplyRowExists : Bool := false
  duplicatedSeries : Option Bool := none
  romHasMetaId : Option Bool := none
  seriesHasMetaId : Option Bool := none
  infusions : Option (List InfusedAsset) := none
  scriptUnitsAllowance : Option UInt64 := none
  scriptEventBytes : Option UInt32 := none
  scriptStorageQuanta : Option UInt32 := none
  deriving DecidableEq, Repr

structure FeePlan where
  kinds : List NativeFeeKind
  exact : Bool
  envelopeBytes : UInt32
  maxGas : UInt64
  maxData : UInt64
  expectedGasBill : UInt64
  newStorageQuanta : UInt32
  deletedStorageQuanta : UInt32
  deriving DecidableEq, Repr

/-- The message with the limits of the plan. -/
def FeePlan.apply (plan : FeePlan) (msg : TxMsg) : TxMsg :=
  { msg with maxGas := plan.maxGas, maxData := plan.maxData }

/-! ## Recognising operations -/

def lengthU32 (len : ℕ) : Result UInt32 :=
  (word32 len).elim (builder "plan_fees: length exceeds u32") pure

def instanceCount (len : ℕ) : Result UInt32 :=
  if len = 0 then builder "plan_fees: the message must carry at least one instance"
  else lengthU32 len

def scriptPart (options : FeePlanOptions) : NativeFeePart where
  kind := .script
  params := {
    scriptUnitsAllowance := options.scriptUnitsAllowance
    scriptEventBytes := options.scriptEventBytes
    scriptStorageQuanta := options.scriptStorageQuanta }

/-- A burn, which needs to know what the NFTs hold. -/
def describeBurn (tokenId : UInt64) (count : UInt32) (state : NativeFeeParams)
    (infusions : Option (List InfusedAsset)) : Result NativeFeePart :=
  match infusions with
  | none => builder "plan_fees: a burn returns whatever the NFT holds: set infusions (empty when it holds nothing) or plan through PhantasmaRpc::fees, which reads them from the chain"
  | some infusions =>
    pure {
      kind := .burnNonFungible
      params := { state with
        tokenId := some tokenId, count := some count, infusions := some infusions } }

/-- The arguments of a call, an error that is returned naming what they are of. -/
def callArgs (α : Type) [CarbonSerializable α] (name : String) (args : Bytes) : Result α :=
  match deserialize α args with
  | .ok value => pure value
  | .error (.error e) => builder s!"plan_fees: {name}: {e.toText}"
  | .error (.panic p) => .error (.panic p)

/-- The metadata of a token; no bytes are no fields. -/
def tokenMetadata (metadata : Bytes) : Result VMDynamicStruct :=
  if metadata.isEmpty then pure ⟨[]⟩
  else callArgs VMDynamicStruct "CreateToken metadata" metadata

def MsgCallArgSections.present (sections : Option MsgCallArgSections) : Bool :=
  sections.any MsgCallArgSections.hasSections

def describeCall (call : TxMsgCall) (state : NativeFeeParams) (options : FeePlanOptions)
    (infusions : Option (List InfusedAsset)) : Result NativeFeePart :=
  if MsgCallArgSections.present call.sections then pure (scriptPart options)
  else if call.moduleId = ModuleId.token then
    if call.methodId = TokenContractMethod.transferFungible then do
      let args ← callArgs TransferFungibleArgs "TransferFungible arguments" call.args
      pure {
        kind := .transferFungible
        params := { state with
          tokenId := some args.tokenId, toIsNftAddress := isNftAddress args.toAddress } }
    else if call.methodId = TokenContractMethod.transferNonFungible then do
      let args ← callArgs TransferNonFungibleArgs "TransferNonFungible arguments" call.args
      let count ← instanceCount args.instanceIds.length
      pure {
        kind := .transferNonFungible
        params := { state with
          tokenId := some args.tokenId, count := some count,
          toIsNftAddress := isNftAddress args.toAddress } }
    else if call.methodId = TokenContractMethod.mintFungible then do
      let args ← callArgs MintFungibleArgs "MintFungible arguments" call.args
      pure {
        kind := .mintFungible
        params := { state with
          tokenId := some args.tokenId, toIsNftAddress := isNftAddress args.toAddress } }
    else if call.methodId = TokenContractMethod.burnFungible then do
      let args ← callArgs BurnFungibleArgs "BurnFungible arguments" call.args
      pure { kind := .burnFungible, params := { state with tokenId := some args.tokenId } }
    else if call.methodId = TokenContractMethod.burnNonFungible then do
      let args ← callArgs BurnNonFungibleArgs "BurnNonFungible arguments" call.args
      let count ← instanceCount args.instanceIds.length
      describeBurn args.tokenId count state infusions
    else if call.methodId = TokenContractMethod.createToken then do
      let info ← callArgs TokenInfo "CreateToken arguments" call.args
      let metadata ← tokenMetadata info.metadata
      let symbolLength ← lengthU32 (utf8 info.symbol.value).length
      let tokenInfoBytes ← lengthU32 call.args.length
      pure {
        kind := .createToken
        params := {
          symbolLength, tokenInfoBytes
          nonFungible := info.flags.contains .nonFungible
          hasPreBurn := (metadata.get StandardMeta.tokenPreBurn).isSome
          hasInflationSchedule := (metadata.get StandardMeta.tokenInflationPeriod).isSome
          hasStakingOrganisation := (metadata.get StandardMeta.tokenStakingOrgId).isSome
          hasStakingRewardToken := (metadata.get StandardMeta.tokenStakingRewardToken).isSome } }
    else if call.methodId = TokenContractMethod.createTokenSeries then do
      -- The arguments are the token id, then the row.
      let seriesInfoBytes ← lengthU32 (call.args.length - 8)
      pure {
        kind := .createTokenSeries
        params := { seriesInfoBytes, seriesHasMetaId := options.seriesHasMetaId } }
    else if call.methodId = TokenContractMethod.mintPhantasmaNonFungible then do
      let args ← callArgs MintPhantasmaNonFungibleArgs "MintPhantasmaNonFungible arguments"
        call.args
      let count ← instanceCount args.tokens.length
      let romBytes ← args.tokens.mapM fun token => lengthU32 token.rom.length
      let ramBytes ← args.tokens.mapM fun token => lengthU32 token.ram.length
      let distinct ← lengthU32 (args.tokens.map fun token => token.phantasmaSeriesId).dedup.length
      pure {
        kind := .mintPhantasmaNonFungible
        params := { state with
          tokenId := some args.tokenId, count := some count, romBytes, ramBytes,
          duplicatedSeries := options.duplicatedSeries, distinctSeriesCount := some distinct,
          toIsNftAddress := isNftAddress args.address } }
    else pure (scriptPart options)
  else if call.moduleId = ModuleId.governance ∧
      call.methodId = GovernanceContractMethod.registerName then do
    let args ← callArgs RegisterNameArgs "RegisterName arguments" call.args
    let nameLength ← lengthU32 (utf8 args.name.value).length
    pure { kind := .registerName, params := { nameLength } }
  else pure (scriptPart options)

/-- The calls of a batch. What the NFTs hold is priced with the first burn, and the
    burns after it return nothing. -/
def describeCalls (state : NativeFeeParams) (options : FeePlanOptions) :
    Option (List InfusedAsset) → List TxMsgCall → Result (List NativeFeePart)
  | _, [] => pure []
  | infusions, call :: calls => do
    let part ← describeCall call state options infusions
    let infusions := if part.kind = .burnNonFungible then some [] else infusions
    let parts ← describeCalls state options infusions calls
    pure (part :: parts)

/-- The facts of the chain's state, as the caller states them. -/
def FeePlanOptions.state (options : FeePlanOptions) : NativeFeeParams where
  recipientHoldsToken := options.recipientHoldsToken
  bigFungible := options.bigFungible
  tokenBurnedBefore := options.tokenBurnedBefore
  supplyRowExists := options.supplyRowExists
  romHasMetaId := options.romHasMetaId

/-- A transfer of a fungible token, by its native type. -/
def describeTransfer (state : NativeFeeParams) (toAddress : Bytes32) (tokenId : UInt64) :
    Result (List NativeFeePart) :=
  pure [{
    kind := .transferFungible
    params := { state with
      tokenId := some tokenId, toIsNftAddress := isNftAddress toAddress } }]

/-- A transfer of NFTs, by its native type. -/
def describeNftTransfer (state : NativeFeeParams) (toAddress : Bytes32) (tokenId : UInt64)
    (count : Result UInt32) : Result (List NativeFeePart) := do
  let count ← count
  pure [{
    kind := .transferNonFungible
    params := { state with
      tokenId := some tokenId, count := some count, toIsNftAddress := isNftAddress toAddress } }]

/-- A burn of a fungible token, by its native type. -/
def describeFungibleBurn (state : NativeFeeParams) (tokenId : UInt64) :
    Result (List NativeFeePart) :=
  pure [{ kind := .burnFungible, params := { state with tokenId := some tokenId } }]

def describe (msg : TxMsg) (options : FeePlanOptions) : Result (List NativeFeePart) :=
  let state := options.state
  match msg.msg with
  | .transferFungible inner => describeTransfer state inner.toAddress inner.tokenId
  | .transferFungibleGasPayer inner => describeTransfer state inner.toAddress inner.tokenId
  | .transferNonFungibleSingle inner =>
    describeNftTransfer state inner.toAddress inner.tokenId (pure 1)
  | .transferNonFungibleSingleGasPayer inner =>
    describeNftTransfer state inner.toAddress inner.tokenId (pure 1)
  | .transferNonFungibleMulti inner => describeNftTransfer state inner.toAddress inner.tokenId
      (instanceCount inner.instanceIds.length)
  | .transferNonFungibleMultiGasPayer inner => describeNftTransfer state inner.toAddress
      inner.tokenId (instanceCount inner.instanceIds.length)
  | .mintFungible inner =>
    pure [{
      kind := .mintFungible
      params := { state with
        tokenId := some inner.tokenId, toIsNftAddress := isNftAddress inner.toAddress } }]
  | .burnFungible inner => describeFungibleBurn state inner.tokenId
  | .burnFungibleGasPayer inner => describeFungibleBurn state inner.tokenId
  | .mintNonFungible inner => do
    let rom ← lengthU32 inner.rom.length
    let ram ← lengthU32 inner.ram.length
    pure [{
      kind := .mintNonFungible
      params := { state with
        tokenId := some inner.tokenId, romBytes := [rom], ramBytes := [ram],
        toIsNftAddress := isNftAddress inner.toAddress } }]
  | .burnNonFungible inner => do
    let part ← describeBurn inner.tokenId 1 state options.infusions
    pure [part]
  | .burnNonFungibleGasPayer inner => do
    let part ← describeBurn inner.tokenId 1 state options.infusions
    pure [part]
  | .call call => do
    let part ← describeCall call state options options.infusions
    pure [part]
  | .callMulti batch => describeCalls state options options.infusions batch.calls
  | .trade _ | .phantasma _ => pure [scriptPart options]
  | .phantasmaRaw _ => builder s!"plan_fees: cannot plan fees for a {msg.txType.debug} transaction"

/-! ## Burned instances -/

structure BurnedInstance where
  tokenId : UInt64
  instanceId : UInt64
  deriving DecidableEq, Repr

/-- The instances a call burns; arguments that are refused burn none. -/
def burnedByCall (call : TxMsgCall) : List BurnedInstance :=
  if MsgCallArgSections.present call.sections then []
  else if call.moduleId ≠ ModuleId.token ∨
      call.methodId ≠ TokenContractMethod.burnNonFungible then []
  else
    match deserialize BurnNonFungibleArgs call.args with
    | .error _ => []
    | .ok args => args.instanceIds.map fun instanceId => { tokenId := args.tokenId, instanceId }

def burnedInstances (msg : TxMsg) : List BurnedInstance :=
  match msg.msg with
  | .burnNonFungible inner => [{ tokenId := inner.tokenId, instanceId := inner.instanceId }]
  | .burnNonFungibleGasPayer inner => [{ tokenId := inner.tokenId, instanceId := inner.instanceId }]
  | .call call => burnedByCall call
  | .callMulti batch => batch.calls.flatMap burnedByCall
  | _ => []

/-! ## Planning -/

/-- The facts at their cheaper readings, but for those that can be stated to be at
    the costlier one. -/
def FeePlanOptions.cheapest (options : FeePlanOptions) : FeePlanOptions :=
  { options with
    recipientHoldsToken := true
    tokenBurnedBefore := true
    supplyRowExists := true
    bigFungible := some false
    romHasMetaId := some (options.romHasMetaId.getD false)
    seriesHasMetaId := some (options.seriesHasMetaId.getD false)
    duplicatedSeries := some (options.duplicatedSeries.getD false) }

def assumptionsMattered (msg : TxMsg) (config : GasConfig) (options : FeePlanOptions)
    (transaction : NativeFeeTransactionParams) (quoted : NativeFeeEstimate) : Result Bool := do
  let parts ← describe msg options.cheapest
  let cheaper ← estimateNativeFeeBatch parts config transaction
  pure (cheaper.expectedGasBill ≠ quoted.expectedGasBill ∨ cheaper.maxGas ≠ quoted.maxGas ∨
    cheaper.maxData ≠ quoted.maxData)

/-- A plan with a budgeted part is no prediction, and is not priced again. -/
def isExact (msg : TxMsg) (config : GasConfig) (options : FeePlanOptions)
    (kinds : List NativeFeeKind) (transaction : NativeFeeTransactionParams)
    (quoted : NativeFeeEstimate) : Result Bool :=
  if .script ∈ kinds then pure false
  else do
    let mattered ← assumptionsMattered msg config options transaction quoted
    pure !mattered

def planFees (msg : TxMsg) (config : GasConfig) (options : FeePlanOptions) : Result FeePlan := do
  if requiredWitnesses msg = none ∧ options.witnessCount = none then
    builder s!"plan_fees: {msg.txType.debug} transactions choose their own witnesses: set witness_count to plan one"
  else do
    let parts ← describe msg options
    let envelopeBytes ← envelopeBytes msg options.witnessCount
    let transaction : NativeFeeTransactionParams := { envelopeBytes, payloadBytes := 0 }
    let estimate ← estimateNativeFeeBatch parts config transaction
    let kinds := parts.map NativeFeePart.kind
    let exact ← isExact msg config options kinds transaction estimate
    pure {
      kinds
      exact
      envelopeBytes
      maxGas := estimate.maxGas
      maxData := estimate.maxData
      expectedGasBill := estimate.expectedGasBill
      newStorageQuanta := estimate.newStorageQuanta
      deletedStorageQuanta := estimate.deletedStorageQuanta }

end PhantasmaSdk
