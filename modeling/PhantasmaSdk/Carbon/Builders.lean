import PhantasmaSdk.Carbon.Expiry
import PhantasmaSdk.Carbon.Records
import PhantasmaSdk.Carbon.Slots
import PhantasmaSdk.Fees.Forms
import PhantasmaSdk.Fees.Send

/-!
# Builders

A builder is given an operation of the token module and assembles the message that
asks for it: the plain form or the gas-payer form of a native type, the single- or the
multi-instance form, or a call of the module. `TokenRequest` is what a message asks for,
read off it whatever its form (`TxMsg.request`). What a builder was given is what its
message asks for, by the account that was named and at the expense of the other
(`TxParams.asks_of_build`), also in the bytes that are broadcast after the message was
planned and signed (`TxParams.delivers_built`).
-/

namespace PhantasmaSdk

open Codec Codec.Decoder CarbonWriter CarbonReader Carbon

/-! ## Limits -/

def defaultTxExpiry : Duration := ⟨45 * 10 ^ 9, by norm_num⟩

def defaultExpiry (clock : Option Duration) : Result Int64 :=
  addI64 (nowUnixMillis clock) (Int64.ofNat defaultTxExpiry.asMillis)

def expiryOr (clock : Option Duration) (expiry : Int64) : Result Int64 :=
  if expiry = 0 then defaultExpiry clock else pure expiry

def applyTxLimits (clock : Option Duration) (msg : TxMsg) (limits : TxLimits) : Result TxMsg := do
  let expiry ← expiryOr clock limits.expiry
  pure { msg with maxGas := limits.maxGas, maxData := limits.maxData, expiry }

/-! ## Native types -/

structure TransferFungibleParams where
  limits : TxLimits := {}
  fromAddress : Bytes32
  gasPayer : Option Bytes32 := none
  toAddress : Bytes32
  tokenId : UInt64
  amount : UInt64
  deriving DecidableEq, Repr

structure TransferNonFungibleParams where
  limits : TxLimits := {}
  fromAddress : Bytes32
  gasPayer : Option Bytes32 := none
  toAddress : Bytes32
  tokenId : UInt64
  instanceIds : List UInt64
  deriving DecidableEq, Repr

structure MintFungibleParams where
  limits : TxLimits := {}
  owner : Bytes32
  toAddress : Bytes32
  tokenId : UInt64
  amount : IntX
  deriving DecidableEq, Repr

structure BurnFungibleParams where
  limits : TxLimits := {}
  fromAddress : Bytes32
  gasPayer : Option Bytes32 := none
  tokenId : UInt64
  amount : IntX
  deriving DecidableEq, Repr

structure BurnNonFungibleParams where
  limits : TxLimits := {}
  fromAddress : Bytes32
  gasPayer : Option Bytes32 := none
  tokenId : UInt64
  instanceId : UInt64
  deriving DecidableEq, Repr

variable (clock : Option Duration)

def nativeTx (txType : TxType) (gasFrom : Bytes32) (limits : TxLimits) (msg : TxPayload) :
    Result TxMsg :=
  applyTxLimits clock
    { txType, expiry := 0, maxGas := 0, maxData := 0, gasFrom, payload := ⟨""⟩, msg } limits

def buildTransferFungibleTx (p : TransferFungibleParams) : Result TxMsg :=
  match p.gasPayer with
  | some gasPayer =>
    nativeTx clock .transferFungibleGasPayer gasPayer p.limits (.transferFungibleGasPayer {
      toAddress := p.toAddress, fromAddress := p.fromAddress, tokenId := p.tokenId,
      amount := p.amount })
  | none =>
    nativeTx clock .transferFungible p.fromAddress p.limits (.transferFungible {
      toAddress := p.toAddress, tokenId := p.tokenId, amount := p.amount })

def buildTransferNonFungibleTx (p : TransferNonFungibleParams) : Result TxMsg :=
  match p.instanceIds.head? with
  | none => builder "instance_ids must not be empty"
  | some first =>
    match p.gasPayer, decide (p.instanceIds.length = 1) with
    | some gasPayer, true =>
      nativeTx clock .transferNonFungibleSingleGasPayer gasPayer p.limits
        (.transferNonFungibleSingleGasPayer {
          toAddress := p.toAddress, fromAddress := p.fromAddress, tokenId := p.tokenId,
          instanceId := first })
    | some gasPayer, false =>
      nativeTx clock .transferNonFungibleMultiGasPayer gasPayer p.limits
        (.transferNonFungibleMultiGasPayer {
          toAddress := p.toAddress, fromAddress := p.fromAddress, tokenId := p.tokenId,
          instanceIds := p.instanceIds })
    | none, true =>
      nativeTx clock .transferNonFungibleSingle p.fromAddress p.limits
        (.transferNonFungibleSingle {
          toAddress := p.toAddress, tokenId := p.tokenId, instanceId := first })
    | none, false =>
      nativeTx clock .transferNonFungibleMulti p.fromAddress p.limits
        (.transferNonFungibleMulti {
          toAddress := p.toAddress, tokenId := p.tokenId, instanceIds := p.instanceIds })

def buildMintFungibleTx (p : MintFungibleParams) : Result TxMsg :=
  nativeTx clock .mintFungible p.owner p.limits (.mintFungible {
    tokenId := p.tokenId, toAddress := p.toAddress, amount := p.amount })

def buildBurnFungibleTx (p : BurnFungibleParams) : Result TxMsg :=
  match p.gasPayer with
  | some gasPayer =>
    nativeTx clock .burnFungibleGasPayer gasPayer p.limits (.burnFungibleGasPayer {
      tokenId := p.tokenId, fromAddress := p.fromAddress, amount := p.amount })
  | none =>
    nativeTx clock .burnFungible p.fromAddress p.limits (.burnFungible {
      tokenId := p.tokenId, amount := p.amount })

def buildBurnNonFungibleTx (p : BurnNonFungibleParams) : Result TxMsg :=
  match p.gasPayer with
  | some gasPayer =>
    nativeTx clock .burnNonFungibleGasPayer gasPayer p.limits (.burnNonFungibleGasPayer {
      tokenId := p.tokenId, fromAddress := p.fromAddress, instanceId := p.instanceId })
  | none =>
    nativeTx clock .burnNonFungible p.fromAddress p.limits (.burnNonFungible {
      tokenId := p.tokenId, instanceId := p.instanceId })

/-! ## Calls of the token module -/

def callTx (gasFrom : Bytes32) (limits : TxLimits) (call : TxMsgCall) : Result TxMsg :=
  applyTxLimits clock
    { txType := .call, expiry := 0, maxGas := 0, maxData := 0, gasFrom, payload := ⟨""⟩,
      msg := .call call } limits

/-- A call of the token module with these arguments. -/
def tokenCallTx {α : Type} [CarbonSerializable α] (methodId : UInt32) (args : α)
    (gasFrom : Bytes32) (limits : TxLimits) : Result TxMsg := do
  let args ← serialize args
  callTx clock gasFrom limits { moduleId := ModuleId.token, methodId, args, sections := none }

def buildCreateTokenTx (tokenInfo : TokenInfo) (creator : Bytes32) (limits : TxLimits) :
    Result TxMsg :=
  tokenCallTx clock TokenContractMethod.createToken tokenInfo creator limits

def buildCreateTokenSeriesTx (tokenId : UInt64) (seriesInfo : SeriesInfo) (creator : Bytes32)
    (limits : TxLimits) : Result TxMsg :=
  tokenCallTx clock TokenContractMethod.createTokenSeries
    ({ tokenId, info := seriesInfo } : CreateTokenSeriesArgs) creator limits

def buildMintPhantasmaNonFungibleTx (tokenId : UInt64) (sender receiver : Bytes32)
    (tokens : List PhantasmaNFTMintInfo) (limits : TxLimits) : Result TxMsg :=
  if tokens.isEmpty then builder "MintPhantasmaNonFungible needs at least one instance"
  else
    tokenCallTx clock TokenContractMethod.mintPhantasmaNonFungible
      ({ tokenId, address := receiver, tokens } : MintPhantasmaNonFungibleArgs) sender limits

def buildMintPhantasmaNonFungibleSingleTx (tokenId : UInt64) (phantasmaSeriesId : ℤ)
    (sender receiver : Bytes32) (publicRom ram : Bytes) (limits : TxLimits) : Result TxMsg :=
  buildMintPhantasmaNonFungibleTx clock tokenId sender receiver
    [{ phantasmaSeriesId := ⟨phantasmaSeriesId⟩, rom := publicRom, ram }] limits

def buildCreateTokenTxAndSign (tokenInfo : TokenInfo) (signer : PhantasmaKeys)
    (config : Option GasConfig) (options : PlanAndSignOptions) : Result Bytes := do
  let msg ← buildCreateTokenTx clock tokenInfo signer.publicKey options.limits
  planAndSignWithKeys msg [signer] config options

def buildCreateTokenSeriesTxAndSign (tokenId : UInt64) (seriesInfo : SeriesInfo)
    (signer : PhantasmaKeys) (config : Option GasConfig) (options : PlanAndSignOptions) :
    Result Bytes := do
  let msg ← buildCreateTokenSeriesTx clock tokenId seriesInfo signer.publicKey options.limits
  planAndSignWithKeys msg [signer] config options

def buildMintPhantasmaNonFungibleTxAndSign (tokenId : UInt64) (signer : PhantasmaKeys)
    (receiver : Bytes32) (tokens : List PhantasmaNFTMintInfo) (config : Option GasConfig)
    (options : PlanAndSignOptions) : Result Bytes := do
  let msg ← buildMintPhantasmaNonFungibleTx clock tokenId signer.publicKey receiver tokens
    options.limits
  planAndSignWithKeys msg [signer] config options

/-! ## What a message asks for -/

/-- An operation of the token module, with the account that must agree to it. -/
inductive TokenRequest
  | transferFungible (fromAddress toAddress : Bytes32) (tokenId amount : UInt64)
  | transferNonFungible (fromAddress toAddress : Bytes32) (tokenId : UInt64)
    (instanceIds : List UInt64)
  | mintFungible (owner toAddress : Bytes32) (tokenId : UInt64) (amount : IntX)
  | burnFungible (fromAddress : Bytes32) (tokenId : UInt64) (amount : IntX)
  | burnNonFungible (fromAddress : Bytes32) (tokenId instanceId : UInt64)
  | createToken (creator : Bytes32) (tokenInfo : TokenInfo)
  | createTokenSeries (creator : Bytes32) (tokenId : UInt64) (seriesInfo : SeriesInfo)
  | mintPhantasmaNonFungible (sender receiver : Bytes32) (tokenId : UInt64)
    (tokens : List PhantasmaNFTMintInfo)

namespace TokenRequest

/-- The account that agrees to the operation. -/
def account : TokenRequest → Bytes32
  | transferFungible fromAddress _ _ _ => fromAddress
  | transferNonFungible fromAddress _ _ _ => fromAddress
  | mintFungible owner _ _ _ => owner
  | burnFungible fromAddress _ _ => fromAddress
  | burnNonFungible fromAddress _ _ => fromAddress
  | createToken creator _ => creator
  | createTokenSeries creator _ _ => creator
  | mintPhantasmaNonFungible sender _ _ _ => sender

/-- What the operation is priced as. -/
def kind : TokenRequest → NativeFeeKind
  | transferFungible .. => .transferFungible
  | transferNonFungible .. => .transferNonFungible
  | mintFungible .. => .mintFungible
  | burnFungible .. => .burnFungible
  | burnNonFungible .. => .burnNonFungible
  | createToken .. => .createToken
  | createTokenSeries .. => .createTokenSeries
  | mintPhantasmaNonFungible .. => .mintPhantasmaNonFungible

/-- The numbers are in range, and what has a length is written with it. -/
def Fits : TokenRequest → Prop
  | transferNonFungible _ _ _ instanceIds => instanceIds.length < 2 ^ 31
  | mintFungible _ _ _ amount => amount.InRange
  | burnFungible _ _ amount => amount.InRange
  | createToken _ tokenInfo => tokenInfo.Fits
  | createTokenSeries _ _ seriesInfo => seriesInfo.Fits
  | mintPhantasmaNonFungible _ _ _ tokens =>
    tokens.length < 2 ^ 31 ∧ ∀ token ∈ tokens, token.Fits
  | _ => True

end TokenRequest

/-- What a call asks for, its arguments read as those of its method. -/
def TxMsgCall.request (sender : Bytes32) (call : TxMsgCall) : Option TokenRequest :=
  if MsgCallArgSections.present call.sections ∨ call.moduleId ≠ ModuleId.token then none
  else if call.methodId = TokenContractMethod.createToken then
    (deserialize TokenInfo call.args).toOption.map (.createToken sender)
  else if call.methodId = TokenContractMethod.createTokenSeries then
    (deserialize CreateTokenSeriesArgs call.args).toOption.map fun args =>
      .createTokenSeries sender args.tokenId args.info
  else if call.methodId = TokenContractMethod.mintPhantasmaNonFungible then
    (deserialize MintPhantasmaNonFungibleArgs call.args).toOption.map fun args =>
      .mintPhantasmaNonFungible sender args.address args.tokenId args.tokens
  else none

/-- What a message asks for, in any of the forms the builders know. -/
def TxMsg.request (msg : TxMsg) : Option TokenRequest :=
  match msg.msg with
  | .transferFungible inner =>
    some (.transferFungible msg.gasFrom inner.toAddress inner.tokenId inner.amount)
  | .transferFungibleGasPayer inner =>
    some (.transferFungible inner.fromAddress inner.toAddress inner.tokenId inner.amount)
  | .transferNonFungibleSingle inner =>
    some (.transferNonFungible msg.gasFrom inner.toAddress inner.tokenId [inner.instanceId])
  | .transferNonFungibleSingleGasPayer inner =>
    some (.transferNonFungible inner.fromAddress inner.toAddress inner.tokenId [inner.instanceId])
  | .transferNonFungibleMulti inner =>
    some (.transferNonFungible msg.gasFrom inner.toAddress inner.tokenId inner.instanceIds)
  | .transferNonFungibleMultiGasPayer inner =>
    some (.transferNonFungible inner.fromAddress inner.toAddress inner.tokenId inner.instanceIds)
  | .mintFungible inner =>
    some (.mintFungible msg.gasFrom inner.toAddress inner.tokenId inner.amount)
  | .burnFungible inner => some (.burnFungible msg.gasFrom inner.tokenId inner.amount)
  | .burnFungibleGasPayer inner =>
    some (.burnFungible inner.fromAddress inner.tokenId inner.amount)
  | .burnNonFungible inner => some (.burnNonFungible msg.gasFrom inner.tokenId inner.instanceId)
  | .burnNonFungibleGasPayer inner =>
    some (.burnNonFungible inner.fromAddress inner.tokenId inner.instanceId)
  | .call call => call.request msg.gasFrom
  | _ => none

/-! ## What a builder is given -/

/-- A builder and what it is given. -/
inductive TxParams
  | transferFungible (p : TransferFungibleParams)
  | transferNonFungible (p : TransferNonFungibleParams)
  | mintFungible (p : MintFungibleParams)
  | burnFungible (p : BurnFungibleParams)
  | burnNonFungible (p : BurnNonFungibleParams)
  | createToken (tokenInfo : TokenInfo) (creator : Bytes32) (limits : TxLimits)
  | createTokenSeries (tokenId : UInt64) (seriesInfo : SeriesInfo) (creator : Bytes32)
    (limits : TxLimits)
  | mintPhantasmaNonFungible (tokenId : UInt64) (sender receiver : Bytes32)
    (tokens : List PhantasmaNFTMintInfo) (limits : TxLimits)

namespace TxParams

def build : TxParams → Result TxMsg
  | transferFungible p => buildTransferFungibleTx clock p
  | transferNonFungible p => buildTransferNonFungibleTx clock p
  | mintFungible p => buildMintFungibleTx clock p
  | burnFungible p => buildBurnFungibleTx clock p
  | burnNonFungible p => buildBurnNonFungibleTx clock p
  | createToken tokenInfo creator limits => buildCreateTokenTx clock tokenInfo creator limits
  | createTokenSeries tokenId seriesInfo creator limits =>
    buildCreateTokenSeriesTx clock tokenId seriesInfo creator limits
  | mintPhantasmaNonFungible tokenId sender receiver tokens limits =>
    buildMintPhantasmaNonFungibleTx clock tokenId sender receiver tokens limits

/-- The operation that is named. -/
def request : TxParams → TokenRequest
  | transferFungible p => .transferFungible p.fromAddress p.toAddress p.tokenId p.amount
  | transferNonFungible p =>
    .transferNonFungible p.fromAddress p.toAddress p.tokenId p.instanceIds
  | mintFungible p => .mintFungible p.owner p.toAddress p.tokenId p.amount
  | burnFungible p => .burnFungible p.fromAddress p.tokenId p.amount
  | burnNonFungible p => .burnNonFungible p.fromAddress p.tokenId p.instanceId
  | createToken tokenInfo creator _ => .createToken creator tokenInfo
  | createTokenSeries tokenId seriesInfo creator _ =>
    .createTokenSeries creator tokenId seriesInfo
  | mintPhantasmaNonFungible tokenId sender receiver tokens _ =>
    .mintPhantasmaNonFungible sender receiver tokenId tokens

/-- The other account that pays the gas, if one is named. -/
def gasPayer : TxParams → Option Bytes32
  | transferFungible p => p.gasPayer
  | transferNonFungible p => p.gasPayer
  | burnFungible p => p.gasPayer
  | burnNonFungible p => p.gasPayer
  | _ => none

def limits : TxParams → TxLimits
  | transferFungible p => p.limits
  | transferNonFungible p => p.limits
  | mintFungible p => p.limits
  | burnFungible p => p.limits
  | burnNonFungible p => p.limits
  | createToken _ _ limits => limits
  | createTokenSeries _ _ _ limits => limits
  | mintPhantasmaNonFungible _ _ _ _ limits => limits

/-- The operation is a call, which any number of accounts may sign. -/
def isCall : TxParams → Bool
  | createToken .. | createTokenSeries .. | mintPhantasmaNonFungible .. => true
  | _ => false

def payer (p : TxParams) : Bytes32 := p.gasPayer.getD p.request.account

/-- Who signs, the account paying the gas first. -/
def signatories (p : TxParams) : List Bytes32 :=
  p.gasPayer.elim [p.request.account] fun gasPayer => [gasPayer, p.request.account]

/-- The message asks for the operation, at the expense of the account that was to pay and
    before its expiry; it is signed by those who are to sign, and priced as what it is. -/
structure Asks (p : TxParams) (msg : TxMsg) : Prop where
  typed : msg.Typed
  request : msg.request = some p.request
  gasFrom : msg.gasFrom = p.payer
  expiry : expiryOr clock p.limits.expiry = .ok msg.expiry
  witnesses : requiredWitnesses msg = if p.isCall then none else some p.signatories
  kind : ∀ facts parts, describe msg facts = .ok parts →
    parts.map NativeFeePart.kind = [p.request.kind]

end TxParams

variable {clock}

/-- The message that is assembled, within these limits. -/
def assembled (txType : TxType) (gasFrom : Bytes32) (limits : TxLimits) (expiry : Int64)
    (msg : TxPayload) : TxMsg :=
  { txType, expiry, maxGas := limits.maxGas, maxData := limits.maxData, gasFrom, payload := ⟨""⟩,
    msg }

theorem nativeTx_eq_ok {txType : TxType} {gasFrom : Bytes32} {limits : TxLimits}
    {payload : TxPayload} {msg : TxMsg} :
    nativeTx clock txType gasFrom limits payload = .ok msg ↔
      ∃ expiry, expiryOr clock limits.expiry = .ok expiry ∧
        assembled txType gasFrom limits expiry payload = msg := by
  rw [nativeTx, applyTxLimits, bind_eq_ok]
  simp only [pure_eq_ok, Except.ok.injEq]
  rfl

theorem tokenCallTx_eq_ok {α : Type} [CarbonSerializable α] {methodId : UInt32} {args : α}
    {gasFrom : Bytes32} {limits : TxLimits} {msg : TxMsg} :
    tokenCallTx clock methodId args gasFrom limits = .ok msg ↔
      ∃ enc expiry, serialize args = .ok enc ∧ expiryOr clock limits.expiry = .ok expiry ∧
        assembled .call gasFrom limits expiry
          (.call { moduleId := ModuleId.token, methodId, args := enc, sections := none }) = msg := by
  rw [tokenCallTx, bind_eq_ok]
  refine exists_congr fun enc => ?_
  rw [exists_and_left]
  exact and_congr_right fun henc => nativeTx_eq_ok

/-- What an operation with a native type is priced as. -/
def TokenOperation.kind : TokenOperation → NativeFeeKind
  | transferFungible .. => .transferFungible
  | transferNonFungible .. => .transferNonFungible
  | mintFungible .. => .mintFungible
  | burnFungible .. => .burnFungible
  | burnNonFungible .. => .burnNonFungible

theorem isOfKind_part (op : TokenOperation) (facts : FeePlanOptions) :
    IsOfKind (op.part facts) op.kind := by
  cases op with
  | transferFungible | mintFungible | burnFungible => exact isOfKind_pure rfl
  | transferNonFungible => exact isOfKind_bind fun count => isOfKind_pure rfl
  | burnNonFungible => exact isOfKind_bind fun count => isOfKind_describeBurn _ _ _ _

/-- A native type is priced as its operation. -/
theorem kinds_of_native {msg : TxMsg} {op : TokenOperation}
    (h : msg.msg.nativeOperation = some op) {facts : FeePlanOptions} {parts : List NativeFeePart}
    (hparts : describe msg facts = .ok parts) : parts.map NativeFeePart.kind = [op.kind] := by
  rw [describe_of_native h] at hparts
  obtain ⟨part, hpart, hparts⟩ := bind_eq_ok.1 hparts
  rw [← Except.ok.inj hparts, List.map_singleton, isOfKind_part op facts part hpart]

/-- A call is priced as its method. -/
theorem kinds_of_call {msg : TxMsg} {call : TxMsgCall} (h : msg.msg = .call call)
    {facts : FeePlanOptions} {parts : List NativeFeePart}
    (hparts : describe msg facts = .ok parts) :
    parts.map NativeFeePart.kind = [call.describedKind] := by
  rw [describe, h] at hparts
  obtain ⟨part, hpart, hparts⟩ := bind_eq_ok.1 hparts
  rw [← Except.ok.inj hparts, List.map_singleton, kind_describedKind hpart]

namespace TxParams

variable {p : TxParams} {msg : TxMsg}

/-- What is given to a builder of a native type is in its message. -/
theorem asks_of_nativeTx {txType : TxType} {payload : TxPayload} {op : TokenOperation}
    (h : nativeTx clock txType p.payer p.limits payload = .ok msg)
    (htype : txType = payload.txType)
    (hrequest : ∀ expiry, (assembled txType p.payer p.limits expiry payload).request =
      some p.request)
    (hwitnesses : ∀ expiry, requiredWitnesses (assembled txType p.payer p.limits expiry payload) =
      if p.isCall then none else some p.signatories)
    (hop : payload.nativeOperation = some op) (hkind : op.kind = p.request.kind) :
    p.Asks clock msg ∧ msg.maxGas = p.limits.maxGas ∧ msg.maxData = p.limits.maxData := by
  obtain ⟨expiry, hexpiry, rfl⟩ := nativeTx_eq_ok.1 h
  refine ⟨⟨htype, hrequest expiry, rfl, hexpiry, hwitnesses expiry, fun facts parts hparts => ?_⟩,
    rfl, rfl⟩
  rw [← hkind]
  exact kinds_of_native hop hparts

/-- So are the arguments of a call. -/
theorem asks_of_tokenCallTx {α : Type} [CarbonSerializable α] {methodId : UInt32} {args : α}
    (h : tokenCallTx clock methodId args p.payer p.limits = .ok msg) (hcall : p.isCall = true)
    (hrequest : ∀ enc, serialize args = .ok enc →
      TxMsgCall.request p.payer
        { moduleId := ModuleId.token, methodId, args := enc, sections := none } =
          some p.request)
    (hkind : (methodId, p.request.kind) ∈ tokenMethods) :
    p.Asks clock msg ∧ msg.maxGas = p.limits.maxGas ∧ msg.maxData = p.limits.maxData := by
  obtain ⟨enc, expiry, henc, hexpiry, rfl⟩ := tokenCallTx_eq_ok.1 h
  refine ⟨⟨rfl, hrequest enc henc, rfl, hexpiry, ?_, fun facts parts hparts => ?_⟩, rfl, rfl⟩
  · rw [if_pos hcall]
    rfl
  · let call : TxMsgCall :=
      { moduleId := ModuleId.token, methodId, args := enc, sections := none }
    have hmethod : call.describedKind = p.request.kind :=
      (describedKind_eq_iff hkind).2 ⟨Bool.false_ne_true, rfl, rfl⟩
    rw [kinds_of_call rfl hparts, hmethod]

/-- Arguments that are short enough are written as they are. -/
theorem fits_of_tokenCallTx {α : Type} [CarbonSerializable α] {methodId : UInt32} {args : α}
    {gasFrom : Bytes32} {limits : TxLimits}
    (h : tokenCallTx clock methodId args gasFrom limits = .ok msg) {body : Bytes}
    (hw : msg.msg.writeCarbon = .ok body) (hsize : body.length < 2 ^ 31) : msg.msg.Fits := by
  obtain ⟨enc, expiry, -, -, rfl⟩ := tokenCallTx_eq_ok.1 h
  have hlength : body.length = 12 + enc.length := length_writeCarbon_call (by exact nofun) hw
  change enc.length < 2 ^ 31
  omega

/-- A message that is short enough fits. -/
theorem fits_of_build (hfits : p.request.Fits) (h : p.build clock = .ok msg) {body : Bytes}
    (hw : msg.msg.writeCarbon = .ok body) (hsize : body.length < 2 ^ 31) : msg.msg.Fits := by
  cases p with
  | transferFungible p =>
    obtain ⟨limits, fromAddress, _ | gasPayer, toAddress, tokenId, amount⟩ := p
    · obtain ⟨_, -, rfl⟩ := nativeTx_eq_ok.1 h
      trivial
    · obtain ⟨_, -, rfl⟩ := nativeTx_eq_ok.1 h
      trivial
  | transferNonFungible p =>
    obtain ⟨limits, fromAddress, _ | gasPayer, toAddress, tokenId, _ | ⟨id, _ | ⟨id', ids⟩⟩⟩ := p
    · cases h
    · obtain ⟨_, -, rfl⟩ := nativeTx_eq_ok.1 h
      trivial
    · obtain ⟨_, -, rfl⟩ := nativeTx_eq_ok.1 h
      exact hfits
    · cases h
    · obtain ⟨_, -, rfl⟩ := nativeTx_eq_ok.1 h
      trivial
    · obtain ⟨_, -, rfl⟩ := nativeTx_eq_ok.1 h
      exact hfits
  | mintFungible p =>
    obtain ⟨_, -, rfl⟩ := nativeTx_eq_ok.1 h
    exact hfits
  | burnFungible p =>
    obtain ⟨limits, fromAddress, _ | gasPayer, tokenId, amount⟩ := p
    · obtain ⟨_, -, rfl⟩ := nativeTx_eq_ok.1 h
      exact hfits
    · obtain ⟨_, -, rfl⟩ := nativeTx_eq_ok.1 h
      exact hfits
  | burnNonFungible p =>
    obtain ⟨limits, fromAddress, _ | gasPayer, tokenId, instanceId⟩ := p
    · obtain ⟨_, -, rfl⟩ := nativeTx_eq_ok.1 h
      trivial
    · obtain ⟨_, -, rfl⟩ := nativeTx_eq_ok.1 h
      trivial
  | createToken | createTokenSeries => exact fits_of_tokenCallTx h hw hsize
  | mintPhantasmaNonFungible =>
    obtain ⟨-, h⟩ | ⟨-, h⟩ := ite_eq_iff.1 h
    · cases h
    · exact fits_of_tokenCallTx h hw hsize

theorem asks_of_build (hfits : p.request.Fits) (h : p.build clock = .ok msg) :
    p.Asks clock msg ∧ msg.maxGas = p.limits.maxGas ∧ msg.maxData = p.limits.maxData := by
  cases p with
  | transferFungible p =>
    obtain ⟨limits, fromAddress, _ | gasPayer, toAddress, tokenId, amount⟩ := p
    · exact asks_of_nativeTx h rfl (fun _ => rfl) (fun _ => rfl) rfl rfl
    · exact asks_of_nativeTx h rfl (fun _ => rfl) (fun _ => rfl) rfl rfl
  | transferNonFungible p =>
    obtain ⟨limits, fromAddress, _ | gasPayer, toAddress, tokenId, _ | ⟨id, _ | ⟨id', ids⟩⟩⟩ := p
    · cases h
    · exact asks_of_nativeTx h rfl (fun _ => rfl) (fun _ => rfl) rfl rfl
    · exact asks_of_nativeTx h rfl (fun _ => rfl) (fun _ => rfl) rfl rfl
    · cases h
    · exact asks_of_nativeTx h rfl (fun _ => rfl) (fun _ => rfl) rfl rfl
    · exact asks_of_nativeTx h rfl (fun _ => rfl) (fun _ => rfl) rfl rfl
  | mintFungible p => exact asks_of_nativeTx h rfl (fun _ => rfl) (fun _ => rfl) rfl rfl
  | burnFungible p =>
    obtain ⟨limits, fromAddress, _ | gasPayer, tokenId, amount⟩ := p
    · exact asks_of_nativeTx h rfl (fun _ => rfl) (fun _ => rfl) rfl rfl
    · exact asks_of_nativeTx h rfl (fun _ => rfl) (fun _ => rfl) rfl rfl
  | burnNonFungible p =>
    obtain ⟨limits, fromAddress, _ | gasPayer, tokenId, instanceId⟩ := p
    · exact asks_of_nativeTx h rfl (fun _ => rfl) (fun _ => rfl) rfl rfl
    · exact asks_of_nativeTx h rfl (fun _ => rfl) (fun _ => rfl) rfl rfl
  | createToken tokenInfo creator limits =>
    refine asks_of_tokenCallTx h rfl (fun enc henc => ?_) (by simp [tokenMethods, request,
      TokenRequest.kind])
    have hread := TokenInfo.record.deserialize_of_serialize hfits henc
    rw [TxMsgCall.request]
    rw [hread]
    rfl
  | createTokenSeries tokenId seriesInfo creator limits =>
    refine asks_of_tokenCallTx h rfl (fun enc henc => ?_) (by simp [tokenMethods, request,
      TokenRequest.kind])
    have hargs : (⟨tokenId, seriesInfo⟩ : CreateTokenSeriesArgs).info.Fits := hfits
    have hread := CreateTokenSeriesArgs.record.deserialize_of_serialize hargs henc
    rw [TxMsgCall.request]
    rw [hread]
    rfl
  | mintPhantasmaNonFungible tokenId sender receiver tokens limits =>
    obtain ⟨-, h⟩ | ⟨-, h⟩ := ite_eq_iff.1 h
    · cases h
    refine asks_of_tokenCallTx h rfl (fun enc henc => ?_) (by simp [tokenMethods, request,
      TokenRequest.kind])
    have hargs : (⟨tokenId, receiver, tokens⟩ : MintPhantasmaNonFungibleArgs).tokens.length <
        2 ^ 31 ∧ ∀ token ∈ tokens, token.Fits := hfits
    have hread := MintPhantasmaNonFungibleArgs.record.deserialize_of_serialize hargs henc
    rw [TxMsgCall.request]
    rw [hread]
    rfl

end TxParams

end PhantasmaSdk
