import PhantasmaSdk.Fees.Operation

/-!
# The gas config a node answers with

A node answers `getGasConfig` with its prices, whose 64-bit fields ride as decimal
text, and with the parameters of its chain. The answer becomes a `GasConfig` or is
refused: with a field missing that the version of the config has, a field that is no
64-bit number, or a price of block data other than the one this SDK bills.
-/

namespace PhantasmaSdk

open Machine

/-- `u64::from_str` on text that is not empty: a digit that is none is told before
    a number too large. -/
def parseU64 (text : String) : Except String UInt64 :=
  let digits := match text.toList with
    | ['+'] => ['+']
    | '+' :: digits => digits
    | digits => digits
  let value : Except String ℕ := digits.foldlM (fun value c =>
    if ¬c.isDigit then .error "invalid digit found in string"
    else if 2 ^ 64 ≤ 10 * value + (c.toNat - '0'.toNat) then
      .error "number too large to fit in target type"
    else .ok (10 * value + (c.toNat - '0'.toNat))) 0
  value.map UInt64.ofNat

structure GasConfigDataResult where
  version : UInt8 := 0
  maxNameLength : UInt8 := 0
  maxTokenSymbolLength : UInt8 := 0
  feeShift : UInt8 := 0
  maxStructureSize : UInt32 := 0
  feeMultiplier : Option String := none
  gasTokenId : Option String := none
  dataTokenId : Option String := none
  minimumGasOffer : Option String := none
  dataEscrowPerRow : Option String := none
  gasFeeTransfer : Option String := none
  gasFeeQuery : Option String := none
  gasFeeCreateTokenBase : Option String := none
  gasFeeCreateTokenSymbol : Option String := none
  gasFeeCreateTokenSeries : Option String := none
  gasFeePerByte : Option String := none
  gasFeeRegisterName : Option String := none
  gasBurnRatioMul : Option String := none
  gasBurnRatioShift : UInt8 := 0
  minimumGasBill : Option String := none
  gasProducerRatioMul : Option String := none
  gasProducerRatioShift : Option UInt8 := none
  gasDappRatioMul : Option String := none
  gasDappRatioShift : Option UInt8 := none
  policyFeeCreateTokenBase : Option String := none
  policyFeeCreateTokenSymbol : Option String := none
  policyFeeCreateTokenSeries : Option String := none
  policyFeeRegisterName : Option String := none
  legacyDataEscrowPerRow : Option String := none
  deriving DecidableEq, Repr

/-- An answer to `getGasConfig`, the durations in milliseconds. -/
structure GasConfigResult where
  gasModelVersion : UInt32 := 0
  gasConfig : Option GasConfigDataResult := none
  blockRateTarget : UInt32 := 0
  expiryWindow : UInt32 := 0
  unitsPerBlockDataByte : Option UInt32 := none
  deriving DecidableEq, Repr

def missingGasConfigField {α : Type} (fieldName : String) : Result α :=
  rpc none s!"getGasConfig field {fieldName} is missing or empty"

def parseU64Field (value : Option String) (fieldName : String) : Result UInt64 :=
  match value.filter (· ≠ "") with
  | none => missingGasConfigField fieldName
  | some text =>
    match parseU64 text with
    | .ok value => pure value
    | .error err => rpc none s!"getGasConfig field {fieldName}: {err}"

namespace GasConfigDataResult

/-- The fields every version has. -/
def toGasConfig (data : GasConfigDataResult) : Result GasConfig := do
  let feeMultiplier ← parseU64Field data.feeMultiplier "feeMultiplier"
  let gasTokenId ← parseU64Field data.gasTokenId "gasTokenId"
  let dataTokenId ← parseU64Field data.dataTokenId "dataTokenId"
  let minimumGasOffer ← parseU64Field data.minimumGasOffer "minimumGasOffer"
  let dataEscrowPerRow ← parseU64Field data.dataEscrowPerRow "dataEscrowPerRow"
  let gasFeeTransfer ← parseU64Field data.gasFeeTransfer "gasFeeTransfer"
  let gasFeeQuery ← parseU64Field data.gasFeeQuery "gasFeeQuery"
  let gasFeeCreateTokenBase ← parseU64Field data.gasFeeCreateTokenBase "gasFeeCreateTokenBase"
  let gasFeeCreateTokenSymbol ← parseU64Field data.gasFeeCreateTokenSymbol "gasFeeCreateTokenSymbol"
  let gasFeeCreateTokenSeries ← parseU64Field data.gasFeeCreateTokenSeries "gasFeeCreateTokenSeries"
  let gasFeePerByte ← parseU64Field data.gasFeePerByte "gasFeePerByte"
  let gasFeeRegisterName ← parseU64Field data.gasFeeRegisterName "gasFeeRegisterName"
  let gasBurnRatioMul ← parseU64Field data.gasBurnRatioMul "gasBurnRatioMul"
  pure {
    version := data.version, maxNameLength := data.maxNameLength,
    maxTokenSymbolLength := data.maxTokenSymbolLength, feeShift := data.feeShift,
    maxStructureSize := data.maxStructureSize, feeMultiplier, gasTokenId, dataTokenId,
    minimumGasOffer, dataEscrowPerRow, gasFeeTransfer, gasFeeQuery, gasFeeCreateTokenBase,
    gasFeeCreateTokenSymbol, gasFeeCreateTokenSeries, gasFeePerByte, gasFeeRegisterName,
    gasBurnRatioMul, gasBurnRatioShift := data.gasBurnRatioShift }

/-- The fields of a version from 1 on, zero before. -/
def extend (data : GasConfigDataResult) (config : GasConfig) : Result GasConfig := do
  let minimumGasBill ← parseU64Field data.minimumGasBill "minimumGasBill"
  let gasProducerRatioMul ← parseU64Field data.gasProducerRatioMul "gasProducerRatioMul"
  let gasProducerRatioShift ← data.gasProducerRatioShift.elim
    (missingGasConfigField "gasProducerRatioShift") pure
  let gasDappRatioMul ← parseU64Field data.gasDappRatioMul "gasDappRatioMul"
  let gasDappRatioShift ← data.gasDappRatioShift.elim
    (missingGasConfigField "gasDappRatioShift") pure
  let policyFeeCreateTokenBase ←
    parseU64Field data.policyFeeCreateTokenBase "policyFeeCreateTokenBase"
  let policyFeeCreateTokenSymbol ←
    parseU64Field data.policyFeeCreateTokenSymbol "policyFeeCreateTokenSymbol"
  let policyFeeCreateTokenSeries ←
    parseU64Field data.policyFeeCreateTokenSeries "policyFeeCreateTokenSeries"
  let policyFeeRegisterName ← parseU64Field data.policyFeeRegisterName "policyFeeRegisterName"
  let legacyDataEscrowPerRow ← parseU64Field data.legacyDataEscrowPerRow "legacyDataEscrowPerRow"
  pure { config with
    minimumGasBill, gasProducerRatioMul, gasProducerRatioShift, gasDappRatioMul, gasDappRatioShift,
    policyFeeCreateTokenBase, policyFeeCreateTokenSymbol, policyFeeCreateTokenSeries,
    policyFeeRegisterName, legacyDataEscrowPerRow }

end GasConfigDataResult

/-- The config of an answer that says what the planner needs. -/
def GasConfigResult.toGasConfig (result : GasConfigResult) : Result GasConfig := do
  let data ← result.gasConfig.elim (rpc none "getGasConfig response has no gasConfig section") pure
  let config ← data.toGasConfig
  let config ← (if config.version ≥ 1 then data.extend config else pure config : Result GasConfig)
  -- Another rate would misprice the largest term of every bill; no rate is the known one.
  match result.unitsPerBlockDataByte with
  | some units =>
    if units.toUInt64 ≠ gasModelV2UnitsPerBlockDataByte then
      rpc none (s!"this node prices block data at {units} gas units per byte, this SDK implements " ++
        s!"{gasModelV2UnitsPerBlockDataByte}: upgrade the SDK")
    else pure config
  | none => pure config

/-! ## Refusals -/

variable {α β : Type}

/-- The computation fails with an RPC error without a code, if it does. -/
def RpcOnly (r : Result α) : Prop := ∀ e, r = .error e → ∃ message, e = .error (.rpc none message)

theorem rpcOnly_ok (a : α) : RpcOnly (.ok a : Result α) := nofun

theorem rpcOnly_rpc (message : String) : RpcOnly (rpc none message : Result α) := fun _ h =>
  ⟨message, (Except.error.inj h).symm⟩

theorem RpcOnly.bind {r : Result α} {f : α → Result β} (hr : RpcOnly r) (hf : ∀ a, RpcOnly (f a)) :
    RpcOnly (r >>= f) := by
  cases r with
  | error e => exact fun e' h => hr e' (congrArg Except.error (Except.error.inj h))
  | ok a => exact hf a

theorem RpcOnly.elim {o : Option α} {r : Result α} (hr : RpcOnly r) : RpcOnly (o.elim r pure) := by
  cases o with
  | none => exact hr
  | some a => exact rpcOnly_ok a

theorem rpcOnly_parseU64Field (value : Option String) (fieldName : String) :
    RpcOnly (parseU64Field value fieldName) := by
  rw [parseU64Field]
  split
  · exact rpcOnly_rpc _
  · split
    · exact rpcOnly_ok _
    · exact rpcOnly_rpc _

theorem GasConfigDataResult.rpcOnly_toGasConfig (data : GasConfigDataResult) :
    RpcOnly data.toGasConfig := by
  rw [toGasConfig]
  repeat refine (rpcOnly_parseU64Field _ _).bind fun _ => ?_
  exact rpcOnly_ok _

theorem GasConfigDataResult.rpcOnly_extend (data : GasConfigDataResult) (config : GasConfig) :
    RpcOnly (data.extend config) := by
  rw [extend]
  repeat first
    | refine (rpcOnly_parseU64Field _ _).bind fun _ => ?_
    | refine (rpcOnly_rpc _).elim.bind fun _ => ?_
  exact rpcOnly_ok _

/-- An answer is refused with an RPC error, whatever it holds, and never in a panic. -/
theorem GasConfigResult.rpcOnly_toGasConfig (result : GasConfigResult) :
    RpcOnly result.toGasConfig := by
  refine (rpcOnly_rpc _).elim.bind fun data => data.rpcOnly_toGasConfig.bind fun config => ?_
  refine RpcOnly.bind ?_ fun config => ?_
  · split
    · exact data.rpcOnly_extend config
    · exact rpcOnly_ok _
  · split
    · split
      · exact rpcOnly_rpc _
      · exact rpcOnly_ok _
    · exact rpcOnly_ok _

end PhantasmaSdk
