import PhantasmaSdk.Basic
import PhantasmaSdk.Machine.Bounded

/-!
# The fee calculator

What one operation costs under the gas model a chain's configuration selects: the
work it does, the policy fee, the bytes it returns, and the storage rows it creates
and deletes (`operationModel`); and the bill, the offer and the escrow ceiling of a
transaction that performs several (`settle`).

Gas saturates, as on the chain. Rows and bytes are added up plainly, so that a sum
that leaves its type panics.
-/

namespace PhantasmaSdk

open Machine

/-! ## Inputs -/

/-- The prices of a chain. -/
structure GasConfig where
  version : UInt8 := 0
  maxNameLength : UInt8 := 0
  maxTokenSymbolLength : UInt8 := 0
  feeShift : UInt8 := 0
  maxStructureSize : UInt32 := 0
  feeMultiplier : UInt64 := 0
  gasTokenId : UInt64 := 0
  dataTokenId : UInt64 := 0
  minimumGasOffer : UInt64 := 0
  dataEscrowPerRow : UInt64 := 0
  gasFeeTransfer : UInt64 := 0
  gasFeeQuery : UInt64 := 0
  gasFeeCreateTokenBase : UInt64 := 0
  gasFeeCreateTokenSymbol : UInt64 := 0
  gasFeeCreateTokenSeries : UInt64 := 0
  gasFeePerByte : UInt64 := 0
  gasFeeRegisterName : UInt64 := 0
  gasBurnRatioMul : UInt64 := 0
  gasBurnRatioShift : UInt8 := 0
  minimumGasBill : UInt64 := 0
  gasProducerRatioMul : UInt64 := 0
  gasProducerRatioShift : UInt8 := 0
  gasDappRatioMul : UInt64 := 0
  gasDappRatioShift : UInt8 := 0
  policyFeeCreateTokenBase : UInt64 := 0
  policyFeeCreateTokenSymbol : UInt64 := 0
  policyFeeCreateTokenSeries : UInt64 := 0
  policyFeeRegisterName : UInt64 := 0
  legacyDataEscrowPerRow : UInt64 := 0
  deriving DecidableEq, Repr

namespace GasConfig

def hasGasModelV2 (config : GasConfig) : Bool := 1 ≤ config.version

/-- Rows of the chain's gas and data tokens are free; a token that is not known is
    taken to be neither. -/
def freeRows (config : GasConfig) (tokenId : Option UInt64) : Bool :=
  tokenId.any fun id => id == config.gasTokenId || id == config.dataTokenId

end GasConfig

inductive NativeFeeKind
  | transferFungible
  | transferNonFungible
  | mintFungible
  | mintNonFungible
  | mintPhantasmaNonFungible
  | burnFungible
  | burnNonFungible
  | createToken
  | createTokenSeries
  | registerName
  | script
  deriving DecidableEq, Repr

/-- The kinds of the native types, whose signatures are bare. -/
def NativeFeeKind.usesBareSignatures : NativeFeeKind → Bool
  | .transferFungible | .transferNonFungible | .mintFungible | .mintNonFungible | .burnFungible
  | .burnNonFungible => true
  | _ => false

/-- An asset held at a burned NFT's own address, which the burn returns. -/
structure InfusedAsset where
  tokenId : Option UInt64 := none
  nonFungible : Bool := false
  instanceCount : Option UInt32 := none
  burnerHoldsToken : Bool := false
  deriving DecidableEq, Repr

/-- What an operation is priced from. Facts of the chain's state default to the
    reading that costs more, facts of the message have no safe default. -/
structure NativeFeeParams where
  envelopeBytes : UInt32 := 0
  count : Option UInt32 := none
  tokenId : Option UInt64 := none
  recipientHoldsToken : Bool := false
  toIsNftAddress : Bool := false
  bigFungible : Option Bool := none
  tokenBurnedBefore : Bool := false
  supplyRowExists : Bool := false
  infusions : Option (List InfusedAsset) := none
  symbolLength : UInt32 := 0
  tokenInfoBytes : UInt32 := 0
  nonFungible : Bool := false
  hasPreBurn : Bool := false
  hasInflationSchedule : Bool := false
  hasStakingOrganisation : Bool := false
  hasStakingRewardToken : Bool := false
  seriesInfoBytes : UInt32 := 0
  seriesHasMetaId : Option Bool := none
  nameLength : UInt32 := 0
  romBytes : List UInt32 := []
  ramBytes : List UInt32 := []
  romHasMetaId : Option Bool := none
  duplicatedSeries : Option Bool := none
  distinctSeriesCount : Option UInt32 := none
  payloadBytes : UInt32 := 0
  scriptUnitsAllowance : Option UInt64 := none
  scriptEventBytes : Option UInt32 := none
  scriptStorageQuanta : Option UInt32 := none
  deriving DecidableEq, Repr

/-- One operation: the kind it is priced as, and what it is priced from. -/
structure NativeFeePart where
  kind : NativeFeeKind
  params : NativeFeeParams
  deriving DecidableEq, Repr

/-- What belongs to the transaction, however many operations it performs. -/
structure NativeFeeTransactionParams where
  envelopeBytes : UInt32
  payloadBytes : UInt32
  deriving DecidableEq, Repr

/-! ## Results -/

/-- What one operation costs, or several together. -/
structure OperationModel where
  workUnits : UInt64 := 0
  policyFee : UInt64 := 0
  resultBytes : UInt32 := 0
  newQuanta : UInt32 := 0
  deletedQuanta : UInt32 := 0
  deriving DecidableEq, Repr

structure NativeFeeEstimate where
  maxGas : UInt64
  maxData : UInt64
  expectedGasBill : UInt64
  newStorageQuanta : UInt32
  deletedStorageQuanta : UInt32
  deriving DecidableEq, Repr

/-! ## Sums of rows and bytes -/

/-- A sum or a product that panics when it leaves its type. -/
def u32 (n : ℕ) : Result UInt32 := (word32 n).elim overflow pure

def sumU32 (values : List UInt32) : Result UInt32 :=
  values.foldlM (fun total value => u32 (total.toNat + value.toNat)) 0

theorem u32_eq_ok {n : ℕ} {c : UInt32} : u32 n = .ok c ↔ c.toNat = n := by
  rw [← word32_eq_some, u32]
  cases word32 n <;> simp [overflow, pure_eq_ok]

theorem foldlM_u32_eq_ok {values : List UInt32} {start total : UInt32} :
    values.foldlM (fun total value => u32 (total.toNat + value.toNat)) start = .ok total ↔
      total.toNat = start.toNat + (values.map UInt32.toNat).sum := by
  induction values generalizing start with
  | nil =>
    rw [List.foldlM_nil, pure_eq_ok, Except.ok.injEq, List.map_nil, List.sum_nil, Nat.add_zero,
      UInt32.toNat_inj]
    exact eq_comm
  | cons value values ih =>
    rw [List.foldlM_cons, bind_eq_ok, List.map_cons, List.sum_cons, ← Nat.add_assoc]
    constructor
    · rintro ⟨mid, hmid, h⟩
      rw [ih.1 h, u32_eq_ok.1 hmid]
    · intro h
      have hlt := total.toNat_lt
      obtain ⟨mid, hword, hmid⟩ := exists_word32 (n := start.toNat + value.toNat) (by omega)
      exact ⟨mid, u32_eq_ok.2 hmid, ih.2 (by rw [h, hmid])⟩

/-- A sum is what it is, if that fits. -/
theorem sumU32_eq_ok {values : List UInt32} {total : UInt32} :
    sumU32 values = .ok total ↔ total.toNat = (values.map UInt32.toNat).sum := by
  rw [sumU32, foldlM_u32_eq_ok, UInt32.toNat_zero, Nat.zero_add]

/-! ## Prices -/

def gasModelV2UnitsPerBlockDataByte : UInt64 := 25
def storageQuantumBytes : UInt32 := 1024
def witnessArrayEntryBytes : UInt32 := 96
def nativeSignatureBytes : UInt32 := 64

/-- Key, originator, created, flags and the length of the ROM. -/
def nftInstanceRowOverhead : UInt32 := 17 + 32 + 8 + 1 + 4
def nftRamRowOverhead : UInt32 := 17
def tokenInfoKeyBytes : UInt32 := 9
def seriesInfoKeyBytes : UInt32 := 13
def phantasmaCanonicalRomOverhead : UInt32 := 32 + 4
def intxSmallResultBytes : UInt32 := 9
def intxBigResultBytes : UInt32 := 33
def maxPriceableLength : UInt32 := 64
def defaultScriptUnitsAllowance : UInt64 := 5000
def defaultScriptEventBytes : UInt32 := 512
def defaultScriptStorageQuanta : UInt32 := 4

def quantum (value : Bool) : UInt32 := if value then 1 else 0

/-- The size of an envelope, from that of the message and the number of signers. -/
def envelopeBytesFor (kind : NativeFeeKind) (serializedMessageLength witnessCount : UInt32) :
    Result UInt32 :=
  if kind.usesBareSignatures then do
    let signatures ← u32 (nativeSignatureBytes.toNat * witnessCount.toNat)
    u32 (serializedMessageLength.toNat + signatures.toNat)
  else do
    let counted ← u32 (serializedMessageLength.toNat + 4)
    let entries ← u32 (witnessArrayEntryBytes.toNat * witnessCount.toNat)
    u32 (counted.toNat + entries.toNat)

/-- The quanta of a row, i.e., its bytes by the quantum, rounded up. -/
def storageQuantaFor (rowBytes : UInt32) : UInt32 :=
  UInt32.ofNat ((rowBytes.toNat + storageQuantumBytes.toNat - 1) / storageQuantumBytes.toNat)

def phantasmaCanonicalRomBytes (publicRomBytes : UInt32) : Result UInt32 := do
  let twice ← u32 (publicRomBytes.toNat * 2)
  u32 (twice.toNat + phantasmaCanonicalRomOverhead.toNat)

/-- The scaling of fees, through a 128-bit product. -/
def mulShift (value multiplier : UInt64) (shift : UInt8) : UInt64 :=
  if 64 ≤ shift then 0
  else clamp64 ((value.toNat * multiplier.toNat) >>> shift.toNat)

def symbolShift (length : UInt32) (maxLength : UInt8) (paramName : String) : Result UInt32 :=
  if length = 0 then pure 0
  else
    let shift := length - 1
    if maxLength ≠ 0 ∧ maxLength.toNat ≤ shift.toNat then
      builder s!"estimate_native_fee: {paramName} {length} exceeds the chain maximum {maxLength}"
    else if maxPriceableLength < length then
      builder s!"estimate_native_fee: {paramName} {length} is longer than {maxPriceableLength} and cannot be priced offline"
    else pure shift

/-- One size per instance: none is zero for each, and one is each instance's. -/
def perInstance (values : List UInt32) (count : UInt32) (name : String) : Result (List UInt32) :=
  match values with
  | [] => pure (List.replicate count.toNat 0)
  | [value] => pure (List.replicate count.toNat value)
  | values =>
    if values.length = count.toNat then pure values
    else builder
      s!"estimate_native_fee: {name} must have one entry per instance ({count.toNat})"

def distinctSeries (params : NativeFeeParams) (count : UInt32) : Result UInt32 :=
  let distinct := params.distinctSeriesCount.getD 1
  if distinct < 1 ∨ count < distinct then
    builder s!"estimate_native_fee: distinct_series_count must be between 1 and {count}"
  else pure distinct

/-- The rows of one instance: its own, the owner's and the lookup, the one of the RAM
    if it has any, and the one of the meta id. -/
def instanceRows (stored ram : UInt32) (metaId : UInt32) : Result UInt32 := do
  let row ← u32 (nftInstanceRowOverhead.toNat + stored.toNat)
  let ramRow ← (if 0 < ram then do
      let row ← u32 (nftRamRowOverhead.toNat + ram.toNat)
      pure (storageQuantaFor row)
    else pure 0 : Result UInt32)
  sumU32 [storageQuantaFor row, 2, ramRow, metaId]

/-- One returned asset, on top of the others. -/
def returnedAsset (config : GasConfig) (model : OperationModel) (asset : InfusedAsset) :
    Result OperationModel :=
  let freeRows := config.freeRows asset.tokenId
  let balanceRow := quantum (!asset.burnerHoldsToken && !freeRows)
  if asset.nonFungible then
    let instances := asset.instanceCount.getD 1
    if instances = 0 then
      builder "estimate_native_fee: instance_count of a returned NFT token must be a positive integer"
    else do
      let newQuanta ← sumU32 [model.newQuanta, balanceRow, instances]
      let deletedQuanta ← sumU32 [model.deletedQuanta, 1, instances]
      pure { model with
        workUnits := satAdd64 model.workUnits (satAdd64 (satMul64 config.gasFeeQuery 2)
          (satMul64 config.gasFeeTransfer instances.toUInt64))
        newQuanta
        deletedQuanta }
  else do
    let newQuanta ← sumU32 [model.newQuanta, balanceRow]
    let deletedQuanta ← sumU32 [model.deletedQuanta, quantum (!freeRows)]
    pure { model with
      workUnits := satAdd64 model.workUnits (satAdd64 config.gasFeeTransfer config.gasFeeQuery)
      newQuanta
      deletedQuanta }

/-- What burning NFTs gives back to the burner. -/
def returnedAssets (params : NativeFeeParams) (config : GasConfig) : Result OperationModel :=
  (params.infusions.getD []).foldlM (returnedAsset config) {}

/-! ## Operations -/

def operationModel (kind : NativeFeeKind) (config : GasConfig) (params : NativeFeeParams)
    (count : UInt32) : Result OperationModel :=
  let v2 := config.hasGasModelV2
  let freeBalanceRows := config.freeRows params.tokenId
  let recipientRow := quantum (!params.recipientHoldsToken && !freeBalanceRows)
  let burntRow := quantum (!params.tokenBurnedBefore && !freeBalanceRows)
  let supplyRow := quantum (!params.supplyRowExists && !freeBalanceRows)
  let balanceResultBytes :=
    if params.bigFungible.getD true then intxBigResultBytes else intxSmallResultBytes
  let infusionQuery := if params.toIsNftAddress then config.gasFeeQuery else 0
  match kind with
  | .transferFungible =>
    pure {
      workUnits := satAdd64 config.gasFeeTransfer infusionQuery
      newQuanta := recipientRow }
  | .transferNonFungible => do
    let newQuanta ← sumU32 [count, recipientRow]
    pure {
      workUnits := satAdd64 (satMul64 config.gasFeeTransfer count.toUInt64) infusionQuery
      newQuanta
      deletedQuanta := count }
  | .mintFungible => do
    let newQuanta ← sumU32 [recipientRow, supplyRow]
    pure {
      workUnits := satAdd64 config.gasFeeTransfer infusionQuery
      resultBytes := balanceResultBytes
      newQuanta }
  | .burnFungible => do
    let newQuanta ← sumU32 [burntRow, supplyRow]
    pure {
      workUnits := config.gasFeeTransfer
      resultBytes := balanceResultBytes
      newQuanta }
  | .mintNonFungible => do
    let roms ← perInstance params.romBytes count "rom_bytes"
    let rams ← perInstance params.ramBytes count "ram_bytes"
    let metaId := quantum (params.romHasMetaId.getD true)
    let rows ← (roms.zip rams).mapM fun (rom, ram) => instanceRows rom ram metaId
    let newQuanta ← sumU32 (recipientRow :: supplyRow :: rows)
    -- The number of instances and an id of eight bytes each.
    let resultBytes ← u32 (4 + 8 * count.toNat)
    pure {
      workUnits := satAdd64 (satMul64 config.gasFeeTransfer count.toUInt64) infusionQuery
      resultBytes
      newQuanta }
  | .mintPhantasmaNonFungible => do
    let roms ← perInstance params.romBytes count "rom_bytes"
    let rams ← perInstance params.ramBytes count "ram_bytes"
    -- The canonical ROM is stored, and always has a meta id.
    let rows ← (roms.zip rams).mapM fun (rom, ram) => do
      let stored ← phantasmaCanonicalRomBytes rom
      instanceRows stored ram 1
    let newQuanta ← sumU32 (recipientRow :: supplyRow :: rows)
    let duplicatedSeries := params.duplicatedSeries.getD true
    let queriesPerInstance : UInt64 := if duplicatedSeries then 3 else 2
    let seriesSupplyQueries ← (if duplicatedSeries then do
        let distinct ← distinctSeries params count
        pure distinct.toUInt64
      else pure 0 : Result UInt64)
    let resultBytes ← u32 (4 + 40 * count.toNat)
    pure {
      workUnits := satAdd64 (satAdd64
        (satMul64 (satAdd64 config.gasFeeTransfer (satMul64 config.gasFeeQuery queriesPerInstance))
          count.toUInt64)
        (satMul64 config.gasFeeQuery seriesSupplyQueries)) infusionQuery
      resultBytes
      newQuanta }
  | .burnNonFungible => do
    let roms ← perInstance params.romBytes count "rom_bytes"
    let rams ← perInstance params.ramBytes count "ram_bytes"
    let metaId := quantum (params.romHasMetaId.getD true)
    let rows ← (roms.zip rams).mapM fun (rom, ram) => instanceRows rom ram metaId
    let deleted ← sumU32 rows
    let returned ← returnedAssets params config
    let newQuanta ← sumU32 [burntRow, supplyRow, returned.newQuanta]
    let deletedQuanta ← sumU32 [deleted, returned.deletedQuanta]
    let perInstanceWork := satAdd64 config.gasFeeTransfer (satMul64 config.gasFeeQuery 2)
    pure {
      workUnits := satAdd64 (satMul64 perInstanceWork count.toUInt64) returned.workUnits
      newQuanta
      deletedQuanta }
  | .createToken => do
    let shift ← symbolShift params.symbolLength config.maxTokenSymbolLength "symbol_length"
    let hasSymbol : Bool := 0 < params.symbolLength
    let infoRow ← u32 (tokenInfoKeyBytes.toNat + params.tokenInfoBytes.toNat)
    let newQuanta ← sumU32 [quantum hasSymbol, storageQuantaFor infoRow, 1,
      quantum params.nonFungible, quantum params.hasPreBurn, quantum params.hasInflationSchedule]
    let base := if v2 then config.policyFeeCreateTokenBase else config.gasFeeCreateTokenBase
    let symbolPrice :=
      if v2 then config.policyFeeCreateTokenSymbol else config.gasFeeCreateTokenSymbol
    let symbol := if hasSymbol then symbolPrice >>> shift.toUInt64 else 0
    let queries ←
      sumU32 [quantum params.hasStakingOrganisation, quantum params.hasStakingRewardToken]
    let metadataQueries := satMul64 config.gasFeeQuery queries.toUInt64
    pure {
      workUnits :=
        if v2 then metadataQueries else satAdd64 (satAdd64 base symbol) metadataQueries
      policyFee := if v2 then satAdd64 base symbol else 0
      resultBytes := 8
      newQuanta }
  | .createTokenSeries => do
    let infoRow ← u32 (seriesInfoKeyBytes.toNat + params.seriesInfoBytes.toNat)
    let newQuanta ← sumU32 [storageQuantaFor infoRow, 1, quantum (params.seriesHasMetaId.getD true)]
    pure {
      workUnits := if v2 then 0 else config.gasFeeCreateTokenSeries
      policyFee := if v2 then config.policyFeeCreateTokenSeries else 0
      resultBytes := 4
      newQuanta }
  | .registerName =>
    if params.nameLength = 0 then
      builder "estimate_native_fee: name_length is required for RegisterName"
    else do
      let shift ← symbolShift params.nameLength config.maxNameLength "name_length"
      pure {
        workUnits := if v2 then 0 else config.gasFeeRegisterName >>> shift.toUInt64
        policyFee := if v2 then config.policyFeeRegisterName >>> shift.toUInt64 else 0 }
  | .script =>
    pure {
      workUnits := params.scriptUnitsAllowance.getD defaultScriptUnitsAllowance
      resultBytes := params.scriptEventBytes.getD defaultScriptEventBytes
      newQuanta := params.scriptStorageQuanta.getD defaultScriptStorageQuanta }

def partModel (config : GasConfig) (part : NativeFeePart) : Result OperationModel :=
  let count := part.params.count.getD 1
  if count = 0 then builder "estimate_native_fee: count must be a positive integer"
  else operationModel part.kind config part.params count

/-! ## Settlement -/

/-- The sum of two models. -/
def OperationModel.add (total model : OperationModel) : OperationModel where
  workUnits := satAdd64 total.workUnits model.workUnits
  policyFee := satAdd64 total.policyFee model.policyFee
  resultBytes := satAdd32 total.resultBytes model.resultBytes
  newQuanta := satAdd32 total.newQuanta model.newQuanta
  deletedQuanta := satAdd32 total.deletedQuanta model.deletedQuanta

/-- The bill and the offer under the second gas model: the block carries the envelope,
    the net growth of storage and what the calls return. -/
def settleV2 (total : OperationModel) (config : GasConfig) (envelopeBytes : UInt32) :
    Result (UInt64 × UInt64) :=
  if envelopeBytes = 0 then
    builder "estimate_native_fee: envelope_bytes is required under gas model v2"
  else
    let netQuanta := satSub32 total.newQuanta total.deletedQuanta
    let blockData := envelopeBytes.toUInt64 + netQuanta.toUInt64 + total.resultBytes.toUInt64
    let byteUnits := satMul64 blockData gasModelV2UnitsPerBlockDataByte
    let bill := satAdd64 (mulShift (satAdd64 total.workUnits byteUnits) config.feeMultiplier
      config.feeShift) total.policyFee
    let expected := max bill config.minimumGasBill
    pure (expected, max expected config.minimumGasOffer)

/-- The bill and the offer under the first gas model. -/
def settleV1 (total : OperationModel) (config : GasConfig) (payloadBytes : UInt32) :
    UInt64 × UInt64 :=
  let netQuanta := satSub32 total.newQuanta total.deletedQuanta
  let work := mulShift total.workUnits config.feeMultiplier config.feeShift
  let blockData := payloadBytes.toUInt64 + total.resultBytes.toUInt64 + netQuanta.toUInt64
  let expected := satAdd64 work (satMul64 blockData config.gasFeePerByte)
  let byteAllowance := max blockData 1024
  (expected, satAdd64 (satAdd64 (satMul64 config.minimumGasOffer 2) work)
    (satMul64 byteAllowance config.gasFeePerByte))

def settle (models : List OperationModel) (config : GasConfig)
    (transaction : NativeFeeTransactionParams) : Result NativeFeeEstimate := do
  let total := models.foldl OperationModel.add {}
  let (expected, maxGas) ← (if config.hasGasModelV2 then
      settleV2 total config transaction.envelopeBytes
    else pure (settleV1 total config transaction.payloadBytes) : Result (UInt64 × UInt64))
  pure {
    maxGas
    maxData := satMul64 total.newQuanta.toUInt64 config.dataEscrowPerRow
    expectedGasBill := expected
    newStorageQuanta := total.newQuanta
    deletedStorageQuanta := total.deletedQuanta }

def estimateNativeFeeBatch (parts : List NativeFeePart) (config : GasConfig)
    (transaction : NativeFeeTransactionParams) : Result NativeFeeEstimate := do
  let models ← parts.mapM (partModel config)
  settle models config transaction

def estimateNativeFee (kind : NativeFeeKind) (config : GasConfig) (params : NativeFeeParams) :
    Result NativeFeeEstimate :=
  estimateNativeFeeBatch [{ kind, params }] config
    { envelopeBytes := params.envelopeBytes, payloadBytes := params.payloadBytes }

end PhantasmaSdk
