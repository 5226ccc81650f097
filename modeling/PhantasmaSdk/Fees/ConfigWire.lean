import PhantasmaSdk.Carbon.Records
import PhantasmaSdk.Fees.Config

/-!
# The gas config on the wire

The governance module holds the prices of a chain in a layout that grew with the gas
model: the fields of version 0 are always there, those of the second model only from
version 1 on. A config of version 0 is thus written in the bytes it always was, and
loses what it has for the others (`GasConfig.deserialize_eq_ok_iff`); a config
of a later version cannot be cut down to them (`GasConfig.record`).
-/

namespace PhantasmaSdk

open Codec Codec.Decoder CarbonWriter CarbonReader

/-- A choice between two decoders goes on alike in both cases. -/
theorem ite_bind {α β : Type} (c : Prop) [Decidable c] (d d' : Reader α) (f : α → Reader β) :
    (if c then d else d') >>= f = if c then d >>= f else d' >>= f := by
  split <;> rfl

namespace GasConfig

/-- The fields every version has. -/
def writeBase (config : GasConfig) : Bytes :=
  write1 config.version ++ write1 config.maxNameLength ++ write1 config.maxTokenSymbolLength ++
    write1 config.feeShift ++ write4u config.maxStructureSize ++ write8u config.feeMultiplier ++
    write8u config.gasTokenId ++ write8u config.dataTokenId ++ write8u config.minimumGasOffer ++
    write8u config.dataEscrowPerRow ++ write8u config.gasFeeTransfer ++
    write8u config.gasFeeQuery ++ write8u config.gasFeeCreateTokenBase ++
    write8u config.gasFeeCreateTokenSymbol ++ write8u config.gasFeeCreateTokenSeries ++
    write8u config.gasFeePerByte ++ write8u config.gasFeeRegisterName ++
    write8u config.gasBurnRatioMul ++ write1 config.gasBurnRatioShift

/-- The fields of a version from 1 on. -/
def writeExtension (config : GasConfig) : Bytes :=
  write8u config.minimumGasBill ++ write8u config.gasProducerRatioMul ++
    write1 config.gasProducerRatioShift ++ write8u config.gasDappRatioMul ++
    write1 config.gasDappRatioShift ++ write8u config.policyFeeCreateTokenBase ++
    write8u config.policyFeeCreateTokenSymbol ++ write8u config.policyFeeCreateTokenSeries ++
    write8u config.policyFeeRegisterName ++ write8u config.legacyDataEscrowPerRow

instance : CarbonSerializable GasConfig where
  writeCarbon config :=
    -- The image of version 0 stays as it was.
    if config.version = 0 then pure config.writeBase
    else pure (config.writeBase ++ config.writeExtension)
  readCarbon := do
    let version ← read1
    let maxNameLength ← read1
    let maxTokenSymbolLength ← read1
    let feeShift ← read1
    let maxStructureSize ← read4u
    let feeMultiplier ← read8u
    let gasTokenId ← read8u
    let dataTokenId ← read8u
    let minimumGasOffer ← read8u
    let dataEscrowPerRow ← read8u
    let gasFeeTransfer ← read8u
    let gasFeeQuery ← read8u
    let gasFeeCreateTokenBase ← read8u
    let gasFeeCreateTokenSymbol ← read8u
    let gasFeeCreateTokenSeries ← read8u
    let gasFeePerByte ← read8u
    let gasFeeRegisterName ← read8u
    let gasBurnRatioMul ← read8u
    let gasBurnRatioShift ← read1
    let config : GasConfig := {
      version, maxNameLength, maxTokenSymbolLength, feeShift, maxStructureSize, feeMultiplier,
      gasTokenId, dataTokenId, minimumGasOffer, dataEscrowPerRow, gasFeeTransfer, gasFeeQuery,
      gasFeeCreateTokenBase, gasFeeCreateTokenSymbol, gasFeeCreateTokenSeries, gasFeePerByte,
      gasFeeRegisterName, gasBurnRatioMul, gasBurnRatioShift }
    if config.version = 0 then pure config
    else do
      let minimumGasBill ← read8u
      let gasProducerRatioMul ← read8u
      let gasProducerRatioShift ← read1
      let gasDappRatioMul ← read8u
      let gasDappRatioShift ← read1
      let policyFeeCreateTokenBase ← read8u
      let policyFeeCreateTokenSymbol ← read8u
      let policyFeeCreateTokenSeries ← read8u
      let policyFeeRegisterName ← read8u
      let legacyDataEscrowPerRow ← read8u
      pure { config with
        minimumGasBill, gasProducerRatioMul, gasProducerRatioShift, gasDappRatioMul,
        gasDappRatioShift, policyFeeCreateTokenBase, policyFeeCreateTokenSymbol,
        policyFeeCreateTokenSeries, policyFeeRegisterName, legacyDataEscrowPerRow }

/-- The config as version 0 knows it. -/
def base (config : GasConfig) : GasConfig :=
  { config with
    minimumGasBill := 0, gasProducerRatioMul := 0, gasProducerRatioShift := 0,
    gasDappRatioMul := 0, gasDappRatioShift := 0, policyFeeCreateTokenBase := 0,
    policyFeeCreateTokenSymbol := 0, policyFeeCreateTokenSeries := 0, policyFeeRegisterName := 0,
    legacyDataEscrowPerRow := 0 }

/-- The wire has the fields of a config that are not zero. -/
def Fits (config : GasConfig) : Prop := config.version = 0 → config.base = config

/-- The fields of a config, those of version 0 and those of later versions. -/
abbrev Fields :=
  (UInt8 × UInt8 × UInt8 × UInt8 × UInt32 × UInt64 × UInt64 × UInt64 × UInt64 × UInt64 × UInt64 ×
    UInt64 × UInt64 × UInt64 × UInt64 × UInt64 × UInt64 × UInt64 × UInt8) ×
    UInt64 × UInt64 × UInt8 × UInt64 × UInt8 × UInt64 × UInt64 × UInt64 × UInt64 × UInt64

def ofFields : Fields → GasConfig
  | ((version, maxNameLength, maxTokenSymbolLength, feeShift, maxStructureSize, feeMultiplier,
      gasTokenId, dataTokenId, minimumGasOffer, dataEscrowPerRow, gasFeeTransfer, gasFeeQuery,
      gasFeeCreateTokenBase, gasFeeCreateTokenSymbol, gasFeeCreateTokenSeries, gasFeePerByte,
      gasFeeRegisterName, gasBurnRatioMul, gasBurnRatioShift),
      minimumGasBill, gasProducerRatioMul, gasProducerRatioShift, gasDappRatioMul, gasDappRatioShift,
      policyFeeCreateTokenBase, policyFeeCreateTokenSymbol, policyFeeCreateTokenSeries,
      policyFeeRegisterName, legacyDataEscrowPerRow) =>
    { version, maxNameLength, maxTokenSymbolLength, feeShift, maxStructureSize, feeMultiplier,
      gasTokenId, dataTokenId, minimumGasOffer, dataEscrowPerRow, gasFeeTransfer, gasFeeQuery,
      gasFeeCreateTokenBase, gasFeeCreateTokenSymbol, gasFeeCreateTokenSeries, gasFeePerByte,
      gasFeeRegisterName, gasBurnRatioMul, gasBurnRatioShift, minimumGasBill,
      gasProducerRatioMul, gasProducerRatioShift, gasDappRatioMul, gasDappRatioShift,
      policyFeeCreateTokenBase, policyFeeCreateTokenSymbol, policyFeeCreateTokenSeries,
      policyFeeRegisterName, legacyDataEscrowPerRow }

def fields (config : GasConfig) : Fields :=
  ((config.version, config.maxNameLength, config.maxTokenSymbolLength, config.feeShift,
      config.maxStructureSize, config.feeMultiplier, config.gasTokenId, config.dataTokenId,
      config.minimumGasOffer, config.dataEscrowPerRow, config.gasFeeTransfer, config.gasFeeQuery,
      config.gasFeeCreateTokenBase, config.gasFeeCreateTokenSymbol,
      config.gasFeeCreateTokenSeries, config.gasFeePerByte, config.gasFeeRegisterName,
      config.gasBurnRatioMul, config.gasBurnRatioShift),
    config.minimumGasBill, config.gasProducerRatioMul, config.gasProducerRatioShift,
    config.gasDappRatioMul, config.gasDappRatioShift, config.policyFeeCreateTokenBase,
    config.policyFeeCreateTokenSymbol, config.policyFeeCreateTokenSeries,
    config.policyFeeRegisterName, config.legacyDataEscrowPerRow)

theorem base_eq_iff (config : GasConfig) :
    config.base = config ↔ config.fields.2 = (0, 0, 0, 0, 0, 0, 0, 0, 0, 0) := by
  cases config
  simp [base, fields, eq_comm]

/-- A config is a format: the image of version 0 is not the beginning of another. -/
theorem record : Record GasConfig Fits (fun _ => True) 113 := by
  have hbase := format_write1.pair (format_write1.pair (format_write1.pair (format_write1.pair
    (format_write4u.pair (format_write8u.pair (format_write8u.pair (format_write8u.pair
    (format_write8u.pair (format_write8u.pair (format_write8u.pair (format_write8u.pair
    (format_write8u.pair (format_write8u.pair (format_write8u.pair (format_write8u.pair
    (format_write8u.pair (format_write8u.pair format_write1)))))))))))))))))
  have hextension := format_write8u.pair (format_write8u.pair (format_write1.pair (format_write8u.pair
    (format_write1.pair (format_write8u.pair (format_write8u.pair (format_write8u.pair
    (format_write8u.pair format_write8u))))))))
  have hfields := hbase.dep fun p => Format.ite (p.1 = 0)
    (format_absent (0, 0, 0, 0, 0, 0, 0, 0, 0, 0)) hextension
  refine hfields.iso ofFields fields (fun config => ?_) ?_ (fun config => ?_) (fun config => ?_)
  · simp only [writeCarbon, fields, writeBase, writeExtension, pure_bind, List.append_assoc]
    split
    · simp only [ok_bind, List.append_nil]
    · simp only [pure_bind]
  · simp only [ite_bind, bind_assoc, pure_bind]
    rfl
  · simp only [and_true, true_and, fields, Fits]
    split
    next hv => simp only [hv, true_implies, base_eq_iff, fields]
    next hv => simp only [hv, false_implies]
  · simp

/-! ## What survives the wire -/

theorem exists_serialize (config : GasConfig) : ∃ enc, serialize config = .ok enc := by
  rw [serialize, writeCarbon, instCarbonSerializable]
  simp only
  split
  · exact ⟨_, rfl⟩
  · exact ⟨_, rfl⟩

/-- Bytes are accepted as a config iff they are what is written of it, and of
    version 0 it has what that version knows. -/
theorem deserialize_eq_ok_iff (data : Bytes) (config : GasConfig) :
    deserialize GasConfig data = .ok config ↔
      serialize config = .ok data ∧ (config.version = 0 → config.base = config) := by
  rw [deserialize_eq_ok, record.run_eq_ok_iff fun _ => trivial]
  constructor
  · rintro ⟨hfits, enc, hw, rfl⟩
    exact ⟨by rw [List.append_nil]; exact hw, hfits⟩
  · rintro ⟨hw, hfits⟩
    exact ⟨hfits, data, hw, (List.append_nil data).symm⟩

end GasConfig

/-! ## Answers -/

/-- The fields every version has leave the others zero. -/
theorem GasConfigDataResult.base_toGasConfig {data : GasConfigDataResult} {config : GasConfig}
    (h : data.toGasConfig = .ok config) : config.base = config := by
  rw [toGasConfig] at h
  iterate 13 obtain ⟨_, -, h⟩ := bind_eq_ok.1 h
  obtain rfl := Except.ok.inj h
  rfl

theorem GasConfigDataResult.version_extend {data : GasConfigDataResult} {config extended : GasConfig}
    (h : data.extend config = .ok extended) : extended.version = config.version := by
  rw [extend] at h
  iterate 10 obtain ⟨_, -, h⟩ := bind_eq_ok.1 h
  obtain rfl := Except.ok.inj h
  rfl

/-- The config of an answer has what its version knows. -/
theorem GasConfigResult.fits_toGasConfig {result : GasConfigResult} {config : GasConfig}
    (h : result.toGasConfig = .ok config) : config.Fits := by
  obtain ⟨data, -, h⟩ := bind_eq_ok.1 h
  obtain ⟨base, hbase, h⟩ := bind_eq_ok.1 h
  obtain ⟨extended, hextended, h⟩ := bind_eq_ok.1 h
  have hfits : extended.Fits := by
    split at hextended
    next hv =>
      intro hzero
      rw [data.version_extend hextended] at hzero
      rw [hzero] at hv
      exact absurd hv (by decide)
    next =>
      obtain rfl := Except.ok.inj hextended
      exact fun _ => data.base_toGasConfig hbase
  split at h
  · split at h
    · cases h
    · exact Except.ok.inj h ▸ hfits
  · exact Except.ok.inj h ▸ hfits

/-- The config of an answer survives the wire, and its image does not survive being
    cut short. -/
theorem GasConfigResult.survives_wire (result : GasConfigResult) (config : GasConfig)
    (h : result.toGasConfig = .ok config) : ∃ enc, serialize config = .ok enc ∧
      deserialize GasConfig enc = .ok config ∧ ∀ short more, enc = short ++ more → more ≠ [] →
        ∃ e, deserialize GasConfig short = .error (.error e) := by
  obtain ⟨enc, hw⟩ := config.exists_serialize
  have hfits := fits_toGasConfig h
  refine ⟨enc, hw, GasConfig.record.deserialize_of_serialize hfits hw, ?_⟩
  rintro short more rfl hmore
  exact GasConfig.record.deserialize_short hfits hw hmore

/-- An answer of the second gas model. -/
def GasConfigResult.second : GasConfigResult where
  gasModelVersion := 2
  gasConfig := some {
    version := 1, maxNameLength := 32, maxTokenSymbolLength := 16, feeShift := 4
    feeMultiplier := some "10000", gasTokenId := some "1", dataTokenId := some "2"
    minimumGasOffer := some "0", dataEscrowPerRow := some "5", gasFeeTransfer := some "1"
    gasFeeQuery := some "1", gasFeeCreateTokenBase := some "1", gasFeeCreateTokenSymbol := some "1"
    gasFeeCreateTokenSeries := some "1", gasFeePerByte := some "1", gasFeeRegisterName := some "1"
    gasBurnRatioMul := some "1", gasBurnRatioShift := 1, minimumGasBill := some "7"
    gasProducerRatioMul := some "1", gasProducerRatioShift := some 1, gasDappRatioMul := some "1"
    gasDappRatioShift := some 1, policyFeeCreateTokenBase := some "1"
    policyFeeCreateTokenSymbol := some "1", policyFeeCreateTokenSeries := some "1"
    policyFeeRegisterName := some "1", legacyDataEscrowPerRow := some "3" }
  unitsPerBlockDataByte := some 25

theorem GasConfigResult.survives_wire_second : ∃ config enc, second.toGasConfig = .ok config ∧
    serialize config = .ok enc ∧ deserialize GasConfig enc = .ok config := by
  have hconfig : ∃ config, second.toGasConfig = .ok config := ⟨_, rfl⟩
  obtain ⟨config, hconfig⟩ := hconfig
  obtain ⟨enc, hw, hd, -⟩ := survives_wire second config hconfig
  exact ⟨config, enc, hconfig, hw, hd⟩

end PhantasmaSdk
