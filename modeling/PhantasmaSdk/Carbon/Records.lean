import PhantasmaSdk.Carbon.TokenArgs
import PhantasmaSdk.Carbon.Truncated
import PhantasmaSdk.Carbon.VmTyped
import PhantasmaSdk.Codec.Format

/-!
# Module records

What the modules of the chain are configured with, are called with and answer: each
record is written field by field, and its fields are read in the same order. Each is
a format (`Record`): any input is read safely, what is written is read back, and what
is read is written again.

Some fields depend on those before. A token has schemas on the wire only if it is
non-fungible; what a record of any other token has for schemas is lost.
-/

namespace PhantasmaSdk

open Codec Codec.Decoder CarbonWriter CarbonReader

/-! ## Fields -/

/-- The wire form of a type is a format. -/
abbrev Record (α : Type) [CarbonSerializable α] (Fits Exact : α → Prop) (minLength : ℕ) : Prop :=
  Format Fault.IsPanic (writeCarbon : α → Result Bytes) readCarbon Fits Exact minLength

/-- What is accepted is refused when it is cut short, with an error. -/
theorem deserializeWith_short {α : Type} {d : Reader α} (h : d.Steady) {value : α}
    {short more : Bytes} (hd : deserializeWith d (short ++ more) = .ok value) (hmore : more ≠ []) :
    ∃ e, deserializeWith d short = .error (.error e) := by
  obtain ⟨e, he, hsafe⟩ := h.refuse_short (deserializeWith_eq_ok.1 hd) hmore
  cases e with
  | error e => exact ⟨e, deserializeWith_of_error he⟩
  | panic p => exact absurd (Fault.isPanic_panic p) hsafe

namespace Record

variable {α : Type} [CarbonSerializable α] {Fits Exact : α → Prop} {minLength : ℕ}

/-- What is serialized of a value that fits is the value again. -/
theorem deserialize_of_serialize (h : Record α Fits Exact minLength) {value : α} {enc : Bytes}
    (hfits : Fits value) (hw : serialize value = .ok enc) : deserialize α enc = .ok value :=
  deserialize_eq_ok.2 (h.reads value enc hfits hw).run_self

/-- What is serialized is refused when it is cut short, with an error. -/
theorem deserialize_short (h : Record α Fits Exact minLength) {value : α} {short more : Bytes}
    (hfits : Fits value) (hw : serialize value = .ok (short ++ more)) (hmore : more ≠ []) :
    ∃ e, deserialize α short = .error (.error e) :=
  deserializeWith_short h.steady (h.deserialize_of_serialize hfits hw) hmore

/-- What is accepted fits, and is serialized as it was read if it is exact. -/
theorem serialize_of_deserialize (h : Record α Fits Exact minLength) {data : Bytes} {value : α}
    (hd : deserialize α data = .ok value) :
    Fits value ∧ ∃ enc, serialize value = .ok enc ∧ (Exact value → enc = data) := by
  obtain ⟨used, rfl, hfits, enc, hw, hexact⟩ := h.yields _ _ _ (deserialize_eq_ok.1 hd)
  rw [List.append_nil]
  exact ⟨hfits, enc, hw, hexact⟩

end Record

theorem format_of_reads {α : Type} {write : α → Bytes} {d : Reader α} {n : ℕ}
    (hr : ∀ v, d.Reads (write v) v) (hy : d.Yields fun v used => used = write v)
    (hl : ∀ v, (write v).length = n) (hsafe : ∀ input, d.Safe input) :
    Format Fault.IsPanic (fun v => pure (write v)) d (fun _ => True) (fun _ => True) n :=
  .of_exact (lawful_of_reads hr hy hl) hsafe

theorem format_write1 : Format Fault.IsPanic (fun v => pure (write1 v)) read1 (fun _ => True)
    (fun _ => True) 1 :=
  format_of_reads reads_read1 yields_read1 (fun _ => rfl) fun _ => safe_read1

theorem format_write4u : Format Fault.IsPanic (fun v => pure (write4u v)) read4u (fun _ => True)
    (fun _ => True) 4 :=
  format_of_reads reads_read4u yields_read4u (fun _ => length_toLE 4 _) fun _ => safe_read4u

theorem format_write8 : Format Fault.IsPanic (fun v => pure (write8 v)) read8 (fun _ => True)
    (fun _ => True) 8 :=
  format_of_reads reads_read8 yields_read8 (fun _ => length_toLE 8 _) fun _ => safe_read8

theorem format_write8u : Format Fault.IsPanic (fun v => pure (write8u v)) read8u (fun _ => True)
    (fun _ => True) 8 :=
  format_of_reads reads_read8u yields_read8u (fun _ => length_toLE 8 _) fun _ => safe_read8u

theorem format_write32 : Format Fault.IsPanic (fun v => pure (write32 v)) read32 (fun _ => True)
    (fun _ => True) 32 :=
  format_of_reads reads_read32 yields_read32 (fun v => v.length_eq) fun _ => safe_read32

theorem format_writeByteArray : Format Fault.IsPanic writeByteArray readByteArray
    (fun data => data.length < 2 ^ 31) (fun _ => True) 4 :=
  .of_exact lawful_writeByteArray fun _ => safe_readByteArray

theorem format_writeU64Array : Format Fault.IsPanic writeU64Array readU64Array
    (fun values => values.length < 2 ^ 31) (fun _ => True) 4 :=
  .of_exact lawful_writeU64Array fun _ => safe_readU64Array

theorem format_writeCarbonArray {α : Type} [CarbonSerializable α] {Fits Exact : α → Prop}
    {minLength : ℕ} (h : Record α Fits Exact minLength) (hpos : 0 < minLength) :
    Format Fault.IsPanic (writeCarbonArray : List α → Result Bytes) (readCarbonArray α)
      (fun values => values.length < 2 ^ 31 ∧ ∀ a ∈ values, Fits a)
      (fun values => ∀ a ∈ values, Exact a) 4 where
  toLawful := lawful_writeCarbonArray h.toLawful hpos
  safe _ := safe_readCarbonArray fun {input} => h.safe input
  steady := steady_readCarbonArray h.steady

theorem SmallString.record : Record SmallString (fun _ => True) (fun _ => True) 1 :=
  .of_exact SmallString.lawful fun _ => SmallString.safe_readCarbon

theorem IntX.record : Record IntX (fun x => x.InRange) (fun _ => False) 1 where
  toLawful := IntX.lawful
  safe _ := IntX.safe_readCarbon
  steady := IntX.steady_readCarbon

/-! ### Arrays of byte arrays -/

theorem yields_readByteArrays : readByteArrays.Yields fun values used =>
    (values.length < 2 ^ 31 ∧ ∀ data ∈ values, data.length < 2 ^ 31) ∧
      writeByteArrays values = .ok used := by
  refine (yields_array yields_readByteArray 4).mono fun values used h => ?_
  obtain ⟨hl, useds, rfl, hall⟩ := h
  refine ⟨⟨hl, fun data hmem => ?_⟩, writeArray_of_forall₂ (by omega) (hall.imp fun _ _ h => h.2)⟩
  obtain ⟨_, _, hdata, -⟩ := exists_of_forall₂_mem hall hmem
  exact hdata

theorem format_writeByteArrays : Format Fault.IsPanic writeByteArrays readByteArrays
    (fun values => values.length < 2 ^ 31 ∧ ∀ data ∈ values, data.length < 2 ^ 31)
    (fun _ => True) 4 := by
  refine .of_exact ⟨fun values enc hfits hw => ?_, ?_, fun values enc hw => ?_⟩ fun input =>
    safe_array (fun _ => safe_readByteArray) 4
  · refine reads_array (by norm_num) (by norm_num) hfits.1 (fun data hmem e he => ?_) hw
    exact ⟨reads_readByteArray (hfits.2 data hmem) he, by
      rw [length_writeByteArray he]
      omega⟩
  · exact yields_readByteArrays.mono fun values used h => ⟨h.1, used, h.2, fun _ => rfl⟩
  · exact le_length_writeArray hw

/-! ### Schemas -/

/-- A reserved array is safe on input on which its elements are, its length being
    bounded by what is left. -/
theorem safe_readReserved {α : Type} {d : Reader α} {n : ℕ}
    (hle : ∀ {input rest : Bytes} {a : α}, d.run input = .ok (a, rest) → rest.length ≤ input.length)
    (h : ∀ {input : Bytes}, input.length ≤ n → d.Safe input) {input : Bytes}
    (hinput : input.length ≤ n) : (readReserved 1 d).Safe input := by
  refine safeOn_bind.2 ⟨safe_readLengthFor 1, fun count mid hcount => ?_⟩
  obtain ⟨-, hleft, rfl⟩ := run_readLength_eq_ok_iff.1 hcount
  rw [List.length_append] at hinput
  exact safeOn_bind.2 ⟨(safeOn_reserve count mid).2 hleft, fun _ mid' hmid => by
    obtain ⟨-, rfl⟩ := Prod.mk.inj (Except.ok.inj hmid)
    exact SafeOn.replicate hle h count (by omega)⟩

theorem VMType.safe_read {input : Bytes} : VMType.read.Safe input := by
  refine safe_read1.bind fun value => safeOn_lift (fun e he => ?_) _
  rw [tryFrom] at he
  split at he <;> cases he
  exact Fault.not_isPanic_error _

namespace VMStructSchema

/-- The stack holds the calls for a schema in any input shorter than it. -/
theorem safe_readAt (depth : ℕ) {input : Bytes} (hd : input.length < depth) :
    (readAt depth).Safe input := by
  induction depth generalizing input with
  | zero => exact absurd hd (Nat.not_lt_zero _)
  | succ depth ih =>
    have hfield : (VMNamedVariableSchema.readWith (readAt depth)).Yields fun _ _ => True :=
      SmallString.lawful.yields.bind fun _ _ _ => (VMVariableSchema.yields_readWith
        (yields_readAt depth)).bind fun _ _ _ => yields_pure trivial
    -- a name and a type are read before a schema nested in the field
    have helement : ∀ {input : Bytes}, input.length ≤ depth →
        (VMNamedVariableSchema.readWith (readAt depth)).Safe input := by
      intro input hinput
      refine safeOn_bind.2 ⟨SmallString.safe_readCarbon, fun name mid hname => ?_⟩
      obtain ⟨used, rfl, -, enc, henc, hused⟩ := SmallString.lawful.yields _ _ _ hname
      have := SmallString.lawful.length_le _ _ henc
      rw [List.length_append, ← hused trivial] at hinput
      refine SafeOn.bind (safeOn_bind.2 ⟨VMType.safe_read, fun vmType mid' htype => ?_⟩) fun _ _ =>
        safeOn_pure _ _
      obtain ⟨used', rfl, -, -⟩ := VMType.yields_read _ _ _ htype
      rw [List.length_append] at hinput
      split
      · exact SafeOn.bind (ih (by omega)) fun _ _ => safeOn_pure _ _
      · exact safeOn_pure _ _
    refine SafeOn.bind (safe_readReserved (fun hrun => ?_) helement (by omega)) fun _ _ =>
      safe_read1.bind fun _ => safeOn_pure _ _
    obtain ⟨used, rfl, -⟩ := hfield _ _ _ hrun
    rw [List.length_append]
    exact Nat.le_add_left _ _

theorem record : Record VMStructSchema Normal (fun _ => True) 5 := by
  refine .of_exact ⟨fun schema enc hn hw => reads_readCarbon hn hw, ?_, fun schema enc hw => ?_⟩
    fun input => ⟨fun e he => ?_, fun r hr => ?_⟩
  · exact yields_readCarbon.mono fun _ used h => ⟨h.1, used, h.2, fun _ => rfl⟩
  · obtain ⟨body, hbody, rfl⟩ := write_eq_ok.1 hw
    have := le_length_writeArray hbody
    rw [List.length_append, write1, List.length_singleton]
    omega
  · rw [run_readCarbon] at he
    exact (safe_readAt _ (Nat.lt_succ_self _)).1 e he
  · rw [requests, readCarbon_apply] at hr
    exact (safe_readAt _ (Nat.lt_succ_self _)).2 r hr

end VMStructSchema

/-! ## Configurations -/

structure ChainConfig where
  version : UInt8
  reserved1 : UInt8
  reserved2 : UInt8
  reserved3 : UInt8
  allowedTxTypes : UInt32
  expiryWindow : UInt32
  blockRateTarget : UInt32
  deriving DecidableEq, Repr

namespace ChainConfig

instance : CarbonSerializable ChainConfig where
  writeCarbon v := pure (write1 v.version ++ write1 v.reserved1 ++ write1 v.reserved2 ++
    write1 v.reserved3 ++ write4u v.allowedTxTypes ++ write4u v.expiryWindow ++
    write4u v.blockRateTarget)
  readCarbon := do
    let version ← read1
    let reserved1 ← read1
    let reserved2 ← read1
    let reserved3 ← read1
    let allowedTxTypes ← read4u
    let expiryWindow ← read4u
    let blockRateTarget ← read4u
    pure { version, reserved1, reserved2, reserved3, allowedTxTypes, expiryWindow, blockRateTarget }

theorem record : Record ChainConfig (fun _ => True) (fun _ => True) 16 :=
  ((((((format_write1.pair format_write1).pair format_write1).pair format_write1).pair
    format_write4u).pair format_write4u).pair format_write4u).iso
    (fun p => ⟨p.1.1.1.1.1.1, p.1.1.1.1.1.2, p.1.1.1.1.2, p.1.1.1.2, p.1.1.2, p.1.2, p.2⟩)
    (fun v => ((((((v.version, v.reserved1), v.reserved2), v.reserved3), v.allowedTxTypes),
      v.expiryWindow), v.blockRateTarget))
    (fun _ => rfl) (by simp [readCarbon]) (by simp) (by simp)

end ChainConfig

/-- `TokensConfigFlags`, unknown bits kept. -/
structure TokensConfig where
  flags : UInt8
  deriving DecidableEq, Repr

namespace TokensConfig

instance : CarbonSerializable TokensConfig where
  writeCarbon v := pure (write1 v.flags)
  readCarbon := do
    let flags ← read1
    pure { flags }

theorem record : Record TokensConfig (fun _ => True) (fun _ => True) 1 :=
  format_write1.iso (fun p => ⟨p⟩) (fun v => v.flags) (fun _ => rfl) (by simp [readCarbon])
    (by simp) (by simp)

end TokensConfig

/-- `MarketConfigFlags`, unknown bits kept. -/
structure MarketConfigFlags where
  bits : UInt32
  deriving DecidableEq, Repr

namespace MarketConfigFlags

def priceRequired : MarketConfigFlags := ⟨1⟩
def enforceRoyalties : MarketConfigFlags := ⟨2⟩

end MarketConfigFlags

def marketMinimumListingTimeMs : UInt64 := 1000
def marketMaximumListingTimeMs : UInt64 := 1000 * 60 * 60 * 24 * 90
def marketDelistingGraceMs : UInt64 := 1000 * 60 * 60 * 24

structure MarketConfig where
  minimumListingTime : UInt64 := marketMinimumListingTimeMs
  maximumListingTime : UInt64 := marketMaximumListingTimeMs
  delistingGrace : UInt64 := marketDelistingGraceMs
  flags : MarketConfigFlags := ⟨MarketConfigFlags.priceRequired.bits |||
    MarketConfigFlags.enforceRoyalties.bits⟩
  deriving DecidableEq, Repr

namespace MarketConfig

instance : CarbonSerializable MarketConfig where
  writeCarbon v := pure (write8u v.minimumListingTime ++ write8u v.maximumListingTime ++
    write8u v.delistingGrace ++ write4u v.flags.bits)
  readCarbon := do
    let minimumListingTime ← read8u
    let maximumListingTime ← read8u
    let delistingGrace ← read8u
    let bits ← read4u
    pure { minimumListingTime, maximumListingTime, delistingGrace, flags := ⟨bits⟩ }

theorem record : Record MarketConfig (fun _ => True) (fun _ => True) 28 :=
  (((format_write8u.pair format_write8u).pair format_write8u).pair format_write4u).iso
    (fun p => ⟨p.1.1.1, p.1.1.2, p.1.2, ⟨p.2⟩⟩)
    (fun v => (((v.minimumListingTime, v.maximumListingTime), v.delistingGrace), v.flags.bits))
    (fun _ => rfl) (by simp [readCarbon]) (by simp) (by simp)

end MarketConfig

/-! ## Tokens and series -/

namespace TokenInfo

/-- The supply and the metadata fit, and so do the schemas, which only a non-fungible
    token has on the wire. -/
def Fits (v : TokenInfo) : Prop :=
  v.maxSupply.InRange ∧ v.metadata.length < 2 ^ 31 ∧
    if v.flags.contains .nonFungible then v.tokenSchemas.length < 2 ^ 31 else v.tokenSchemas = []

theorem record : Record TokenInfo Fits (fun _ => False) 40 := by
  have hhead := ((((IntX.record.pair format_write1).pair format_write1).pair format_write32).pair
    SmallString.record).pair format_writeByteArray
  refine (hhead.dep fun p => Format.ite (TokenFlags.contains ⟨p.1.1.1.1.2⟩ .nonFungible = true)
    format_writeByteArray (format_absent [])).iso
    (fun p => (⟨p.1.1.1.1.1.1, ⟨p.1.1.1.1.1.2⟩, p.1.1.1.1.2, p.1.1.1.2, p.1.1.2, p.1.2, p.2⟩ :
      TokenInfo))
    (fun v => ((((((v.maxSupply, v.flags.bits), v.decimals), v.owner), v.symbol), v.metadata),
      v.tokenSchemas))
    (fun v => ?_) (by simp [readCarbon]) (fun v => ?_) (by simp)
  · simp only [writeCarbon, bind_assoc, pure_bind, List.append_assoc]
    rfl
  · simp [Fits, and_assoc]

end TokenInfo

structure SeriesInfo where
  maxMint : UInt32
  maxSupply : UInt32
  owner : Bytes32
  metadata : Bytes
  rom : VMStructSchema
  ram : VMStructSchema

namespace SeriesInfo

/-- A series, its schemas read by `readSchema`. -/
def readWith (readSchema : Reader VMStructSchema) : Reader SeriesInfo := do
  let maxMint ← read4u
  let maxSupply ← read4u
  let owner ← read32
  let metadata ← readByteArray
  let rom ← readSchema
  let ram ← readSchema
  pure { maxMint, maxSupply, owner, metadata, rom, ram }

instance : CarbonSerializable SeriesInfo where
  writeCarbon v := do
    let metadata ← writeByteArray v.metadata
    let rom ← writeCarbon v.rom
    let ram ← writeCarbon v.ram
    pure (write4u v.maxMint ++ write4u v.maxSupply ++ write32 v.owner ++ metadata ++ rom ++ ram)
  readCarbon := readWith readCarbon

/-- The metadata fit, and the schemas are in the form they are read in. -/
def Fits (v : SeriesInfo) : Prop := v.metadata.length < 2 ^ 31 ∧ v.rom.Normal ∧ v.ram.Normal

theorem record : Record SeriesInfo Fits (fun _ => True) 54 :=
  (((((format_write4u.pair format_write4u).pair format_write32).pair format_writeByteArray).pair
    VMStructSchema.record).pair VMStructSchema.record).iso
    (fun p => ⟨p.1.1.1.1.1, p.1.1.1.1.2, p.1.1.1.2, p.1.1.2, p.1.2, p.2⟩)
    (fun v => (((((v.maxMint, v.maxSupply), v.owner), v.metadata), v.rom), v.ram))
    (fun _ => by simp only [writeCarbon, bind_assoc, pure_bind, List.append_assoc])
    (by simp only [bind_assoc, pure_bind]; rfl) (fun _ => by simp [Fits, and_assoc]) (by simp)

end SeriesInfo

structure CreateTokenSeriesArgs where
  tokenId : UInt64
  info : SeriesInfo

namespace CreateTokenSeriesArgs

def readWith (readSchema : Reader VMStructSchema) : Reader CreateTokenSeriesArgs := do
  let tokenId ← read8u
  let info ← SeriesInfo.readWith readSchema
  pure { tokenId, info }

instance : CarbonSerializable CreateTokenSeriesArgs where
  writeCarbon v := do
    let info ← writeCarbon v.info
    pure (write8u v.tokenId ++ info)
  readCarbon := readWith readCarbon

theorem record : Record CreateTokenSeriesArgs (fun v => v.info.Fits) (fun _ => True) 62 :=
  (format_write8u.pair SeriesInfo.record).iso (fun p => ⟨p.1, p.2⟩) (fun v => (v.tokenId, v.info))
    (fun _ => rfl) (by simp only [bind_assoc, pure_bind]; rfl) (by simp) (by simp)

end CreateTokenSeriesArgs

structure CreateMintedTokenSeriesArgs where
  tokenId : UInt64
  info : SeriesInfo
  address : Bytes32
  roms : List Bytes
  rams : List Bytes

namespace CreateMintedTokenSeriesArgs

def readWith (readSchema : Reader VMStructSchema) : Reader CreateMintedTokenSeriesArgs := do
  let tokenId ← read8u
  let info ← SeriesInfo.readWith readSchema
  let address ← read32
  let roms ← readByteArrays
  let rams ← readByteArrays
  pure { tokenId, info, address, roms, rams }

instance : CarbonSerializable CreateMintedTokenSeriesArgs where
  writeCarbon v := do
    let info ← writeCarbon v.info
    let roms ← writeByteArrays v.roms
    let rams ← writeByteArrays v.rams
    pure (write8u v.tokenId ++ info ++ write32 v.address ++ roms ++ rams)
  readCarbon := readWith readCarbon

/-- The series fits, and so do the ROMs and the RAMs. -/
def Fits (v : CreateMintedTokenSeriesArgs) : Prop :=
  v.info.Fits ∧ (v.roms.length < 2 ^ 31 ∧ ∀ rom ∈ v.roms, rom.length < 2 ^ 31) ∧
    v.rams.length < 2 ^ 31 ∧ ∀ ram ∈ v.rams, ram.length < 2 ^ 31

theorem record : Record CreateMintedTokenSeriesArgs Fits (fun _ => True) 102 :=
  ((((format_write8u.pair SeriesInfo.record).pair format_write32).pair format_writeByteArrays).pair
    format_writeByteArrays).iso
    (fun p => ⟨p.1.1.1.1, p.1.1.1.2, p.1.1.2, p.1.2, p.2⟩)
    (fun v => ((((v.tokenId, v.info), v.address), v.roms), v.rams))
    (fun _ => by simp only [writeCarbon, bind_assoc, pure_bind, List.append_assoc])
    (by simp only [bind_assoc, pure_bind]; rfl) (fun _ => by simp [Fits, and_assoc]) (by simp)

end CreateMintedTokenSeriesArgs

structure UpdateSeriesMetadataArgs where
  tokenId : UInt64
  seriesId : UInt32
  metadata : Bytes
  deriving DecidableEq, Repr

namespace UpdateSeriesMetadataArgs

instance : CarbonSerializable UpdateSeriesMetadataArgs where
  writeCarbon v := do
    let metadata ← writeByteArray v.metadata
    pure (write8u v.tokenId ++ write4u v.seriesId ++ metadata)
  readCarbon := do
    let tokenId ← read8u
    let seriesId ← read4u
    let metadata ← readByteArray
    pure { tokenId, seriesId, metadata }

theorem record : Record UpdateSeriesMetadataArgs (fun v => v.metadata.length < 2 ^ 31)
    (fun _ => True) 16 :=
  ((format_write8u.pair format_write4u).pair format_writeByteArray).iso
    (fun p => ⟨p.1.1, p.1.2, p.2⟩) (fun v => ((v.tokenId, v.seriesId), v.metadata))
    (fun _ => rfl) (by simp [readCarbon]) (by simp) (by simp)

end UpdateSeriesMetadataArgs

/-! ## Minting -/

structure NFTMintInfo where
  seriesId : UInt32
  rom : Bytes
  ram : Bytes
  deriving DecidableEq, Repr

namespace NFTMintInfo

instance : CarbonSerializable NFTMintInfo where
  writeCarbon v := do
    let rom ← writeByteArray v.rom
    let ram ← writeByteArray v.ram
    pure (write4u v.seriesId ++ rom ++ ram)
  readCarbon := do
    let seriesId ← read4u
    let rom ← readByteArray
    let ram ← readByteArray
    pure { seriesId, rom, ram }

def Fits (v : NFTMintInfo) : Prop := v.rom.length < 2 ^ 31 ∧ v.ram.length < 2 ^ 31

theorem record : Record NFTMintInfo Fits (fun _ => True) 12 :=
  ((format_write4u.pair format_writeByteArray).pair format_writeByteArray).iso
    (fun p => ⟨p.1.1, p.1.2, p.2⟩) (fun v => ((v.seriesId, v.rom), v.ram))
    (fun _ => by simp only [writeCarbon, bind_assoc, pure_bind, List.append_assoc])
    (by simp [readCarbon]) (fun _ => by simp [Fits]) (by simp)

end NFTMintInfo

structure MintNonFungibleArgs where
  tokenId : UInt64
  address : Bytes32
  tokens : List NFTMintInfo
  deriving DecidableEq, Repr

namespace MintNonFungibleArgs

instance : CarbonSerializable MintNonFungibleArgs where
  writeCarbon v := do
    let tokens ← writeCarbonArray v.tokens
    pure (write8u v.tokenId ++ write32 v.address ++ tokens)
  readCarbon := do
    let tokenId ← read8u
    let address ← read32
    let tokens ← readCarbonArray NFTMintInfo
    pure { tokenId, address, tokens }

theorem record : Record MintNonFungibleArgs
    (fun v => v.tokens.length < 2 ^ 31 ∧ ∀ token ∈ v.tokens, token.Fits) (fun _ => True) 44 :=
  ((format_write8u.pair format_write32).pair
    (format_writeCarbonArray NFTMintInfo.record (by norm_num))).iso
    (fun p => ⟨p.1.1, p.1.2, p.2⟩) (fun v => ((v.tokenId, v.address), v.tokens))
    (fun _ => rfl) (by simp only [bind_assoc, pure_bind]; rfl) (by simp) (by simp)

end MintNonFungibleArgs

namespace PhantasmaNFTMintInfo

def Fits (v : PhantasmaNFTMintInfo) : Prop :=
  v.phantasmaSeriesId.InRange ∧ v.rom.length < 2 ^ 31 ∧ v.ram.length < 2 ^ 31

theorem record : Record PhantasmaNFTMintInfo Fits (fun _ => False) 9 :=
  ((IntX.record.pair format_writeByteArray).pair format_writeByteArray).iso
    (fun p => ⟨p.1.1, p.1.2, p.2⟩) (fun v => ((v.phantasmaSeriesId, v.rom), v.ram))
    (fun _ => by simp only [writeCarbon, bind_assoc, pure_bind, List.append_assoc])
    (by simp only [bind_assoc, pure_bind]; rfl) (fun _ => by simp [Fits, and_assoc]) (by simp)

end PhantasmaNFTMintInfo

theorem MintPhantasmaNonFungibleArgs.record : Record MintPhantasmaNonFungibleArgs
    (fun v => v.tokens.length < 2 ^ 31 ∧ ∀ token ∈ v.tokens, token.Fits) (fun v => v.tokens = []) 44 :=
  ((format_write8u.pair format_write32).pair
    (format_writeCarbonArray PhantasmaNFTMintInfo.record (by norm_num))).iso
    (fun p => ⟨p.1.1, p.1.2, p.2⟩) (fun v => ((v.tokenId, v.address), v.tokens))
    (fun _ => rfl) (by simp only [bind_assoc, pure_bind]; rfl) (by simp)
    (by simp [List.eq_nil_iff_forall_not_mem])

structure PhantasmaNFTMintResult where
  phantasmaNftId : Bytes32
  carbonInstanceId : UInt64
  deriving DecidableEq, Repr

namespace PhantasmaNFTMintResult

instance : CarbonSerializable PhantasmaNFTMintResult where
  writeCarbon v := pure (write32 v.phantasmaNftId ++ write8u v.carbonInstanceId)
  readCarbon := do
    let phantasmaNftId ← read32
    let carbonInstanceId ← read8u
    pure { phantasmaNftId, carbonInstanceId }

theorem record : Record PhantasmaNFTMintResult (fun _ => True) (fun _ => True) 40 :=
  (format_write32.pair format_write8u).iso (fun p => ⟨p.1, p.2⟩)
    (fun v => (v.phantasmaNftId, v.carbonInstanceId)) (fun _ => rfl) (by simp [readCarbon]) (by simp)
    (by simp)

end PhantasmaNFTMintResult

/-! ## Calls that are recognised -/

theorem RegisterNameArgs.record : Record RegisterNameArgs (fun _ => True) (fun _ => True) 33 :=
  (format_write32.pair SmallString.record).iso (fun p => ⟨p.1, p.2⟩) (fun v => (v.address, v.name))
    (fun _ => rfl) (by simp only [bind_assoc, pure_bind]; rfl) (by simp) (by simp)

theorem TransferFungibleArgs.record : Record TransferFungibleArgs (fun v => v.amount.InRange)
    (fun _ => False) 73 :=
  (((format_write32.pair format_write32).pair format_write8u).pair IntX.record).iso
    (fun p => ⟨p.1.1.1, p.1.1.2, p.1.2, p.2⟩)
    (fun v => (((v.toAddress, v.fromAddress), v.tokenId), v.amount))
    (fun _ => rfl) (by simp only [bind_assoc, pure_bind]; rfl) (by simp) (by simp)

theorem TransferNonFungibleArgs.record : Record TransferNonFungibleArgs
    (fun v => v.instanceIds.length < 2 ^ 31) (fun _ => True) 76 :=
  (((format_write32.pair format_write32).pair format_write8u).pair format_writeU64Array).iso
    (fun p => ⟨p.1.1.1, p.1.1.2, p.1.2, p.2⟩)
    (fun v => (((v.toAddress, v.fromAddress), v.tokenId), v.instanceIds))
    (fun _ => rfl) (by simp [readCarbon]) (by simp) (by simp)

theorem MintFungibleArgs.record : Record MintFungibleArgs (fun v => v.amount.InRange)
    (fun _ => False) 41 :=
  ((format_write8u.pair format_write32).pair IntX.record).iso
    (fun p => ⟨p.1.1, p.1.2, p.2⟩) (fun v => ((v.tokenId, v.toAddress), v.amount))
    (fun _ => rfl) (by simp only [bind_assoc, pure_bind]; rfl) (by simp) (by simp)

theorem BurnFungibleArgs.record : Record BurnFungibleArgs (fun v => v.amount.InRange)
    (fun _ => False) 41 :=
  ((format_write8u.pair format_write32).pair IntX.record).iso
    (fun p => ⟨p.1.1, p.1.2, p.2⟩) (fun v => ((v.tokenId, v.fromAddress), v.amount))
    (fun _ => rfl) (by simp only [bind_assoc, pure_bind]; rfl) (by simp) (by simp)

theorem BurnNonFungibleArgs.record : Record BurnNonFungibleArgs
    (fun v => v.instanceIds.length < 2 ^ 31) (fun _ => True) 44 :=
  ((format_write8u.pair format_write32).pair format_writeU64Array).iso
    (fun p => ⟨p.1.1, p.1.2, p.2⟩) (fun v => ((v.tokenId, v.fromAddress), v.instanceIds))
    (fun _ => rfl) (by simp [readCarbon]) (by simp) (by simp)

/-! ## The market -/

inductive ListingType
  | fixedPrice
  deriving DecidableEq, Repr

namespace ListingType

def code : ListingType → UInt8
  | fixedPrice => 0

def read : Reader ListingType := do
  let value ← read1
  if value = 0 then pure fixedPrice else refuse s!"unsupported listing type: {value}"

theorem format : Format Fault.IsPanic (fun v => pure (write1 (code v))) read (fun _ => True)
    (fun _ => True) 1 := by
  refine format_of_reads (fun v => ?_) ?_ (fun _ => rfl) fun input => safe_read1.bind fun value => ?_
  · cases v
    refine ((reads_read1 0).bind ?_).congr (List.append_nil _).symm rfl
    rw [if_pos rfl]
    exact reads_pure fixedPrice
  · refine yields_read1.bind fun value used h => ?_
    subst h
    split
    next hv => exact hv ▸ yields_pure rfl
    next => exact yields_refuse _ _
  · split
    · exact safeOn_pure _ _
    · exact safe_refuse _

end ListingType

structure TokenListing where
  listingType : ListingType := .fixedPrice
  seller : Bytes32 := emptyBytes32
  quoteTokenId : UInt64 := 0
  price : IntX
  startDate : Int64 := 0
  endDate : Int64 := 0
  deriving DecidableEq, Repr

namespace TokenListing

instance : CarbonSerializable TokenListing where
  writeCarbon v := do
    let price ← writeCarbon v.price
    pure (write1 v.listingType.code ++ write32 v.seller ++ write8u v.quoteTokenId ++ price ++
      write8 v.startDate ++ write8 v.endDate)
  readCarbon := do
    let listingType ← ListingType.read
    let seller ← read32
    let quoteTokenId ← read8u
    let price ← readCarbon
    let startDate ← read8
    let endDate ← read8
    pure { listingType, seller, quoteTokenId, price, startDate, endDate }

theorem record : Record TokenListing (fun v => v.price.InRange) (fun _ => False) 58 :=
  (((((ListingType.format.pair format_write32).pair format_write8u).pair IntX.record).pair
    format_write8).pair format_write8).iso
    (fun p => ⟨p.1.1.1.1.1, p.1.1.1.1.2, p.1.1.1.2, p.1.1.2, p.1.2, p.2⟩)
    (fun v => (((((v.listingType, v.seller), v.quoteTokenId), v.price), v.startDate), v.endDate))
    (fun _ => by simp only [writeCarbon, bind_assoc, pure_bind, List.append_assoc])
    (by simp only [bind_assoc, pure_bind]; rfl) (by simp) (by simp)

end TokenListing

structure MarketSellTokenArgs where
  fromAddress : Bytes32
  tokenId : UInt64
  instanceId : UInt64
  quoteTokenId : UInt64
  price : IntX
  endDate : Int64
  deriving DecidableEq, Repr

namespace MarketSellTokenArgs

instance : CarbonSerializable MarketSellTokenArgs where
  writeCarbon v := do
    let price ← writeCarbon v.price
    pure (write32 v.fromAddress ++ write8u v.tokenId ++ write8u v.instanceId ++
      write8u v.quoteTokenId ++ price ++ write8 v.endDate)
  readCarbon := do
    let fromAddress ← read32
    let tokenId ← read8u
    let instanceId ← read8u
    let quoteTokenId ← read8u
    let price ← readCarbon
    let endDate ← read8
    pure { fromAddress, tokenId, instanceId, quoteTokenId, price, endDate }

theorem record : Record MarketSellTokenArgs (fun v => v.price.InRange) (fun _ => False) 65 :=
  (((((format_write32.pair format_write8u).pair format_write8u).pair format_write8u).pair
    IntX.record).pair format_write8).iso
    (fun p => ⟨p.1.1.1.1.1, p.1.1.1.1.2, p.1.1.1.2, p.1.1.2, p.1.2, p.2⟩)
    (fun v => (((((v.fromAddress, v.tokenId), v.instanceId), v.quoteTokenId), v.price), v.endDate))
    (fun _ => by simp only [writeCarbon, bind_assoc, pure_bind, List.append_assoc])
    (by simp only [bind_assoc, pure_bind]; rfl) (by simp) (by simp)

end MarketSellTokenArgs

structure MarketCancelSaleArgs where
  tokenId : UInt64
  instanceId : UInt64
  deriving DecidableEq, Repr

namespace MarketCancelSaleArgs

instance : CarbonSerializable MarketCancelSaleArgs where
  writeCarbon v := pure (write8u v.tokenId ++ write8u v.instanceId)
  readCarbon := do
    let tokenId ← read8u
    let instanceId ← read8u
    pure { tokenId, instanceId }

theorem record : Record MarketCancelSaleArgs (fun _ => True) (fun _ => True) 16 :=
  (format_write8u.pair format_write8u).iso (fun p => ⟨p.1, p.2⟩) (fun v => (v.tokenId, v.instanceId))
    (fun _ => rfl) (by simp [readCarbon]) (by simp) (by simp)

end MarketCancelSaleArgs

structure MarketBuyTokenArgs where
  fromAddress : Bytes32
  tokenId : UInt64
  instanceId : UInt64
  deriving DecidableEq, Repr

namespace MarketBuyTokenArgs

instance : CarbonSerializable MarketBuyTokenArgs where
  writeCarbon v := pure (write32 v.fromAddress ++ write8u v.tokenId ++ write8u v.instanceId)
  readCarbon := do
    let fromAddress ← read32
    let tokenId ← read8u
    let instanceId ← read8u
    pure { fromAddress, tokenId, instanceId }

theorem record : Record MarketBuyTokenArgs (fun _ => True) (fun _ => True) 48 :=
  ((format_write32.pair format_write8u).pair format_write8u).iso (fun p => ⟨p.1.1, p.1.2, p.2⟩)
    (fun v => ((v.fromAddress, v.tokenId), v.instanceId)) (fun _ => rfl) (by simp [readCarbon])
    (by simp) (by simp)

end MarketBuyTokenArgs

structure MarketGetTokenListingCountArgs where
  tokenId : UInt64
  deriving DecidableEq, Repr

namespace MarketGetTokenListingCountArgs

instance : CarbonSerializable MarketGetTokenListingCountArgs where
  writeCarbon v := pure (write8u v.tokenId)
  readCarbon := do
    let tokenId ← read8u
    pure { tokenId }

theorem record : Record MarketGetTokenListingCountArgs (fun _ => True) (fun _ => True) 8 :=
  format_write8u.iso (fun p => ⟨p⟩) (fun v => v.tokenId) (fun _ => rfl) (by simp [readCarbon])
    (by simp) (by simp)

end MarketGetTokenListingCountArgs

structure MarketGetTokenListingInfoArgs where
  tokenId : UInt64
  instanceId : UInt64
  deriving DecidableEq, Repr

namespace MarketGetTokenListingInfoArgs

instance : CarbonSerializable MarketGetTokenListingInfoArgs where
  writeCarbon v := pure (write8u v.tokenId ++ write8u v.instanceId)
  readCarbon := do
    let tokenId ← read8u
    let instanceId ← read8u
    pure { tokenId, instanceId }

theorem record : Record MarketGetTokenListingInfoArgs (fun _ => True) (fun _ => True) 16 :=
  (format_write8u.pair format_write8u).iso (fun p => ⟨p.1, p.2⟩) (fun v => (v.tokenId, v.instanceId))
    (fun _ => rfl) (by simp [readCarbon]) (by simp) (by simp)

end MarketGetTokenListingInfoArgs

end PhantasmaSdk
