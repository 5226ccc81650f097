import PhantasmaSdk.Carbon.Call

/-!
# Transaction messages

A message is a type, limits, the account paying the gas, a text and the payload of
the type. `TxMsg.reads_readCarbon` says that a message that serializes is read
back, whatever follows it, and `TxMsg.yields_readCarbon` that what is read is
written again; both go by the type, one payload each.
-/

namespace PhantasmaSdk

open Codec Codec.Decoder CarbonWriter CarbonReader

/-! ## Types -/

inductive TxType
  | call
  | callMulti
  | trade
  | transferFungible
  | transferFungibleGasPayer
  | transferNonFungibleSingle
  | transferNonFungibleSingleGasPayer
  | transferNonFungibleMulti
  | transferNonFungibleMultiGasPayer
  | mintFungible
  | burnFungible
  | burnFungibleGasPayer
  | mintNonFungible
  | burnNonFungible
  | burnNonFungibleGasPayer
  | phantasma
  | phantasmaRaw
  deriving DecidableEq, Repr

namespace TxType

/-- `as u8`. -/
def toU8 : TxType → UInt8
  | .call => 0
  | .callMulti => 1
  | .trade => 2
  | .transferFungible => 3
  | .transferFungibleGasPayer => 4
  | .transferNonFungibleSingle => 5
  | .transferNonFungibleSingleGasPayer => 6
  | .transferNonFungibleMulti => 7
  | .transferNonFungibleMultiGasPayer => 8
  | .mintFungible => 9
  | .burnFungible => 10
  | .burnFungibleGasPayer => 11
  | .mintNonFungible => 12
  | .burnNonFungible => 13
  | .burnNonFungibleGasPayer => 14
  | .phantasma => 15
  | .phantasmaRaw => 16

/-- The name of a type, as `Debug` prints it. -/
def debug : TxType → String
  | .call => "Call"
  | .callMulti => "CallMulti"
  | .trade => "Trade"
  | .transferFungible => "TransferFungible"
  | .transferFungibleGasPayer => "TransferFungibleGasPayer"
  | .transferNonFungibleSingle => "TransferNonFungibleSingle"
  | .transferNonFungibleSingleGasPayer => "TransferNonFungibleSingleGasPayer"
  | .transferNonFungibleMulti => "TransferNonFungibleMulti"
  | .transferNonFungibleMultiGasPayer => "TransferNonFungibleMultiGasPayer"
  | .mintFungible => "MintFungible"
  | .burnFungible => "BurnFungible"
  | .burnFungibleGasPayer => "BurnFungibleGasPayer"
  | .mintNonFungible => "MintNonFungible"
  | .burnNonFungible => "BurnNonFungible"
  | .burnNonFungibleGasPayer => "BurnNonFungibleGasPayer"
  | .phantasma => "Phantasma"
  | .phantasmaRaw => "PhantasmaRaw"

def tryFrom (value : UInt8) : Result TxType :=
  match value.toNat with
  | 0 => pure .call
  | 1 => pure .callMulti
  | 2 => pure .trade
  | 3 => pure .transferFungible
  | 4 => pure .transferFungibleGasPayer
  | 5 => pure .transferNonFungibleSingle
  | 6 => pure .transferNonFungibleSingleGasPayer
  | 7 => pure .transferNonFungibleMulti
  | 8 => pure .transferNonFungibleMultiGasPayer
  | 9 => pure .mintFungible
  | 10 => pure .burnFungible
  | 11 => pure .burnFungibleGasPayer
  | 12 => pure .mintNonFungible
  | 13 => pure .burnNonFungible
  | 14 => pure .burnNonFungibleGasPayer
  | 15 => pure .phantasma
  | 16 => pure .phantasmaRaw
  | _ => serialization s!"unsupported transaction type: {value}"

theorem tryFrom_eq_ok {value : UInt8} {t : TxType} : tryFrom value = .ok t ↔ value = t.toU8 := by
  have hto : ∀ t : TxType, tryFrom t.toU8 = .ok t := by
    intro t
    cases t <;> rfl
  constructor
  · intro h
    have hlt : value.toNat < 17 := by
      by_contra hge
      obtain ⟨n, hn⟩ : ∃ n, value.toNat = n + 17 := ⟨value.toNat - 17, by omega⟩
      rw [tryFrom, hn] at h
      cases h
    have hall : ∀ n : Fin 17, ∃ t : TxType, UInt8.ofNat n = t.toU8 := by
      intro n
      fin_cases n
      · exact ⟨.call, rfl⟩
      · exact ⟨.callMulti, rfl⟩
      · exact ⟨.trade, rfl⟩
      · exact ⟨.transferFungible, rfl⟩
      · exact ⟨.transferFungibleGasPayer, rfl⟩
      · exact ⟨.transferNonFungibleSingle, rfl⟩
      · exact ⟨.transferNonFungibleSingleGasPayer, rfl⟩
      · exact ⟨.transferNonFungibleMulti, rfl⟩
      · exact ⟨.transferNonFungibleMultiGasPayer, rfl⟩
      · exact ⟨.mintFungible, rfl⟩
      · exact ⟨.burnFungible, rfl⟩
      · exact ⟨.burnFungibleGasPayer, rfl⟩
      · exact ⟨.mintNonFungible, rfl⟩
      · exact ⟨.burnNonFungible, rfl⟩
      · exact ⟨.burnNonFungibleGasPayer, rfl⟩
      · exact ⟨.phantasma, rfl⟩
      · exact ⟨.phantasmaRaw, rfl⟩
    obtain ⟨t', ht'⟩ := hall ⟨value.toNat, hlt⟩
    rw [UInt8.ofNat_toNat] at ht'
    rw [ht', hto] at h
    rw [ht', Except.ok.inj h]
  · rintro rfl
    exact hto t

/-- The byte of a type, as a field. -/
def read : Reader TxType := do
  let value ← read1
  lift (tryFrom value)

theorem lawful_read : Lawful (fun t : TxType => pure (write1 t.toU8)) read (fun _ => True)
    (fun _ => True) 1 :=
  lawful_of_reads
    (fun t => Reads.congr ((reads_read1 t.toU8).bind (reads_lift (tryFrom_eq_ok.2 rfl)))
      (List.append_nil _).symm rfl)
    (yields_read1.bind fun value used h => yields_lift fun t ht => by
      rw [h, tryFrom_eq_ok.1 ht, List.append_nil])
    fun _ => rfl

end TxType

/-! ## Payloads -/

inductive TxPayload
  | call (value : TxMsgCall)
  | callMulti (value : TxMsgCallMulti)
  | trade (value : TxMsgTrade)
  | transferFungible (value : TxMsgTransferFungible)
  | transferFungibleGasPayer (value : TxMsgTransferFungibleGasPayer)
  | transferNonFungibleSingle (value : TxMsgTransferNonFungibleSingle)
  | transferNonFungibleSingleGasPayer (value : TxMsgTransferNonFungibleSingleGasPayer)
  | transferNonFungibleMulti (value : TxMsgTransferNonFungibleMulti)
  | transferNonFungibleMultiGasPayer (value : TxMsgTransferNonFungibleMultiGasPayer)
  | mintFungible (value : TxMsgMintFungible)
  | burnFungible (value : TxMsgBurnFungible)
  | burnFungibleGasPayer (value : TxMsgBurnFungibleGasPayer)
  | mintNonFungible (value : TxMsgMintNonFungible)
  | burnNonFungible (value : TxMsgBurnNonFungible)
  | burnNonFungibleGasPayer (value : TxMsgBurnNonFungibleGasPayer)
  | phantasma (value : TxMsgPhantasma)
  | phantasmaRaw (value : TxMsgPhantasmaRaw)
  deriving DecidableEq, Repr

namespace TxPayload

def writeCarbon : TxPayload → Result Bytes
  | .call value => CarbonSerializable.writeCarbon value
  | .callMulti value => CarbonSerializable.writeCarbon value
  | .trade value => CarbonSerializable.writeCarbon value
  | .transferFungible value => CarbonSerializable.writeCarbon value
  | .transferFungibleGasPayer value => CarbonSerializable.writeCarbon value
  | .transferNonFungibleSingle value => CarbonSerializable.writeCarbon value
  | .transferNonFungibleSingleGasPayer value => CarbonSerializable.writeCarbon value
  | .transferNonFungibleMulti value => CarbonSerializable.writeCarbon value
  | .transferNonFungibleMultiGasPayer value => CarbonSerializable.writeCarbon value
  | .mintFungible value => CarbonSerializable.writeCarbon value
  | .burnFungible value => CarbonSerializable.writeCarbon value
  | .burnFungibleGasPayer value => CarbonSerializable.writeCarbon value
  | .mintNonFungible value => CarbonSerializable.writeCarbon value
  | .burnNonFungible value => CarbonSerializable.writeCarbon value
  | .burnNonFungibleGasPayer value => CarbonSerializable.writeCarbon value
  | .phantasma value => CarbonSerializable.writeCarbon value
  | .phantasmaRaw value => CarbonSerializable.writeCarbon value

/-- The payload of a type. -/
def fromType : TxType → Reader TxPayload
  | .call => do let value ← readCarbon; pure (.call value)
  | .callMulti => do let value ← readCarbon; pure (.callMulti value)
  | .trade => do let value ← readCarbon; pure (.trade value)
  | .transferFungible => do let value ← readCarbon; pure (.transferFungible value)
  | .transferFungibleGasPayer => do let value ← readCarbon; pure (.transferFungibleGasPayer value)
  | .transferNonFungibleSingle => do let value ← readCarbon; pure (.transferNonFungibleSingle value)
  | .transferNonFungibleSingleGasPayer => do let value ← readCarbon; pure (.transferNonFungibleSingleGasPayer value)
  | .transferNonFungibleMulti => do let value ← readCarbon; pure (.transferNonFungibleMulti value)
  | .transferNonFungibleMultiGasPayer => do let value ← readCarbon; pure (.transferNonFungibleMultiGasPayer value)
  | .mintFungible => do let value ← readCarbon; pure (.mintFungible value)
  | .burnFungible => do let value ← readCarbon; pure (.burnFungible value)
  | .burnFungibleGasPayer => do let value ← readCarbon; pure (.burnFungibleGasPayer value)
  | .mintNonFungible => do let value ← readCarbon; pure (.mintNonFungible value)
  | .burnNonFungible => do let value ← readCarbon; pure (.burnNonFungible value)
  | .burnNonFungibleGasPayer => do let value ← readCarbon; pure (.burnNonFungibleGasPayer value)
  | .phantasma => do let value ← readCarbon; pure (.phantasma value)
  | .phantasmaRaw => do let value ← readCarbon; pure (.phantasmaRaw value)

def fromAddress : TxPayload → Bytes32
  | .transferFungibleGasPayer value => value.fromAddress
  | .transferNonFungibleSingleGasPayer value => value.fromAddress
  | .transferNonFungibleMultiGasPayer value => value.fromAddress
  | .burnFungibleGasPayer value => value.fromAddress
  | .burnNonFungibleGasPayer value => value.fromAddress
  | _ => emptyBytes32

/-- The type a payload is of. -/
def txType : TxPayload → TxType
  | .call _ => .call
  | .callMulti _ => .callMulti
  | .trade _ => .trade
  | .transferFungible _ => .transferFungible
  | .transferFungibleGasPayer _ => .transferFungibleGasPayer
  | .transferNonFungibleSingle _ => .transferNonFungibleSingle
  | .transferNonFungibleSingleGasPayer _ => .transferNonFungibleSingleGasPayer
  | .transferNonFungibleMulti _ => .transferNonFungibleMulti
  | .transferNonFungibleMultiGasPayer _ => .transferNonFungibleMultiGasPayer
  | .mintFungible _ => .mintFungible
  | .burnFungible _ => .burnFungible
  | .burnFungibleGasPayer _ => .burnFungibleGasPayer
  | .mintNonFungible _ => .mintNonFungible
  | .burnNonFungible _ => .burnNonFungible
  | .burnNonFungibleGasPayer _ => .burnNonFungibleGasPayer
  | .phantasma _ => .phantasma
  | .phantasmaRaw _ => .phantasmaRaw

/-- The amounts of a payload are in the signed range, the lengths of its arrays fit
    an `i32`, and its calls are in normal form. -/
def Fits : TxPayload → Prop
  | .call value => value.Normal
  | .callMulti value => value.calls.length < 2 ^ 31 ∧ ∀ c ∈ value.calls, c.Normal
  | .trade value => value.Fits
  | .transferNonFungibleMulti value => value.instanceIds.length < 2 ^ 31
  | .transferNonFungibleMultiGasPayer value => value.instanceIds.length < 2 ^ 31
  | .mintFungible value => value.amount.InRange
  | .burnFungible value => value.amount.InRange
  | .burnFungibleGasPayer value => value.amount.InRange
  | .mintNonFungible value => value.rom.length < 2 ^ 31 ∧ value.ram.length < 2 ^ 31
  | .phantasma value => value.script.length < 2 ^ 31
  | .phantasmaRaw value => value.transaction.length < 2 ^ 31
  | _ => True

/-- No amount is in the payload: it has one encoding. -/
def NoIntX : TxPayload → Prop
  | .mintFungible _ | .burnFungible _ | .burnFungibleGasPayer _ => False
  | .trade value => value.mintF = [] ∧ value.burnF = []
  | _ => True

/-- What a payload that fits is written as is read back as a payload of its type. -/
theorem reads_fromType {p : TxPayload} (hp : p.Fits) {enc : Bytes} (hw : p.writeCarbon = .ok enc) :
    (fromType p.txType).Reads enc p := by
  cases p with
  | call value => exact (TxMsgCall.lawful.reads _ _ hp hw).map _
  | callMulti value => exact (TxMsgCallMulti.lawful.reads _ _ hp hw).map _
  | trade value => exact (TxMsgTrade.lawful.reads _ _ hp hw).map _
  | transferFungible value => exact (TxMsgTransferFungible.lawful.reads _ _ trivial hw).map _
  | transferFungibleGasPayer value => exact (TxMsgTransferFungibleGasPayer.lawful.reads _ _ trivial hw).map _
  | transferNonFungibleSingle value => exact (TxMsgTransferNonFungibleSingle.lawful.reads _ _ trivial hw).map _
  | transferNonFungibleSingleGasPayer value => exact (TxMsgTransferNonFungibleSingleGasPayer.lawful.reads _ _ trivial hw).map _
  | transferNonFungibleMulti value => exact (TxMsgTransferNonFungibleMulti.lawful.reads _ _ hp hw).map _
  | transferNonFungibleMultiGasPayer value => exact (TxMsgTransferNonFungibleMultiGasPayer.lawful.reads _ _ hp hw).map _
  | mintFungible value => exact (TxMsgMintFungible.lawful.reads _ _ hp hw).map _
  | burnFungible value => exact (TxMsgBurnFungible.lawful.reads _ _ hp hw).map _
  | burnFungibleGasPayer value => exact (TxMsgBurnFungibleGasPayer.lawful.reads _ _ hp hw).map _
  | mintNonFungible value => exact (TxMsgMintNonFungible.lawful.reads _ _ hp hw).map _
  | burnNonFungible value => exact (TxMsgBurnNonFungible.lawful.reads _ _ trivial hw).map _
  | burnNonFungibleGasPayer value => exact (TxMsgBurnNonFungibleGasPayer.lawful.reads _ _ trivial hw).map _
  | phantasma value => exact (TxMsgPhantasma.lawful.reads _ _ hp hw).map _
  | phantasmaRaw value => exact (TxMsgPhantasmaRaw.lawful.reads _ _ hp hw).map _

/-- What is read of a payload type, given the laws of its payloads. -/
theorem yields_map {α : Type} [CarbonSerializable α] {pack : α → TxPayload} {F X : α → Prop}
    {n : ℕ} {t : TxType} (h : Lawful (CarbonSerializable.writeCarbon : α → Result Bytes)
      (readCarbon : Reader α) F X n)
    (hread : fromType t = (do let value ← readCarbon; pure (pack value)))
    (hwrite : ∀ a, (pack a).writeCarbon = CarbonSerializable.writeCarbon a)
    (htype : ∀ a, (pack a).txType = t) (hfits : ∀ a, F a → (pack a).Fits)
    (hexact : ∀ a, (pack a).NoIntX → X a) :
    (fromType t).Yields fun p used => p.txType = t ∧ p.Fits ∧
      ∃ enc, p.writeCarbon = .ok enc ∧ (p.NoIntX → enc = used) := by
  rw [hread]
  refine h.yields.bind fun a used ha => yields_pure ?_
  obtain ⟨hfit, enc, hw, hx⟩ := ha
  refine ⟨htype a, hfits a hfit, enc, (hwrite a).trans hw, fun hno => ?_⟩
  rw [hx (hexact a hno), List.append_nil]

/-- A payload that is read is of the type it was read as, fits, and is written
    again: as it was read, if there is no amount in it. -/
theorem yields_fromType (t : TxType) : (fromType t).Yields fun p used => p.txType = t ∧ p.Fits ∧
    ∃ enc, p.writeCarbon = .ok enc ∧ (p.NoIntX → enc = used) := by
  cases t with
  | call => exact yields_map TxMsgCall.lawful rfl (fun _ => rfl) (fun _ => rfl) (fun _ h => h) (fun _ _ => trivial)
  | callMulti => exact yields_map TxMsgCallMulti.lawful rfl (fun _ => rfl) (fun _ => rfl) (fun _ h => h) (fun _ _ => trivial)
  | trade => exact yields_map TxMsgTrade.lawful rfl (fun _ => rfl) (fun _ => rfl) (fun _ h => h) (fun _ h => h)
  | transferFungible => exact yields_map TxMsgTransferFungible.lawful rfl (fun _ => rfl) (fun _ => rfl) (fun _ _ => trivial) (fun _ _ => trivial)
  | transferFungibleGasPayer => exact yields_map TxMsgTransferFungibleGasPayer.lawful rfl (fun _ => rfl) (fun _ => rfl) (fun _ _ => trivial) (fun _ _ => trivial)
  | transferNonFungibleSingle => exact yields_map TxMsgTransferNonFungibleSingle.lawful rfl (fun _ => rfl) (fun _ => rfl) (fun _ _ => trivial) (fun _ _ => trivial)
  | transferNonFungibleSingleGasPayer => exact yields_map TxMsgTransferNonFungibleSingleGasPayer.lawful rfl (fun _ => rfl) (fun _ => rfl) (fun _ _ => trivial) (fun _ _ => trivial)
  | transferNonFungibleMulti => exact yields_map TxMsgTransferNonFungibleMulti.lawful rfl (fun _ => rfl) (fun _ => rfl) (fun _ h => h) (fun _ _ => trivial)
  | transferNonFungibleMultiGasPayer => exact yields_map TxMsgTransferNonFungibleMultiGasPayer.lawful rfl (fun _ => rfl) (fun _ => rfl) (fun _ h => h) (fun _ _ => trivial)
  | mintFungible => exact yields_map TxMsgMintFungible.lawful rfl (fun _ => rfl) (fun _ => rfl) (fun _ h => h) (fun _ h => h)
  | burnFungible => exact yields_map TxMsgBurnFungible.lawful rfl (fun _ => rfl) (fun _ => rfl) (fun _ h => h) (fun _ h => h)
  | burnFungibleGasPayer => exact yields_map TxMsgBurnFungibleGasPayer.lawful rfl (fun _ => rfl) (fun _ => rfl) (fun _ h => h) (fun _ h => h)
  | mintNonFungible => exact yields_map TxMsgMintNonFungible.lawful rfl (fun _ => rfl) (fun _ => rfl) (fun _ h => h) (fun _ _ => trivial)
  | burnNonFungible => exact yields_map TxMsgBurnNonFungible.lawful rfl (fun _ => rfl) (fun _ => rfl) (fun _ _ => trivial) (fun _ _ => trivial)
  | burnNonFungibleGasPayer => exact yields_map TxMsgBurnNonFungibleGasPayer.lawful rfl (fun _ => rfl) (fun _ => rfl) (fun _ _ => trivial) (fun _ _ => trivial)
  | phantasma => exact yields_map TxMsgPhantasma.lawful rfl (fun _ => rfl) (fun _ => rfl) (fun _ h => h) (fun _ _ => trivial)
  | phantasmaRaw => exact yields_map TxMsgPhantasmaRaw.lawful rfl (fun _ => rfl) (fun _ => rfl) (fun _ h => h) (fun _ _ => trivial)

end TxPayload

/-! ## Messages -/

structure TxMsg where
  txType : TxType
  expiry : Int64
  maxGas : UInt64
  maxData : UInt64
  gasFrom : Bytes32
  payload : SmallString
  msg : TxPayload
  deriving DecidableEq, Repr

namespace TxMsg

instance : CarbonSerializable TxMsg where
  writeCarbon v := do
    let payload ← writeCarbon v.payload
    let msg ← v.msg.writeCarbon
    pure (write1 v.txType.toU8 ++ write8 v.expiry ++ write8u v.maxGas ++ write8u v.maxData ++
      write32 v.gasFrom ++ payload ++ msg)
  readCarbon := do
    let txType ← TxType.read
    let expiry ← read8
    let maxGas ← read8u
    let maxData ← read8u
    let gasFrom ← read32
    let payload ← readCarbon
    let msg ← TxPayload.fromType txType
    pure { txType, expiry, maxGas, maxData, gasFrom, payload, msg }

/-- The type of a message is that of its payload. -/
def Typed (v : TxMsg) : Prop := v.txType = v.msg.txType

/-- What follows the payload text is the payload. -/
abbrev Header := (((((TxType × Int64) × UInt64) × UInt64) × Bytes32) × SmallString)

/-- The fields before the payload. -/
def header (v : TxMsg) : Header :=
  (((((v.txType, v.expiry), v.maxGas), v.maxData), v.gasFrom), v.payload)

def ofHeader (h : Header) (msg : TxPayload) : TxMsg :=
  { txType := h.1.1.1.1.1, expiry := h.1.1.1.1.2, maxGas := h.1.1.1.2, maxData := h.1.1.2,
    gasFrom := h.1.2, payload := h.2, msg }

def writeHeader (h : Header) : Result Bytes := do
  let payload ← writeCarbon h.2
  pure (write1 h.1.1.1.1.1.toU8 ++ write8 h.1.1.1.1.2 ++ write8u h.1.1.1.2 ++ write8u h.1.1.2 ++
    write32 h.1.2 ++ payload)

def readHeader : Reader Header := do
  let txType ← TxType.read
  let expiry ← read8
  let maxGas ← read8u
  let maxData ← read8u
  let gasFrom ← read32
  let payload ← readCarbon
  pure (((((txType, expiry), maxGas), maxData), gasFrom), payload)

theorem lawful_header :
    Lawful writeHeader readHeader (fun _ => True) (fun _ => True) (1 + 8 + 8 + 8 + 32 + 1) :=
  (((((TxType.lawful_read.pair lawful_write8).pair lawful_write8u).pair lawful_write8u).pair
    lawful_write32).pair SmallString.lawful).iso id id (fun _ => rfl) (by simp [readHeader])
    (by simp) (by simp)

theorem writeCarbon_eq (v : TxMsg) : writeCarbon v =
    (do let header ← writeHeader v.header
        let msg ← v.msg.writeCarbon
        pure (header ++ msg) : Result Bytes) := by
  simp only [writeHeader, header, bind_assoc, pure_bind]
  rfl

theorem readCarbon_eq : (readCarbon : Reader TxMsg) =
    (do let header ← readHeader
        let msg ← TxPayload.fromType header.1.1.1.1.1
        pure (ofHeader header msg)) := by
  simp [readCarbon, readHeader, ofHeader]

theorem writeCarbon_eq_ok {v : TxMsg} {enc : Bytes} : writeCarbon v = .ok enc ↔
    ∃ header msg, writeHeader v.header = .ok header ∧ v.msg.writeCarbon = .ok msg ∧
      header ++ msg = enc := by
  rw [writeCarbon_eq, bind_eq_ok]
  constructor
  · rintro ⟨header, hheader, h⟩
    obtain ⟨msg, hmsg, h⟩ := bind_eq_ok.1 h
    exact ⟨header, msg, hheader, hmsg, Except.ok.inj h⟩
  · rintro ⟨header, msg, hheader, hmsg, rfl⟩
    exact ⟨header, hheader, bind_eq_ok.2 ⟨msg, hmsg, rfl⟩⟩

/-- A message whose type is that of its payload, and whose payload fits, is read
    back. -/
theorem reads_readCarbon {v : TxMsg} (ht : v.Typed) (hv : v.msg.Fits) {enc : Bytes}
    (hw : writeCarbon v = .ok enc) : (readCarbon : Reader TxMsg).Reads enc v := by
  obtain ⟨header, msg, hheader, hmsg, rfl⟩ := writeCarbon_eq_ok.1 hw
  rw [readCarbon_eq]
  refine (lawful_header.reads _ _ trivial hheader).bind ?_
  change (TxPayload.fromType v.txType >>= _).Reads msg v
  rw [show v.txType = _ from ht]
  exact (TxPayload.reads_fromType hv hmsg).map (ofHeader v.header)

/-- A message that is read has the type of its payload, fits, and is written again:
    as it was read, if there is no amount in it. -/
theorem yields_readCarbon : (readCarbon : Reader TxMsg).Yields fun v used =>
    v.Typed ∧ v.msg.Fits ∧ ∃ enc, writeCarbon v = .ok enc ∧ (v.msg.NoIntX → enc = used) := by
  rw [readCarbon_eq]
  refine lawful_header.yields.bind fun h used hh => (TxPayload.yields_fromType _).bind
    fun msg used' hm => yields_pure ?_
  obtain ⟨-, header, hheader, hused⟩ := hh
  obtain ⟨htype, hfits, enc, henc, hexact⟩ := hm
  refine ⟨htype.symm, hfits, header ++ enc, writeCarbon_eq_ok.2 ⟨header, enc, hheader, henc, rfl⟩,
    fun hno => ?_⟩
  rw [hused trivial, hexact hno, List.append_nil]

/-- A message is read back by the decoder of its type, whatever follows its bytes:
    for every type whose payload it carries, with amounts in the signed range,
    arrays shorter than `2 ^ 31` and calls in normal form. Hence decoding the bytes
    of a message gives the message. -/
theorem deserialize_serialize (v : TxMsg) (ht : v.Typed) (hv : v.msg.Fits) (enc : Bytes)
    (hw : serialize v = .ok enc) :
    (∀ suffix, (readCarbon : Reader TxMsg).run (enc ++ suffix) = .ok (v, suffix)) ∧
      deserialize TxMsg enc = .ok v :=
  ⟨reads_readCarbon ht hv hw, deserialize_eq_ok.2 (reads_readCarbon ht hv hw).run_self⟩

/-- A call with a register offset and two bytes for sections. -/
def sectionedCall : TxMsg :=
  { txType := .call, expiry := 1, maxGas := 2, maxData := 3, gasFrom := emptyBytes32,
    payload := ⟨"sdk"⟩,
    msg := .call { moduleId := 1, methodId := 5, args := [],
                   sections := some ⟨[⟨-1, []⟩, ⟨0, [7, 8]⟩]⟩ } }

theorem fits_sectionedCall : sectionedCall.msg.Fits := by
  refine ⟨rfl, List.cons_ne_nil _ _, by decide, fun s hs => ?_⟩
  rcases List.mem_pair.1 hs with rfl | rfl
  · exact .inl ⟨by decide, rfl⟩
  · exact .inr ⟨rfl, by decide⟩

theorem deserialize_serialize_sectionedCall : ∃ enc, serialize sectionedCall = .ok enc ∧
    (∀ suffix, (readCarbon : Reader TxMsg).run (enc ++ suffix) = .ok (sectionedCall, suffix)) ∧
      deserialize TxMsg enc = .ok sectionedCall := by
  obtain ⟨enc, hw⟩ : ∃ enc, serialize sectionedCall = .ok enc := ⟨_, rfl⟩
  exact ⟨enc, hw, deserialize_serialize sectionedCall rfl fits_sectionedCall enc hw⟩

end TxMsg

end PhantasmaSdk
