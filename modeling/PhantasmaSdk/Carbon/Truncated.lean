import PhantasmaSdk.Carbon.Hostile

/-!
# Truncated messages

No reader of the wire looks beyond what it reads, but to check that the elements
of an array can be there: with more bytes, it reads the same value and panics
alike (`Reader.Steady`). Hence the bytes of a message are refused when any of them
are missing at the end, with an error and not a panic
(`TxMsg.deserialize_strict_prefix`).

An amount may be read off more encodings than it is written as, and a call may
panic. The codec laws do not cover these two, whose readers are shown steady field
by field.
-/

namespace PhantasmaSdk

open Codec Codec.Decoder CarbonWriter CarbonReader

variable {α : Type}

namespace CarbonReader

/-- More bytes only add to those that are left for the elements of an array. -/
theorem steady_readLengthFor (size : ℕ) : (readLengthFor size).Steady := by
  rw [readLengthFor]
  split
  · exact steady_refuse _
  refine (steady_readLE 4 _).bind fun length => ?_
  split
  · exact steady_refuse _
  simp only
  split
  · exact steady_refuse _
  constructor
  · intro input rest count hrun more
    rw [run_bind_of_ok (run_remaining input)] at hrun
    rw [run_bind_of_ok (run_remaining _)]
    split at hrun
    next => cases hrun
    next hle =>
      obtain ⟨rfl, rfl⟩ := Prod.mk.inj (Except.ok.inj hrun)
      rw [if_neg (by rw [List.length_append]; omega)]
      rfl
  · intro input e hrun hpanic
    rw [run_bind_of_ok (run_remaining input)] at hrun
    split at hrun
    next =>
      obtain rfl := Except.error.inj hrun
      exact absurd hpanic (Fault.not_isPanic_error _)
    next => cases hrun

theorem steady_array {d : Reader α} (hd : d.Steady) (size : ℕ) :
    (do let count ← readLengthFor size; d.replicate count : Reader (List α)).Steady :=
  (steady_readLengthFor size).bind hd.replicate

theorem steady_readBigIntWithHeader (header : UInt8) : (readBigIntWithHeader header).Steady := by
  rw [readBigIntWithHeader]
  split
  · exact steady_pure _
  simp only
  split
  · exact steady_refuse _
  generalize (if header &&& 0x80 ≠ 0 then 0xFF else 0x00 : UInt8) = fill
  have hraw : (if (header &&& 0x3F).toNat > 0 then read (header &&& 0x3F).toNat
      else pure [] : Reader Bytes).Steady := by
    split
    · exact steady_read _
    · exact steady_pure _
  refine hraw.bind fun raw => ?_
  split
  · split
    · exact steady_refuse _
    · exact steady_pure _
  · exact steady_fail _

end CarbonReader

theorem steady_readCarbonArray [CarbonSerializable α] (h : (readCarbon : Reader α).Steady) :
    (readCarbonArray α).Steady := steady_array h 1

theorem steady_map {β : Type} {d : Reader α} (hd : d.Steady) (pack : α → β) :
    (do let a ← d; pure (pack a) : Reader β).Steady := hd.bind fun _ => steady_pure _

/-! ## Amounts and calls -/

/-- Both forms of an amount are read by their header. -/
theorem IntX.steady_readCarbon : (readCarbon : Reader IntX).Steady := by
  refine (steady_readLE 1 _).bind fun header => ?_
  simp only
  split
  · exact steady_refuse _
  split
  · refine (steady_readArray 8).bind fun raw => ?_
    split
    · exact steady_pure _
    · exact steady_pure _
  · exact steady_map (steady_readBigIntWithHeader header) _

/-- The count of the sections says whether it can be negated, whatever follows it. -/
theorem MsgCallArgSections.steady_readWithCount (c : Int32) : (readWithCount c).Steady := by
  rw [readWithCount]
  split
  · exact steady_refuse _
  split
  · exact steady_fail _
  · have hsection := CallArgSection.lawful.steady (fun _ => trivial)
      fun _ => CallArgSection.safe_readCarbon
    exact (steady_reserve _).bind fun _ => steady_map (hsection.replicate _) _

theorem TxMsgCall.steady_readCarbon : (readCarbon : Reader TxMsgCall).Steady := by
  refine (steady_readLE 4 _).bind fun moduleId => (steady_readLE 4 _).bind fun methodId =>
    (steady_readLE 4 _).bind fun len => ?_
  -- The sign of the count says which of the two forms follows.
  split
  · exact steady_map (steady_read _) _
  · exact steady_map (MsgCallArgSections.steady_readWithCount len) _

/-! ## Payloads -/

theorem TxMsgMintFungible.steady_readCarbon : (readCarbon : Reader TxMsgMintFungible).Steady :=
  (steady_readLE 8 _).bind fun _ => (steady_readArray 32).bind fun _ =>
    steady_map IntX.steady_readCarbon _

theorem TxMsgBurnFungible.steady_readCarbon : (readCarbon : Reader TxMsgBurnFungible).Steady :=
  (steady_readLE 8 _).bind fun _ => steady_map IntX.steady_readCarbon _

theorem TxMsgBurnFungibleGasPayer.steady_readCarbon :
    (readCarbon : Reader TxMsgBurnFungibleGasPayer).Steady :=
  (steady_readLE 8 _).bind fun _ => (steady_readArray 32).bind fun _ =>
    steady_map IntX.steady_readCarbon _

/-- A payload type whose values have one encoding each, and which is read safely,
    is read steadily. -/
theorem steady_of_lawful [CarbonSerializable α] {Fits : α → Prop} {minLength : ℕ}
    (h : Lawful (writeCarbon : α → Result Bytes) readCarbon Fits (fun _ => True) minLength)
    (hsafe : ∀ {input}, (readCarbon : Reader α).Safe input) : (readCarbon : Reader α).Steady :=
  h.steady (fun _ => trivial) fun _ => hsafe

theorem TxMsgTrade.steady_readCarbon : (readCarbon : Reader TxMsgTrade).Steady :=
  (steady_readCarbonArray (steady_of_lawful TxMsgTransferFungibleGasPayer.lawful
    TxMsgTransferFungibleGasPayer.safe_readCarbon)).bind fun _ =>
  (steady_readCarbonArray (steady_of_lawful TxMsgTransferNonFungibleSingleGasPayer.lawful
    TxMsgTransferNonFungibleSingleGasPayer.safe_readCarbon)).bind fun _ =>
  (steady_readCarbonArray TxMsgMintFungible.steady_readCarbon).bind fun _ =>
  (steady_readCarbonArray TxMsgBurnFungibleGasPayer.steady_readCarbon).bind fun _ =>
  (steady_readCarbonArray (steady_of_lawful TxMsgMintNonFungible.lawful
    TxMsgMintNonFungible.safe_readCarbon)).bind fun _ =>
  steady_map (steady_readCarbonArray (steady_of_lawful TxMsgBurnNonFungibleGasPayer.lawful
    TxMsgBurnNonFungibleGasPayer.safe_readCarbon)) _

theorem TxPayload.steady_fromType (t : TxType) : (fromType t).Steady := by
  cases t with
  | call => exact steady_map TxMsgCall.steady_readCarbon _
  | callMulti =>
    exact steady_map (steady_map (steady_readCarbonArray TxMsgCall.steady_readCarbon) _) _
  | trade => exact steady_map TxMsgTrade.steady_readCarbon _
  | transferFungible =>
    exact steady_map (steady_of_lawful TxMsgTransferFungible.lawful
      TxMsgTransferFungible.safe_readCarbon) _
  | transferFungibleGasPayer =>
    exact steady_map (steady_of_lawful TxMsgTransferFungibleGasPayer.lawful
      TxMsgTransferFungibleGasPayer.safe_readCarbon) _
  | transferNonFungibleSingle =>
    exact steady_map (steady_of_lawful TxMsgTransferNonFungibleSingle.lawful
      TxMsgTransferNonFungibleSingle.safe_readCarbon) _
  | transferNonFungibleSingleGasPayer =>
    exact steady_map (steady_of_lawful TxMsgTransferNonFungibleSingleGasPayer.lawful
      TxMsgTransferNonFungibleSingleGasPayer.safe_readCarbon) _
  | transferNonFungibleMulti =>
    exact steady_map (steady_of_lawful TxMsgTransferNonFungibleMulti.lawful
      TxMsgTransferNonFungibleMulti.safe_readCarbon) _
  | transferNonFungibleMultiGasPayer =>
    exact steady_map (steady_of_lawful TxMsgTransferNonFungibleMultiGasPayer.lawful
      TxMsgTransferNonFungibleMultiGasPayer.safe_readCarbon) _
  | mintFungible => exact steady_map TxMsgMintFungible.steady_readCarbon _
  | burnFungible => exact steady_map TxMsgBurnFungible.steady_readCarbon _
  | burnFungibleGasPayer => exact steady_map TxMsgBurnFungibleGasPayer.steady_readCarbon _
  | mintNonFungible =>
    exact steady_map (steady_of_lawful TxMsgMintNonFungible.lawful
      TxMsgMintNonFungible.safe_readCarbon) _
  | burnNonFungible =>
    exact steady_map (steady_of_lawful TxMsgBurnNonFungible.lawful
      TxMsgBurnNonFungible.safe_readCarbon) _
  | burnNonFungibleGasPayer =>
    exact steady_map (steady_of_lawful TxMsgBurnNonFungibleGasPayer.lawful
      TxMsgBurnNonFungibleGasPayer.safe_readCarbon) _
  | phantasma =>
    exact steady_map (steady_of_lawful TxMsgPhantasma.lawful TxMsgPhantasma.safe_readCarbon) _
  | phantasmaRaw =>
    exact steady_map (steady_of_lawful TxMsgPhantasmaRaw.lawful
      TxMsgPhantasmaRaw.safe_readCarbon) _

/-! ## Messages -/

namespace TxMsg

/-- The type says which payload follows the header. -/
theorem steady_readCarbon : (readCarbon : Reader TxMsg).Steady := by
  rw [readCarbon_eq]
  exact (lawful_header.steady (fun _ => trivial) fun _ => safe_readHeader).bind fun header =>
    steady_map (TxPayload.steady_fromType _) _

/-- The bytes of a message, cut short anywhere, are refused with an error: for every
    type whose payload it carries, with amounts in the signed range, arrays shorter
    than `2 ^ 31` and calls in normal form. -/
theorem deserialize_strict_prefix (v : TxMsg) (ht : v.Typed) (hv : v.msg.Fits)
    (short more : Bytes) (hmore : more ≠ []) (hw : serialize v = .ok (short ++ more)) :
    ∃ e, deserialize TxMsg short = .error (.error e) := by
  obtain ⟨fault, hrun, hpanic⟩ :=
    steady_readCarbon.refuse_short (reads_readCarbon ht hv hw).run_self hmore
  cases fault with
  | error e =>
    exact ⟨e, deserializeWith_of_error hrun⟩
  | panic p => exact absurd (Fault.isPanic_panic p) hpanic

theorem deserialize_strict_prefix_sectionedCall : ∃ enc, serialize sectionedCall = .ok enc ∧
    ∀ k < enc.length, ∃ e, deserialize TxMsg (enc.take k) = .error (.error e) := by
  obtain ⟨enc, hw⟩ : ∃ enc, serialize sectionedCall = .ok enc := ⟨_, rfl⟩
  exact ⟨enc, hw, fun k hk => deserialize_strict_prefix sectionedCall rfl fits_sectionedCall
    (enc.take k) (enc.drop k) (by simpa using hk) (by rw [List.take_append_drop, hw])⟩

end TxMsg

end PhantasmaSdk
