import PhantasmaSdk.Carbon.Envelope

/-!
# Hostile input

Decoding is safe on an input when it ends in a value or an error it returns, and
asks for no more elements than there are bytes left. Everything a message is made
of is read safely on any input but for the sections of a call: their count is
negated without a check that it can be, and capacity is requested for as many
before any of them is read. `CallBounded` is the condition on the bytes of a call
under which neither does harm, and `safe_iff` carries it over to messages and
envelopes, whose calls begin where `CallAt` says.
-/

namespace PhantasmaSdk

open Codec Codec.Decoder CarbonWriter CarbonReader

/-! ## Calls -/

/-- The count of a call's sections, negative, or the length of its arguments: the
    `i32` after its two ids. -/
def sectionField (input : Bytes) : ℤ := signedLE ((input.drop 8).take 4)

/-- If the count of sections is there, it can be negated, and there are as many
    bytes left as it counts sections. -/
def CallBounded (input : Bytes) : Prop :=
  12 ≤ input.length →
    -(2 ^ 31) < sectionField input ∧ -sectionField input ≤ (input.length - 12 : ℕ)

instance : DecidablePred CallBounded := fun input =>
  inferInstanceAs (Decidable (12 ≤ input.length → _))

theorem signedLE_write4 (v : Int32) : signedLE (write4 v) = v.toInt := by
  have hlt : v.toUInt32.toNat < 256 ^ 4 := by simpa using v.toUInt32.toNat_lt
  rw [write4, signedLE, ofLE_toLE_of_lt hlt, length_toLE]
  exact (BitVec.toInt_eq_toNat_bmod v.toBitVec).symm

/-- Four bytes are an `i32`, and a `u32`. -/
theorem exists_eq_write4 {input : Bytes} (h : 4 ≤ input.length) :
    ∃ (v : Int32) (rest : Bytes), input = write4 v ++ rest ∧ rest.length = input.length - 4 := by
  refine ⟨(UInt32.ofNat (ofLE (input.take 4))).toInt32, input.drop 4, ?_, List.length_drop⟩
  have hlen : (input.take 4).length = 4 := by simpa using h
  have hlt := ofLE_lt (input.take 4)
  rw [hlen] at hlt
  rw [write4, UInt32.toUInt32_toInt32, UInt32.toNat_ofNat_of_lt' (by simpa using hlt),
    toLE_ofLE hlen, List.take_append_drop]

theorem exists_eq_write4u {input : Bytes} (h : 4 ≤ input.length) :
    ∃ (v : UInt32) (rest : Bytes), input = write4u v ++ rest ∧ rest.length = input.length - 4 := by
  obtain ⟨v, rest, hinput, hrest⟩ := exists_eq_write4 h
  exact ⟨v.toUInt32, rest, hinput, hrest⟩

theorem sectionField_append (moduleId methodId : UInt32) (len : Int32) (rest : Bytes) :
    sectionField (write4u moduleId ++ (write4u methodId ++ (write4 len ++ rest))) = len.toInt := by
  rw [sectionField, ← List.append_assoc, List.drop_left' (by simp [write4u]),
    List.take_left' (by simp [write4]), signedLE_write4]

/-- Sections are read safely iff their count can be negated and is bounded by what
    is left. -/
theorem MsgCallArgSections.safe_readWithCount_iff {c : Int32} (hneg : c < 0) {input : Bytes} :
    (readWithCount c).Safe input ↔ -(2 ^ 31) < c.toInt ∧ -c.toInt ≤ input.length := by
  rw [readWithCount, if_neg (neg_lt_zero_iff.2 hneg)]
  have hle := c.le_toInt
  split
  next hmin =>
    subst hmin
    have hval : Int32.minValue.toInt = -(2 ^ 31) := by decide
    rw [hval]
    simp [Reader.Safe]
  next hmin =>
    have hcount := (negCount_toNat hneg hmin).2.2
    have hne : c.toInt ≠ -(2 ^ 31) := fun h => hmin (Int32.toInt_inj.1 (h.trans (by decide)))
    simp only [Reader.Safe, safeOn_bind, safeOn_reserve, safeOn_pure, implies_true, and_true]
    constructor
    · rintro ⟨hreserve, -⟩
      exact ⟨by omega, by omega⟩
    · rintro ⟨-, hbound⟩
      exact ⟨by omega, fun _ _ _ => safeOn_replicate.2 fun _ _ => CallArgSection.safe_readCarbon⟩

theorem TxMsgCall.safe_readCarbon_iff {input : Bytes} :
    (readCarbon : Reader TxMsgCall).Safe input ↔ CallBounded input := by
  by_cases hlen : 12 ≤ input.length
  · obtain ⟨moduleId, input', rfl, h'⟩ := exists_eq_write4u (by omega : 4 ≤ input.length)
    obtain ⟨methodId, input'', rfl, h''⟩ := exists_eq_write4u (by omega : 4 ≤ input'.length)
    obtain ⟨len, rest, rfl, hrest⟩ := exists_eq_write4 (by omega : 4 ≤ input''.length)
    have hbounded : CallBounded (write4u moduleId ++ (write4u methodId ++ (write4 len ++ rest))) ↔
        -(2 ^ 31) < len.toInt ∧ -len.toInt ≤ rest.length := by
      rw [CallBounded, sectionField_append, show _ - 12 = rest.length by omega]
      exact ⟨fun h => h hlen, fun h _ => h⟩
    change Decoder.SafeOn _ (read4u >>= _) _ ↔ _
    rw [hbounded, safeOn_bind_of_reads (reads_read4u moduleId) safe_read4u,
      safeOn_bind_of_reads (reads_read4u methodId) safe_read4u,
      safeOn_bind_of_reads (reads_read4 len) safe_read4]
    split
    next hnonneg =>
      rw [Int32.le_iff_toInt_le, Int32.toInt_zero] at hnonneg
      refine iff_of_true ((safe_read _).bind fun _ => safeOn_pure _ _) ⟨by omega, by omega⟩
    next hneg =>
      rw [safeOn_bind, ← MsgCallArgSections.safe_readWithCount_iff (neg_lt_zero_iff.1 hneg)]
      exact and_iff_left fun _ _ _ => safeOn_pure _ _
  · -- One of the three fields is cut short.
    refine iff_of_true ?_ fun h => absurd h hlen
    refine safeOn_bind.2 ⟨safe_read4u, fun moduleId mid hmid => ?_⟩
    refine safeOn_bind.2 ⟨safe_read4u, fun methodId mid' hmid' => ?_⟩
    refine safeOn_bind.2 ⟨safe_read4, fun len mid'' hmid'' => ?_⟩
    obtain ⟨_, rfl, rfl⟩ := yields_read4u _ _ _ hmid
    obtain ⟨_, rfl, rfl⟩ := yields_read4u _ _ _ hmid'
    obtain ⟨_, rfl, rfl⟩ := yields_read4 _ _ _ hmid''
    simp only [List.length_append, write4u, write4, length_toLE] at hlen
    omega

/-! ## Messages and envelopes -/

/-- A call begins where `stop` does in a message: after the header of a call, or
    after that of a batch, its count, and fewer calls than it counts. -/
def CallAt (input stop : Bytes) : Prop :=
  ∃ (header : TxMsg.Header) (enc : Bytes), TxMsg.writeHeader header = .ok enc ∧
    (header.1.1.1.1.1 = .call ∧ input = enc ++ stop ∨
      header.1.1.1.1.1 = .callMulti ∧ ∃ (count : ℕ) (calls : List TxMsgCall) (encs : List Bytes),
        count < 2 ^ 31 ∧ count ≤ (encs.flatten ++ stop).length ∧ calls.length < count ∧
          List.Forall₂ (fun c e => c.Normal ∧ writeCarbon c = .ok e) calls encs ∧
            input = enc ++ (write4 (UInt32.ofNat count).toInt32 ++ (encs.flatten ++ stop)))

theorem TxMsgCallMulti.safe_readCarbon_iff {input : Bytes} :
    (readCarbon : Reader TxMsgCallMulti).Safe input ↔
      ∀ (count : ℕ) (calls : List TxMsgCall) (encs : List Bytes) (stop : Bytes), count < 2 ^ 31 →
        count ≤ (encs.flatten ++ stop).length → calls.length < count →
          List.Forall₂ (fun c e => c.Normal ∧ writeCarbon c = .ok e) calls encs →
            input = write4 (UInt32.ofNat count).toInt32 ++ (encs.flatten ++ stop) →
              CallBounded stop := by
  have hstops : ∀ (count : ℕ) (input stop : Bytes),
      stop ∈ (readCarbon : Reader TxMsgCall).stops count input ↔
        ∃ (calls : List TxMsgCall) (encs : List Bytes), calls.length < count ∧
          List.Forall₂ (fun c e => c.Normal ∧ writeCarbon c = .ok e) calls encs ∧
            input = encs.flatten ++ stop := fun count input stop =>
    mem_stops_iff (fun c e h => TxMsgCall.reads_readCarbon h.1 h.2) TxMsgCall.yields_readCarbon
  change Decoder.SafeOn _ (readCarbonArray TxMsgCall >>= _) _ ↔ _
  simp only [safeOn_bind, safeOn_pure, implies_true, and_true, readCarbonArray, safeOn_replicate]
  constructor
  · rintro ⟨-, h⟩ count calls encs stop hcount hle hlt hall rfl
    exact TxMsgCall.safe_readCarbon_iff.1 (h count _
      (run_readLength_eq_ok_iff.2 ⟨hcount, hle, rfl⟩) stop
      ((hstops _ _ _).2 ⟨calls, encs, hlt, hall, rfl⟩))
  · intro h
    refine ⟨safe_readLengthFor 1, fun count rest hrun stop hstop => ?_⟩
    obtain ⟨hcount, hle, rfl⟩ := run_readLength_eq_ok_iff.1 hrun
    obtain ⟨calls, encs, hlt, hall, rfl⟩ := (hstops _ _ _).1 hstop
    exact TxMsgCall.safe_readCarbon_iff.2 (h count calls encs stop hcount hle hlt hall rfl)

theorem TxType.safe_read {input : Bytes} : TxType.read.Safe input :=
  safe_read1.bind fun value {mid} => by
    refine ⟨fun e he => ?_, fun r hr => by simp at hr⟩
    cases ht : tryFrom value with
    | ok t => rw [ht] at he; cases he
    | error e' =>
      rw [ht, run_lift_error] at he
      obtain rfl := Except.error.inj he
      rw [tryFrom] at ht
      split at ht <;> cases ht
      exact Fault.not_isPanic_error _

theorem TxMsg.safe_readHeader {input : Bytes} : TxMsg.readHeader.Safe input :=
  TxType.safe_read.bind fun _ => safe_read8.bind fun _ => safe_read8u.bind fun _ =>
    safe_read8u.bind fun _ => safe_read32.bind fun _ => SmallString.safe_readCarbon.bind fun _ =>
      safeOn_pure _ _

theorem safe_map {α β : Type} {d : Reader α} {pack : α → β} {input : Bytes} :
    (do let a ← d; pure (pack a) : Reader β).Safe input ↔ d.Safe input := by
  simp only [Reader.Safe, safeOn_bind, safeOn_pure, implies_true, and_true]

/-- The payloads without calls are read safely. -/
theorem TxPayload.safe_fromType {t : TxType} (hcall : t ≠ .call) (hmulti : t ≠ .callMulti)
    {input : Bytes} : (fromType t).Safe input := by
  cases t with
  | call => exact absurd rfl hcall
  | callMulti => exact absurd rfl hmulti
  | trade => exact safe_map.2 TxMsgTrade.safe_readCarbon
  | transferFungible => exact safe_map.2 TxMsgTransferFungible.safe_readCarbon
  | transferFungibleGasPayer => exact safe_map.2 TxMsgTransferFungibleGasPayer.safe_readCarbon
  | transferNonFungibleSingle => exact safe_map.2 TxMsgTransferNonFungibleSingle.safe_readCarbon
  | transferNonFungibleSingleGasPayer =>
    exact safe_map.2 TxMsgTransferNonFungibleSingleGasPayer.safe_readCarbon
  | transferNonFungibleMulti => exact safe_map.2 TxMsgTransferNonFungibleMulti.safe_readCarbon
  | transferNonFungibleMultiGasPayer =>
    exact safe_map.2 TxMsgTransferNonFungibleMultiGasPayer.safe_readCarbon
  | mintFungible => exact safe_map.2 TxMsgMintFungible.safe_readCarbon
  | burnFungible => exact safe_map.2 TxMsgBurnFungible.safe_readCarbon
  | burnFungibleGasPayer => exact safe_map.2 TxMsgBurnFungibleGasPayer.safe_readCarbon
  | mintNonFungible => exact safe_map.2 TxMsgMintNonFungible.safe_readCarbon
  | burnNonFungible => exact safe_map.2 TxMsgBurnNonFungible.safe_readCarbon
  | burnNonFungibleGasPayer => exact safe_map.2 TxMsgBurnNonFungibleGasPayer.safe_readCarbon
  | phantasma => exact safe_map.2 TxMsgPhantasma.safe_readCarbon
  | phantasmaRaw => exact safe_map.2 TxMsgPhantasmaRaw.safe_readCarbon

theorem TxMsg.safe_readCarbon_iff {input : Bytes} : (readCarbon : Reader TxMsg).Safe input ↔
    ∀ stop, CallAt input stop → CallBounded stop := by
  rw [TxMsg.readCarbon_eq, Reader.Safe, safeOn_bind, and_iff_right safe_readHeader]
  have hheader : ∀ (h : Header) (rest : Bytes), readHeader.run input = .ok (h, rest) ↔
      True ∧ ∃ enc, writeHeader h = .ok enc ∧ input = enc ++ rest := fun h rest =>
    lawful_header.run_eq_ok_iff fun _ => trivial
  constructor
  · rintro hsafe stop ⟨header, enc, henc, ⟨ht, hinput⟩ |
      ⟨ht, count, calls, encs, hcount, hle, hlt, hall, hinput⟩⟩
    · have := safe_map.1 (hsafe header stop ((hheader _ _).2 ⟨trivial, enc, henc, hinput⟩))
      rw [ht] at this
      exact TxMsgCall.safe_readCarbon_iff.1 (safe_map.1 this)
    · have := safe_map.1 (hsafe header _ ((hheader _ _).2 ⟨trivial, enc, henc, hinput⟩))
      rw [ht] at this
      exact TxMsgCallMulti.safe_readCarbon_iff.1 (safe_map.1 this) count calls encs stop hcount
        hle hlt hall rfl
  · intro hbounded header rest hrun
    obtain ⟨-, enc, henc, rfl⟩ := (hheader _ _).1 hrun
    refine safe_map.2 ?_
    by_cases hcall : header.1.1.1.1.1 = .call
    · rw [hcall]
      exact safe_map.2 (TxMsgCall.safe_readCarbon_iff.2
        (hbounded rest ⟨header, enc, henc, .inl ⟨hcall, rfl⟩⟩))
    by_cases hmulti : header.1.1.1.1.1 = .callMulti
    · rw [hmulti]
      refine safe_map.2 (TxMsgCallMulti.safe_readCarbon_iff.2 ?_)
      rintro count calls encs stop hcount hle hlt hall rfl
      exact hbounded stop ⟨header, enc, henc,
        .inr ⟨hmulti, count, calls, encs, hcount, hle, hlt, hall, rfl⟩⟩
    · exact TxPayload.safe_fromType hcall hmulti

/-- The witnesses of an envelope are read safely: it is as safe as its message. -/
theorem SignedTxMsg.safe_readCarbon_iff {input : Bytes} :
    (readCarbon : Reader SignedTxMsg).Safe input ↔ (readCarbon : Reader TxMsg).Safe input := by
  change Decoder.SafeOn _ (readCarbon >>= _) _ ↔ _
  rw [safeOn_bind]
  refine and_iff_left fun msg mid _ => ?_
  rw [SignedTxMsg.readWitnesses_eq]
  exact (Layout.safe_read msg.layout).bind fun _ => safeOn_pure _ _

/-- Decoding is safe on exactly the input whose calls, wherever one begins, have a
    count of sections that can be negated and is bounded by what is left. -/
theorem safe_iff (input : Bytes) :
    ((readCarbon : Reader TxMsgCall).Safe input ↔ CallBounded input) ∧
      ((readCarbon : Reader TxMsg).Safe input ↔ ∀ stop, CallAt input stop → CallBounded stop) ∧
      ((readCarbon : Reader SignedTxMsg).Safe input ↔
        ∀ stop, CallAt input stop → CallBounded stop) :=
  ⟨TxMsgCall.safe_readCarbon_iff, TxMsg.safe_readCarbon_iff,
    SignedTxMsg.safe_readCarbon_iff.trans TxMsg.safe_readCarbon_iff⟩

/-- The least `i32` for a count of sections: its negation overflows. -/
theorem not_safe_least_count : ¬∀ input : Bytes, (readCarbon : Reader TxMsgCall).Safe input ∧
    (readCarbon : Reader TxMsg).Safe input ∧ (readCarbon : Reader SignedTxMsg).Safe input := by
  intro h
  have hrun : (readCarbon : Reader TxMsgCall).run (List.replicate 11 0 ++ [0x80]) =
      .error (.panic .overflow) := by decide +kernel
  exact (h _).1.1 _ hrun (Fault.isPanic_panic _)

end PhantasmaSdk
