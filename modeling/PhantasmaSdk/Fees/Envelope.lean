import PhantasmaSdk.Fees.Facts

/-!
# The size of an envelope, by kind and by type

An envelope is sized twice: `envelopeBytes` goes by the type of the message, and
`envelopeBytesFor`, for a caller who has its bytes and no more, by the kind it is priced
as. The two agree on the native types and on the calls of the other kinds. They differ
on a call of the token module that is priced as the native operation it stands for
(`TxMsg.CallsNative`), whose witnesses are an array (`envelopeBytesFor_iff`).
-/

namespace PhantasmaSdk

open Machine CarbonWriter

/-- The size is the sum of its parts, if that fits. -/
theorem envelopeBytesFor_eq_ok {kind : NativeFeeKind} {length count size : UInt32} :
    envelopeBytesFor kind length count = .ok size ↔ size.toNat = length.toNat +
      if kind.usesBareSignatures then 64 * count.toNat else 4 + 96 * count.toNat := by
  have hsignature : nativeSignatureBytes.toNat = 64 := rfl
  have hentry : witnessArrayEntryBytes.toNat = 96 := rfl
  have hsize := size.toNat_lt
  rw [envelopeBytesFor]
  rw [hsignature, hentry]
  split
  · rw [bind_eq_ok]
    simp only [u32_eq_ok]
    constructor
    · rintro ⟨signatures, hsignatures, h⟩
      omega
    · intro h
      obtain ⟨signatures, -, hsignatures⟩ := exists_word32 (n := 64 * count.toNat) (by omega)
      exact ⟨signatures, hsignatures, by omega⟩
  · simp only [bind_eq_ok, u32_eq_ok]
    constructor
    · rintro ⟨counted, hcounted, entries, hentries, h⟩
      omega
    · intro h
      obtain ⟨counted, -, hcounted⟩ := exists_word32 (n := length.toNat + 4) (by omega)
      obtain ⟨entries, -, hentries⟩ := exists_word32 (n := 96 * count.toNat) (by omega)
      exact ⟨counted, hcounted, entries, hentries, by omega⟩

/-! ## Calls that are priced as native operations -/

/-- The methods of the token module that stand for an operation with a native type. -/
def nativeMethods : List UInt32 :=
  [TokenContractMethod.transferFungible, TokenContractMethod.transferNonFungible,
    TokenContractMethod.mintFungible, TokenContractMethod.burnFungible,
    TokenContractMethod.burnNonFungible]

/-- The call stands for an operation with a native type. -/
def TxMsgCall.IsNative (call : TxMsgCall) : Prop :=
  ¬MsgCallArgSections.present call.sections ∧ call.moduleId = ModuleId.token ∧
    call.methodId ∈ nativeMethods

/-- The message is such a call, alone or in a batch of its own. -/
def TxMsg.CallsNative (msg : TxMsg) : Prop :=
  match msg.msg with
  | .call call => call.IsNative
  | .callMulti ⟨[call]⟩ => call.IsNative
  | _ => False

/-- The calls that are priced as an operation with a native type stand for one. -/
theorem isNative_of_describeCall {call : TxMsgCall} {part : NativeFeePart}
    (h : describeCall call noFacts.state noFacts (some []) = .ok part) :
    part.kind.usesBareSignatures = true ↔ call.IsNative := by
  rw [kind_describedKind h]
  constructor
  · intro hbare
    rcases describedKind_cases call with hkind | hkind | ⟨hsections, hmodule, hmem⟩
    · exact nomatch hkind ▸ hbare
    · exact nomatch hkind ▸ hbare
    · exact ⟨hsections, hmodule, (by decide : ∀ e ∈ tokenMethods,
        e.2.usesBareSignatures = true → e.1 ∈ nativeMethods) _ hmem hbare⟩
  · rintro ⟨hsections, hmodule, hnative⟩
    have hall : (nativeMethods.all fun method =>
        ((tokenMethods.lookup method).getD .script).usesBareSignatures) = true := by decide
    rw [describedKind_of_token hsections hmodule]
    exact List.all_eq_true.1 hall _ hnative

/-! ## Messages -/

/-- A message of one operation, its type that of its payload: its signatures are bare by
    kind iff they are by type or it is a call that stands for a native operation, whose
    witnesses are an array. -/
theorem usesBareSignatures_iff {msg : TxMsg} {part : NativeFeePart} (ht : msg.Typed)
    (h : operations msg = .ok [part]) :
    (part.kind.usesBareSignatures = true ↔ msg.layout ≠ .array ∨ msg.CallsNative) ∧
      (msg.CallsNative → msg.layout = .array) := by
  obtain ⟨txType, expiry, maxGas, maxData, gasFrom, payload, inner⟩ := msg
  obtain rfl : txType = inner.txType := ht
  rw [operations, describe] at h
  rw [TxMsg.layout, TxMsg.CallsNative]
  revert h
  cases inner with
  | call call =>
    intro h
    obtain ⟨part', hpart, h⟩ := bind_eq_ok.1 h
    obtain rfl := List.cons_eq_cons.1 (Except.ok.inj h) |>.1
    exact ⟨by simpa [Layout.ofType, TxPayload.txType] using isNative_of_describeCall hpart,
      fun _ => rfl⟩
  | callMulti batch =>
    intro h
    obtain ⟨calls⟩ := batch
    rcases calls with - | ⟨call, - | ⟨call', calls⟩⟩
    · cases h
    · obtain ⟨part', hpart, h⟩ := bind_eq_ok.1 h
      obtain rfl := List.cons_eq_cons.1 (Except.ok.inj h) |>.1
      exact ⟨by simpa [Layout.ofType, TxPayload.txType] using isNative_of_describeCall hpart,
        fun _ => rfl⟩
    · obtain ⟨part', -, h⟩ := bind_eq_ok.1 h
      obtain ⟨rest, hrest, h⟩ := bind_eq_ok.1 h
      obtain ⟨part'', -, hrest⟩ := bind_eq_ok.1 hrest
      obtain ⟨rest', -, hrest⟩ := bind_eq_ok.1 hrest
      rw [← Except.ok.inj hrest] at h
      cases Except.ok.inj h
  | trade | phantasma =>
    intro h
    obtain rfl := List.cons_eq_cons.1 (Except.ok.inj h) |>.1
    exact ⟨iff_of_false Bool.false_ne_true (by simp [Layout.ofType, TxPayload.txType]), False.elim⟩
  | phantasmaRaw => rintro ⟨⟩
  | transferNonFungibleMulti inner | transferNonFungibleMultiGasPayer inner =>
    intro h
    obtain ⟨count, -, h⟩ := bind_eq_ok.1 h
    obtain rfl := List.cons_eq_cons.1 (Except.ok.inj h) |>.1
    exact ⟨iff_of_true rfl (Or.inl (by rintro ⟨⟩)), False.elim⟩
  | mintNonFungible inner =>
    intro h
    obtain ⟨rom, -, h⟩ := bind_eq_ok.1 h
    obtain ⟨ram, -, h⟩ := bind_eq_ok.1 h
    obtain rfl := List.cons_eq_cons.1 (Except.ok.inj h) |>.1
    exact ⟨iff_of_true rfl (Or.inl (by rintro ⟨⟩)), False.elim⟩
  | _ =>
    intro h
    obtain rfl := List.cons_eq_cons.1 (Except.ok.inj h) |>.1
    exact ⟨iff_of_true rfl (Or.inl (by rintro ⟨⟩)), False.elim⟩

/-- As many witnesses are sized as are asked for. -/
theorem sizedWitnesses_some {msg : TxMsg} {count size : UInt32}
    (h : envelopeBytes msg (some count) = .ok size) :
    SignedTxMsg.sizedWitnesses msg (some count) = count.toNat := by
  obtain ⟨addresses, haddresses, -⟩ := bind_eq_ok.1 h
  rw [placeholderAddresses] at haddresses
  rw [SignedTxMsg.sizedWitnesses]
  cases hrequired : requiredWitnesses msg with
  | some required =>
    simp only [hrequired] at haddresses
    rcases ite_eq_iff.1 haddresses with ⟨-, hrefused⟩ | ⟨hcount, -⟩
    · cases hrefused
    · exact (not_not.1 hcount).symm
  | none => rfl

/-- The bytes of `n` witnesses, by layout. -/
theorem Layout.size_eq (n : ℕ) (layout : Layout) :
    layout.size n = if layout = .array then 4 + 96 * n else 64 * n := by
  cases layout <;> rfl

/-- The two sizes of a message of one operation are the same iff it is no call that stands
    for a native operation. -/
theorem envelopeBytesFor_iff (msg : TxMsg) (ht : msg.Typed) (o : FeePlanOptions)
    (part : NativeFeePart) (hpart : describe msg o = .ok [part]) (enc : Bytes)
    (henc : serialize msg = .ok enc) (count size : UInt32)
    (hsize : envelopeBytes msg (some count) = .ok size) :
    envelopeBytesFor part.kind (UInt32.ofNat enc.length) count = .ok size ↔
      ¬msg.CallsNative := by
  obtain ⟨parts, hoperations, hattach⟩ := describe_eq_ok.1 hpart
  have hkinds := kinds_of_attachAll hattach
  obtain ⟨part', hpart', hkind⟩ := List.map_eq_singleton_iff.1 hkinds.symm
  rw [hpart'] at hoperations
  obtain ⟨hbare, harray⟩ := usesBareSignatures_iff ht hoperations
  rw [hkind] at hbare
  have htotal := SignedTxMsg.toNat_envelopeBytes henc hsize
  rw [sizedWitnesses_some hsize, Layout.size_eq] at htotal
  have hlength : (UInt32.ofNat enc.length).toNat = enc.length :=
    UInt32.toNat_ofNat_of_lt' (by have := size.toNat_lt; simp only [UInt32.size]; omega)
  rw [envelopeBytesFor_eq_ok, hlength, htotal]
  by_cases hcalls : msg.CallsNative
  · rw [if_pos (harray hcalls), if_pos (hbare.2 (Or.inr hcalls))]
    exact iff_of_false (by omega) (not_not.2 hcalls)
  · refine iff_of_true ?_ hcalls
    by_cases hlayout : msg.layout = .array
    · rw [if_pos hlayout, if_neg fun h => (hbare.1 h).elim (absurd hlayout) hcalls]
    · rw [if_neg hlayout, if_pos (hbare.2 (Or.inl hlayout))]

/-- A transfer of a fungible token, as a call of the token module. -/
def transferCall : TxMsg where
  txType := .call
  expiry := 0
  maxGas := 0
  maxData := 0
  gasFrom := emptyBytes32
  payload := ⟨""⟩
  msg := .call {
    moduleId := ModuleId.token, methodId := TokenContractMethod.transferFungible,
    args := List.replicate 72 0 ++ [8] ++ List.replicate 8 0, sections := none }

/-- The same transfer, by its native type. -/
def transferNative : TxMsg :=
  { transferCall with
    txType := .transferFungible
    msg := .transferFungible { toAddress := emptyBytes32, tokenId := 0, amount := 0 } }

theorem envelopeBytesFor_native : ∃ part enc, describe transferNative {} = .ok [part] ∧
    serialize transferNative = .ok enc ∧
      envelopeBytesFor part.kind (UInt32.ofNat enc.length) 1 = .ok 170 := by
  obtain ⟨enc, henc⟩ := exists_ok_of_isSome (x := serialize transferNative) (by decide +kernel)
  exact ⟨_, enc, rfl, henc, (envelopeBytesFor_iff transferNative rfl {} _ rfl enc henc 1 170
    (by decide +kernel)).2 id⟩

/-- The call takes 4 bytes of a count and 96 of a witness, where 64 of a signature are
    sized. -/
theorem not_envelopeBytesFor : ¬∀ (msg : TxMsg) (o : FeePlanOptions) (part : NativeFeePart)
    (enc : Bytes) (count size : UInt32), msg.Typed → describe msg o = .ok [part] →
      serialize msg = .ok enc → envelopeBytes msg (some count) = .ok size →
        envelopeBytesFor part.kind (UInt32.ofNat enc.length) count = .ok size := by
  intro h
  have hdescribed : (describe transferCall {}).toOption.map (List.map NativeFeePart.kind) =
      some [.transferFungible] := by decide +kernel
  have hserialized : (serialize transferCall).toOption.map List.length = some 151 := by
    decide +kernel
  have hsized : envelopeBytes transferCall (some 1) = .ok 251 := by decide +kernel
  obtain ⟨parts, hparts, hkinds⟩ := exists_ok_of_map hdescribed
  obtain ⟨enc, henc, hlength⟩ := exists_ok_of_map hserialized
  obtain ⟨part, rfl, hkind⟩ := List.map_eq_singleton_iff.1 hkinds
  have hfor := h transferCall {} part enc 1 251 rfl hparts henc hsized
  rw [hkind, hlength] at hfor
  exact absurd hfor (by decide)

end PhantasmaSdk
