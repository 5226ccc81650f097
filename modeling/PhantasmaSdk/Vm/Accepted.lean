import PhantasmaSdk.Vm.Object
import PhantasmaSdk.Vm.Transaction

/-!
# What VM readers accept

Bytes of the VM may say how long something is in more than one way, and say more of a
number than it takes. What is read off such bytes is written otherwise than it came,
but then it stays: it is read off what is written of it.

A transaction that is read is one that can be sent on, in bytes that are those it came
in or fewer (`Transaction.fromBytes_toBytes_of_fromBytes`). An object that is read fits
what a reader takes (`VMObject.fits_of_fromBytes`), as long as it came in no more bytes
than a reader takes of one string: a number may be written in two bytes more than it
came in.
-/

namespace PhantasmaSdk.Vm

open Codec Codec.Decoder CarbonReader BinaryWriter BinaryReader

/-! ## Parts -/

theorem BinaryReader.VarUintForm.length_pos {v : UInt64} {form : Bytes} (h : VarUintForm v form) :
    0 < form.length := by
  cases h with
  | byte | two | four | eight => exact Nat.succ_pos _

/-- Bytes are read off what is written of them, or more. -/
theorem noLonger_readVarBytes (maxSize : ℕ) : (readVarBytes maxSize).Yields fun data used =>
    data.length ≤ maxSize ∧ NoLonger (writeVarBytes data) used := by
  refine (yields_readVarBytes maxSize).mono fun data used h => ?_
  obtain ⟨hle, form, hform, rfl⟩ := h
  exact ⟨hle, NoLonger.append hform.eq_or_lt_length (.refl data)⟩

theorem noLonger_readString : readString.Yields fun s used =>
    (utf8 s).length ≤ maxArraySize ∧ NoLonger (writeString s) used := by
  refine (noLonger_readVarBytes maxArraySize).bind fun raw used h => ?_
  refine (yields_textOf raw).mono fun s used' h' => ?_
  obtain ⟨rfl, rfl⟩ := h'
  rwa [List.append_nil]

/-! ## Transactions -/

theorem Ed25519Signature.noLonger_read : Ed25519Signature.read.Yields fun signature used =>
    NoLonger signature.write used := by
  refine yields_readU8.bind fun kind used hkind => ?_
  split
  next => exact yields_refuse _ _
  next h =>
    obtain rfl := not_not.1 h
    refine (noLonger_readVarBytes maxArraySize).bind fun data used' hdata => ?_
    refine yields_lift fun signature hsignature => ?_
    rw [Ed25519Signature.tryFromSlice] at hsignature
    split at hsignature
    next =>
      obtain rfl := Except.ok.inj hsignature
      rw [List.append_nil, hkind]
      exact NoLonger.append (.refl _) hdata.2
    next => cases hsignature

namespace Transaction

/-- What is read of a transaction is what a reader takes, and was read off what is written
    of it, or more. -/
theorem noLonger_read : read.Yields fun tx used =>
    ((utf8 tx.nexusName).length ≤ maxArraySize ∧ (utf8 tx.chainName).length ≤ maxArraySize ∧
      tx.script.length ≤ maxArraySize ∧ tx.payload.length ≤ maxArraySize) ∧
    NoLonger (tx.toBytes true) used := by
  refine noLonger_readString.bind fun nexusName used₁ h₁ => ?_
  refine noLonger_readString.bind fun chainName used₂ h₂ => ?_
  refine (noLonger_readVarBytes _).bind fun script used₃ h₃ => ?_
  refine yields_readU32LE.bind fun expiration used₄ h₄ => ?_
  refine (noLonger_readVarBytes _).bind fun payload used₅ h₅ => ?_
  refine yields_readVarUint.bind fun count used₆ h₆ => ?_
  refine (yields_replicate Ed25519Signature.noLonger_read _).bind fun signatures used₇ h₇ => ?_
  split
  next inMemory =>
    refine yields_pure ⟨⟨h₁.1, h₂.1, h₃.1, h₅.1⟩, ?_⟩
    obtain ⟨hcount, useds, rfl, hall⟩ := h₇
    subst h₄
    have hsignatures : NoLonger (signatures.map Ed25519Signature.write).flatten useds.flatten :=
      .flatten (List.forall₂_map_left_iff.2 hall)
    rw [toBytes, if_pos rfl, hcount, UInt64.ofNat_toNat]
    simp only [List.append_assoc, List.append_nil]
    exact h₁.2.append <| h₂.2.append <| h₃.2.append <| (NoLonger.refl _).append <|
      h₅.2.append <| NoLonger.append h₆.eq_or_lt_length hsignatures
  next => exact yields_fail _ _

/-- A transaction that was read is read again from what is written of it, which are the
    bytes it was read from, or fewer. -/
theorem fromBytes_toBytes_of_fromBytes {data : Bytes} {tx : Transaction}
    (h : fromBytes data = .ok tx) :
    fromBytes (tx.toBytes true) = .ok tx ∧ NoLonger (tx.toBytes true) data := by
  obtain ⟨used, hdata, ⟨hnexus, hchain, hscript, hpayload⟩, hle⟩ :=
    noLonger_read _ _ _ (readAll_eq_ok.1 h)
  rw [List.append_nil] at hdata
  subst hdata
  exact ⟨readAll_eq_ok.2 (reads_read hnexus hchain hscript hpayload).run_self, hle⟩

/-- A transaction whose name of the nexus comes with a length of three bytes. -/
def wordyExample : Transaction where
  nexusName := "a"
  chainName := ""
  script := [11]
  expiration := 0
  payload := []
  signatures := []
  inMemory := by decide +kernel

def wordyBytes : Bytes := [0xFD, 1, 0, 97, 0, 1, 11, 0, 0, 0, 0, 0, 0]

theorem fromBytes_toBytes_wordyExample : fromBytes (wordyExample.toBytes true) = .ok wordyExample ∧
    NoLonger (wordyExample.toBytes true) wordyBytes := by
  have h : fromBytes wordyBytes = .ok wordyExample := by decide +kernel
  exact fromBytes_toBytes_of_fromBytes h

end Transaction

/-! ## Objects -/

/-- A number is written in two bytes more than it is read from, at most. -/
theorem length_bigIntToVmBytes_le (data : Bytes) :
    (bigIntToVmBytes (vmBytesToBigInt data)).length ≤ data.length + 2 := by
  have hraw : (bigIntToCsharpBytes (vmBytesToBigInt data)).length ≤ max data.length 1 := by
    rw [bigIntToCsharpBytes]
    split
    next => exact le_max_right _ _
    next hne =>
      cases data with
      | nil => exact absurd rfl hne
      | cons b bs =>
        exact (length_toSignedLE_signedLE_le (List.cons_ne_nil b bs)).trans (le_max_left _ _)
  have hzero : data = [] → vmBytesToBigInt data = 0 := by
    rintro rfl
    rfl
  rw [bigIntToVmBytes]
  by_cases hneg : vmBytesToBigInt data < 0
  · have hpos : 0 < data.length := by
      refine List.length_pos_iff.2 fun h => ?_
      rw [hzero h] at hneg
      exact lt_irrefl _ hneg
    simp only [if_pos hneg]
    split_ifs
    · rw [List.length_append, List.length_cons, List.length_singleton]
      omega
    · rw [List.length_append, List.length_singleton]
      omega
    · omega
  · simp only [if_neg hneg]
    split_ifs
    · rw [List.length_append, List.length_singleton]
      omega
    · omega

/-- A number read off no more bytes than a reader takes, less one, is written in no more. -/
theorem fits_readBigInteger : readBigInteger.Yields fun value used =>
    used.length + 1 ≤ maxArraySize → (bigIntToVmBytes value).length ≤ maxArraySize := by
  refine (yields_readVarBytes maxArraySize).bind fun raw used h => yields_pure ?_
  obtain ⟨-, form, hform, rfl⟩ := h
  have hform := hform.length_pos
  have hle := length_bigIntToVmBytes_le raw
  rw [List.append_nil, List.length_append]
  omega

namespace VMObject

/-- The object was read off some bytes, and fits if these are not too many. -/
def Taken (v : VMObject) (used : Bytes) : Prop :=
  0 < used.length ∧ (used.length ≤ maxArraySize → v.Fits)

/-- Of a struct, every key and value is taken, and takes a byte at least. -/
theorem taken_items {d : Reader VMObject} (hd : d.Yields Taken) (count : ℕ) : ((do
      let key ← d
      let value ← d
      pure (key, value) : Reader (VMObject × VMObject)).replicate count).Yields fun items used =>
    items.length ≤ used.length ∧
      (used.length ≤ maxArraySize → ∀ item ∈ items, item.1.Fits ∧ item.2.Fits) := by
  have hitem : (do
      let key ← d
      let value ← d
      pure (key, value) : Reader (VMObject × VMObject)).Yields fun item used =>
        1 ≤ used.length ∧ (used.length ≤ maxArraySize → item.1.Fits ∧ item.2.Fits) := by
    refine hd.bind fun key used hkey => hd.bind fun value used' hvalue => yields_pure ?_
    have hkey' := hkey.1
    rw [List.append_nil, List.length_append]
    exact ⟨by omega, fun hle => ⟨hkey.2 (by omega), hvalue.2 (by omega)⟩⟩
  refine (yields_replicate hitem count).mono fun items used h => ?_
  obtain ⟨-, useds, rfl, hall⟩ := h
  refine ⟨?_, fun hle item hmem => ?_⟩
  · have hlength := le_length_flatten (hall.imp fun _ _ h => h.1)
    rwa [mul_one] at hlength
  · obtain ⟨used, hused, h⟩ := exists_of_forall₂_mem hall hmem
    exact h.2 ((List.sublist_flatten_of_mem hused).length_le.trans hle)

/-- What comes after the type of an object is taken if the objects in it are. -/
theorem taken_readBody {d : Reader VMObject} (hd : d.Yields Taken) (t : VMType) (code : UInt8) :
    (readBody d t).Yields fun v used => v.Taken (code :: used) := by
  have hpos (used : Bytes) : 0 < (code :: used).length := Nat.succ_pos _
  cases t with
  | none => exact yields_pure ⟨hpos _, fun _ => .none⟩
  | bool => exact yields_readBool.bind fun value _ _ => yields_pure ⟨hpos _, fun _ => .bool value⟩
  | bytes =>
    exact (noLonger_readVarBytes _).bind fun value _ h =>
      yields_pure ⟨hpos _, fun _ => .bytes h.1⟩
  | enum =>
    refine yields_readU8.bind fun value _ _ => yields_pure ⟨hpos _, fun _ => .enum ?_⟩
    rw [UInt8.toNat_toUInt32]
    exact value.toNat_lt
  | number =>
    refine fits_readBigInteger.bind fun value used h => yields_pure ?_
    rw [List.append_nil]
    exact ⟨hpos _, fun hle => .number (h hle)⟩
  | string =>
    exact noLonger_readString.bind fun value _ h => yields_pure ⟨hpos _, fun _ => .string h.1⟩
  | timestamp =>
    exact yields_readU32LE.bind fun value _ _ => yields_pure ⟨hpos _, fun _ => .timestamp value⟩
  | object =>
    refine (noLonger_readVarBytes _).bind fun value _ h => ?_
    -- An object that is no address is read as bytes.
    split
    next h35 =>
      refine yields_pure ⟨hpos _, fun _ => .object ?_⟩
      rw [List.length_tail, h35.1]
    next => exact yields_pure ⟨hpos _, fun _ => .bytes h.1⟩
  | struct =>
    refine yields_readVarUint.bind fun count form _ => ?_
    refine (taken_items hd count.toNat).bind fun items used h => yields_pure ⟨hpos _, fun hle => ?_⟩
    obtain ⟨hlength, hfits⟩ := h
    rw [List.append_nil, List.length_cons, List.length_append] at hle
    -- There are no more items than bytes.
    have hitems := hfits (by omega)
    have hmax : maxArraySize < maxVecLength := by decide
    exact .struct (by omega) (fun item hmem => (hitems item hmem).1) fun item hmem =>
      (hitems item hmem).2

/-- An object is read off bytes, by the depth of the stack. -/
theorem taken_read (depth : ℕ) : (read depth).Yields Taken := by
  induction depth with
  | zero => exact yields_fail _ _
  | succ depth ih =>
    refine yields_readU8.bind fun code used hused => ?_
    subst hused
    refine Yields.bind (P := fun _ used => used = [])
      (yields_lift fun _ _ => rfl) fun t used' hused' => ?_
    subst hused'
    exact taken_readBody ih t code

/-- An object that was read, from bytes that are no more than a reader takes of one string,
    fits. -/
theorem fits_of_fromBytes {data : Bytes} {v : VMObject} (h : fromBytes data = .ok v)
    (hlength : data.length ≤ maxArraySize) : v.Fits := by
  obtain ⟨used, hdata, htaken⟩ := taken_read _ _ _ _ (readAll_eq_ok.1 h)
  rw [List.append_nil] at hdata
  exact htaken.2 (hdata ▸ hlength)

/-- So it is written, and read again from what is written. -/
theorem exists_toBytes_of_fromBytes {data : Bytes} {v : VMObject} (h : fromBytes data = .ok v)
    (hlength : data.length ≤ maxArraySize) : ∃ enc, v.toBytes = .ok enc ∧
      fromBytes enc = .ok v := by
  obtain ⟨enc, hw, hreads⟩ := (fits_of_fromBytes h hlength).readsBack
  exact ⟨enc, hw, readAll_eq_ok.2 (hreads _ (Nat.le_succ _)).run_self⟩

/-- A struct of a number of one byte more than it takes, and of what is no address. -/
def wordyExample : VMObject := .struct [(.number (-128), .bytes [1, 2])]

def wordyBytes : Bytes := [1, 0xFD, 1, 0, 3, 2, 0x80, 0xFF, 8, 2, 1, 2]

theorem exists_toBytes_wordyExample : ∃ enc, wordyExample.toBytes = .ok enc ∧
    fromBytes enc = .ok wordyExample := by
  have h : fromBytes wordyBytes = .ok wordyExample := rfl
  exact exists_toBytes_of_fromBytes h (by decide)

end VMObject

end PhantasmaSdk.Vm
