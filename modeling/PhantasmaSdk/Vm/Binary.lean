import PhantasmaSdk.Carbon.Wire
import PhantasmaSdk.Codec.Framing

/-!
# VM binary primitives

What VM values and transactions are written and read with. Numbers that say how
long something is take one, three, five or nine bytes, and strings of bytes begin
with such a number. A reader refuses strings of more than `maxArraySize` bytes; a
writer writes any.

A number has up to four forms, of which the shortest is written, and none of which
begins another (`framing_writeVarUint`). So what is written is told apart from whatever
follows it, whether or not a reader takes it (`writeVarBytes_append_inj`).
-/

namespace PhantasmaSdk.Vm

open Codec Codec.Decoder CarbonReader

def maxArraySize : ℕ := 0x01000000

/-- The elements that a vector of the source holds are fewer. -/
def maxVecLength : ℕ := 2 ^ 63

/-! ## Numbers -/

def bigIntToCsharpBytes (value : ℤ) : Bytes := if value = 0 then [0] else toSignedLE value

/-- The bytes of a number, with the sign filled up. -/
def bigIntToVmBytes (value : ℤ) : Bytes :=
  let raw := bigIntToCsharpBytes value
  if value < 0 then
    if raw.length = 1 then raw ++ [0xFF, 0xFF]
    else if raw.getLast? = some 0xFF then raw ++ [0xFF]
    else raw
  else if raw.getLast? ≠ some 0x00 then raw ++ [0x00]
  else raw

def vmBytesToBigInt (data : Bytes) : ℤ := if data.isEmpty then 0 else signedLE data

theorem signedLE_bigIntToCsharpBytes (value : ℤ) : signedLE (bigIntToCsharpBytes value) = value := by
  rw [bigIntToCsharpBytes]
  split
  next h => rw [h]; decide
  next => exact signedLE_toSignedLE value

theorem bigIntToCsharpBytes_ne_nil (value : ℤ) : bigIntToCsharpBytes value ≠ [] := by
  rw [bigIntToCsharpBytes]
  split
  · exact List.cons_ne_nil _ _
  · exact toSignedLE_ne_nil value

/-- Filling up with the sign does not change the number. -/
theorem signedLE_bigIntToVmBytes (value : ℤ) : signedLE (bigIntToVmBytes value) = value := by
  have hfill (k : ℕ) (fill : UInt8) (hsign : fill = fillByte (decide (value < 0))) :
      signedLE (bigIntToCsharpBytes value ++ List.replicate k fill) = value := by
    have hneg : isNegative (bigIntToCsharpBytes value) = decide (value < 0) := by
      rw [Bool.eq_iff_iff, isNegative_iff_signedLE_neg, signedLE_bigIntToCsharpBytes,
        decide_eq_true_iff]
    rw [hsign, ← hneg, signedLE_append_sign, signedLE_bigIntToCsharpBytes]
  have hplain := signedLE_bigIntToCsharpBytes value
  rw [bigIntToVmBytes]
  by_cases hneg : value < 0
  · simp only [if_pos hneg]
    have hsign : (0xFF : UInt8) = fillByte (decide (value < 0)) := by simp [hneg, fillByte]
    split
    · exact hfill 2 _ hsign
    · split
      · exact hfill 1 _ hsign
      · exact hplain
  · simp only [if_neg hneg]
    split
    · exact hfill 1 _ (by simp [hneg, fillByte])
    · exact hplain

theorem bigIntToVmBytes_ne_nil (value : ℤ) : bigIntToVmBytes value ≠ [] := by
  have hne (more : Bytes) : bigIntToCsharpBytes value ++ more ≠ [] := fun h =>
    bigIntToCsharpBytes_ne_nil value (List.append_eq_nil_iff.1 h).1
  rw [bigIntToVmBytes]
  by_cases hneg : value < 0
  · simp only [if_pos hneg]
    split
    · exact hne _
    · split
      · exact hne _
      · exact bigIntToCsharpBytes_ne_nil value
  · simp only [if_neg hneg]
    split
    · exact hne _
    · exact bigIntToCsharpBytes_ne_nil value

/-- The number is read back off its bytes. -/
theorem vmBytesToBigInt_bigIntToVmBytes (value : ℤ) :
    vmBytesToBigInt (bigIntToVmBytes value) = value := by
  rw [vmBytesToBigInt, if_neg (by simp [bigIntToVmBytes_ne_nil]), signedLE_bigIntToVmBytes]

/-! ## Writing -/

namespace BinaryWriter

def writeU8 (value : UInt8) : Bytes := [value]
def writeU16LE (value : UInt16) : Bytes := toLE 2 value.toNat
def writeU32LE (value : UInt32) : Bytes := toLE 4 value.toNat
def writeU64LE (value : UInt64) : Bytes := toLE 8 value.toNat
def writeBool (value : Bool) : Bytes := writeU8 (if value then 1 else 0)

/-- A byte up to 252, or a mark and two, four or eight bytes. -/
def writeVarUint (value : UInt64) : Bytes :=
  if value < 0xFD then writeU8 value.toUInt8
  else if value ≤ 0xFFFF then writeU8 0xFD ++ writeU16LE value.toUInt16
  else if value ≤ 0xFFFFFFFF then writeU8 0xFE ++ writeU32LE value.toUInt32
  else writeU8 0xFF ++ writeU64LE value

def writeVarBytes (data : Bytes) : Bytes := writeVarUint (UInt64.ofNat data.length) ++ data

def writeString (value : String) : Bytes := writeVarBytes (utf8 value)

def writeBigInteger (value : ℤ) : Bytes := writeVarBytes (bigIntToVmBytes value)

end BinaryWriter

/-! ## Reading -/

namespace BinaryReader

/-- All of `data` is read, and nothing may be left over. -/
def readAll {α : Type} (d : Reader α) (data : Bytes) : Result α := do
  let (value, rest) ← d.run data
  -- `assert_eof`
  if rest.length ≠ 0 then serialization s!"unexpected trailing bytes: {rest.length}"
  else pure value

def readU8 : Reader UInt8 := readLE 1 UInt8.ofNat
def readU16LE : Reader UInt16 := readLE 2 UInt16.ofNat
def readU32LE : Reader UInt32 := readLE 4 UInt32.ofNat
def readU64LE : Reader UInt64 := readLE 8 UInt64.ofNat

def readBool : Reader Bool := do
  let value ← readU8
  pure (value ≠ 0)

/-- The number that the first byte begins. -/
def readVarUintFrom (value : UInt8) : Reader UInt64 :=
  if value = 0xFD then do
    let value ← readU16LE
    pure value.toUInt64
  else if value = 0xFE then do
    let value ← readU32LE
    pure value.toUInt64
  else if value = 0xFF then readU64LE
  else pure value.toUInt64

/-- The mark tells how many bytes follow it. -/
def readVarUint : Reader UInt64 := do
  let value ← readU8
  readVarUintFrom value

/-- (A `u64` is a `usize`, on 64 bits.) -/
def readVarBytes (maxSize : ℕ) : Reader Bytes := do
  let size ← readVarUint
  if size.toNat > maxSize then refuse s!"byte array too large: {size}"
  else read size.toNat

def readString : Reader String := do
  let raw ← readVarBytes maxArraySize
  textOf raw

def readBigInteger : Reader ℤ := do
  let raw ← readVarBytes maxArraySize
  pure (vmBytesToBigInt raw)

end BinaryReader

/-! ## Reading back what was written -/

namespace BinaryReader

open BinaryWriter

theorem readAll_eq_ok {α : Type} {d : Reader α} {data : Bytes} {value : α} :
    readAll d data = .ok value ↔ d.run data = .ok (value, []) := by
  rw [readAll, bind_eq_ok]
  constructor
  · rintro ⟨⟨v, rest⟩, hr, h⟩
    simp only at h
    split at h
    next => cases h
    next hl => rw [hr, ← Except.ok.inj h, List.length_eq_zero_iff.1 (not_not.1 hl)]
  · exact fun hr => ⟨(value, []), hr, rfl⟩

theorem reads_readU8 (v : UInt8) : readU8.Reads (writeU8 v) v := reads_read1 v

theorem reads_readU16LE (v : UInt16) : readU16LE.Reads (writeU16LE v) v :=
  (reads_readLE (by simpa using v.toNat_lt)).congr rfl (by simp)

theorem reads_readU32LE (v : UInt32) : readU32LE.Reads (writeU32LE v) v :=
  (reads_readLE (by simpa using v.toNat_lt)).congr rfl (by simp)

theorem reads_readU64LE (v : UInt64) : readU64LE.Reads (writeU64LE v) v :=
  (reads_readLE (by simpa using v.toNat_lt)).congr rfl (by simp)

theorem reads_readBool (v : Bool) : readBool.Reads (writeBool v) v :=
  ((reads_readU8 _).map fun value => decide (value ≠ 0)).congr rfl (by cases v <;> decide)

/-- What a number is read off: a byte up to 252, or a mark and two, four or eight bytes.
    Small numbers are read off many bytes, too. -/
inductive VarUintForm : UInt64 → Bytes → Prop
  | byte (value : UInt8) : value < 0xFD → VarUintForm value.toUInt64 (writeU8 value)
  | two (value : UInt16) : VarUintForm value.toUInt64 (writeU8 0xFD ++ writeU16LE value)
  | four (value : UInt32) : VarUintForm value.toUInt64 (writeU8 0xFE ++ writeU32LE value)
  | eight (value : UInt64) : VarUintForm value (writeU8 0xFF ++ writeU64LE value)

theorem VarUintForm.reads {v : UInt64} {form : Bytes} (h : VarUintForm v form) :
    readVarUint.Reads form v := by
  have hmark (mark : UInt8) (enc : Bytes) (henc : (readVarUintFrom mark).Reads enc v) :
      readVarUint.Reads (writeU8 mark ++ enc) v := (reads_readU8 mark).bind henc
  cases h with
  | byte value hvalue =>
    have hne (mark : UInt8) (hle : 0xFD ≤ mark) : value ≠ mark := by
      rintro rfl
      exact absurd hvalue (UInt8.not_lt.2 hle)
    refine (hmark value [] ?_).congr (List.append_nil _).symm rfl
    rw [readVarUintFrom, if_neg (hne 0xFD (by decide)), if_neg (hne 0xFE (by decide)),
      if_neg (hne 0xFF (by decide))]
    exact reads_pure _
  | two value => exact hmark 0xFD _ ((reads_readU16LE value).map _)
  | four value => exact hmark 0xFE _ ((reads_readU32LE value).map _)
  | eight => exact hmark 0xFF _ (reads_readU64LE v)

/-- What is written is one of the forms. -/
theorem varUintForm_writeVarUint (v : UInt64) : VarUintForm v (writeVarUint v) := by
  rw [writeVarUint]
  split
  next h =>
    have hback : v.toUInt8.toUInt64 = v := by
      rw [UInt64.toUInt64_toUInt8, UInt64.mod_eq_of_lt (UInt64.lt_trans h (by decide))]
    have hlt : v.toUInt8 < 0xFD := by
      rw [UInt8.lt_iff_toNat_lt, ← UInt8.toNat_toUInt64, hback]
      exact UInt64.lt_iff_toNat_lt.1 h
    have hform := VarUintForm.byte v.toUInt8 hlt
    rwa [hback] at hform
  next =>
    split
    next h =>
      have hback : v.toUInt16.toUInt64 = v := by
        rw [UInt64.toUInt64_toUInt16, UInt64.mod_eq_of_lt (UInt64.lt_of_le_of_lt h (by decide))]
      have hform := VarUintForm.two v.toUInt16
      rwa [hback] at hform
    next =>
      split
      next h =>
        have hback : v.toUInt32.toUInt64 = v := by
          rw [UInt64.toUInt64_toUInt32, UInt64.mod_eq_of_lt (UInt64.lt_of_le_of_lt h (by decide))]
        have hform := VarUintForm.four v.toUInt32
        rwa [hback] at hform
      next => exact .eight v

/-- A number is read back in each of its four forms. -/
theorem reads_readVarUint (v : UInt64) : readVarUint.Reads (writeVarUint v) v :=
  (varUintForm_writeVarUint v).reads

/-- Bytes that are no more than may be are read back. -/
theorem reads_readVarBytes {maxSize : ℕ} {data : Bytes} (h : data.length ≤ maxSize)
    (hlen : data.length < 2 ^ 64) : (readVarBytes maxSize).Reads (writeVarBytes data) data := by
  have hsize : (UInt64.ofNat data.length).toNat = data.length := UInt64.toNat_ofNat_of_lt' hlen
  refine (reads_readVarUint _).bind ?_
  rw [hsize, if_neg (by omega)]
  exact reads_read rfl

/-- A text of a length that is accepted is read back. -/
theorem reads_readString {s : String} (h : (utf8 s).length ≤ maxArraySize) :
    readString.Reads (writeString s) s :=
  ((reads_readVarBytes h (h.trans_lt (by decide))).bind (reads_textOf s)).congr
    (List.append_nil _).symm rfl

/-- So is a number. -/
theorem reads_readBigInteger {value : ℤ} (h : (bigIntToVmBytes value).length ≤ maxArraySize) :
    readBigInteger.Reads (writeBigInteger value) value :=
  ((reads_readVarBytes h (h.trans_lt (by decide))).map vmBytesToBigInt).congr rfl
    (vmBytesToBigInt_bigIntToVmBytes value).symm

end BinaryReader

namespace BinaryWriter

/-- Bytes written, of any length, are told apart from what follows them. -/
theorem writeVarBytes_append_inj {a b s t : Bytes} (ha : a.length < 2 ^ 64)
    (hb : b.length < 2 ^ 64) (h : writeVarBytes a ++ s = writeVarBytes b ++ t) : a = b ∧ s = t :=
  (BinaryReader.reads_readVarBytes ha.le ha).append_inj (BinaryReader.reads_readVarBytes hb.le hb) h

end BinaryWriter

/-! ## What is accepted -/

namespace BinaryReader

open BinaryWriter

theorem yields_readU8 : readU8.Yields fun v used => used = writeU8 v := yields_read1

theorem yields_readU16LE : readU16LE.Yields fun v used => used = writeU16LE v :=
  (yields_readLE 2 _).mono fun _ _ ⟨k, hk, ha, hu⟩ => by
    subst ha hu
    rw [writeU16LE, UInt16.toNat_ofNat_of_lt' (by simpa using hk)]

theorem yields_readU32LE : readU32LE.Yields fun v used => used = writeU32LE v := yields_read4u

theorem yields_readU64LE : readU64LE.Yields fun v used => used = writeU64LE v := yields_read8u

/-- Any byte is a truth value. -/
theorem yields_readBool : readBool.Yields fun v used =>
    ∃ value, v = decide (value ≠ 0) ∧ used = writeU8 value := by
  refine yields_readU8.bind fun value used hused => yields_pure ⟨value, rfl, ?_⟩
  rw [hused, List.append_nil]

/-- A number is read off nothing but its forms. -/
theorem yields_readVarUint : readVarUint.Yields VarUintForm := by
  refine yields_readU8.bind fun mark used hmark => ?_
  subst hmark
  rw [readVarUintFrom]
  split
  next h =>
    refine yields_readU16LE.bind fun value used hused => yields_pure ?_
    rw [h, hused, List.append_nil]
    exact .two value
  next hne₁ =>
    split
    next h =>
      refine yields_readU32LE.bind fun value used hused => yields_pure ?_
      rw [h, hused, List.append_nil]
      exact .four value
    next hne₂ =>
      split
      next h =>
        refine yields_readU64LE.mono fun value used hused => ?_
        rw [h, hused]
        exact .eight value
      next hne₃ =>
        have hlt : mark < 0xFD := by
          rw [← UInt8.toNat_inj] at hne₁ hne₂ hne₃
          have hroom := mark.toNat_lt
          simp only [UInt8.reduceToNat] at hne₁ hne₂ hne₃
          exact UInt8.lt_iff_toNat_lt.2 (by simp only [UInt8.reduceToNat]; omega)
        refine yields_pure ?_
        rw [List.append_nil]
        exact .byte mark hlt

/-- Bytes are read off a form of their number, and the bytes, which are no more than may be. -/
theorem yields_readVarBytes (maxSize : ℕ) : (readVarBytes maxSize).Yields fun data used =>
    data.length ≤ maxSize ∧ ∃ form, VarUintForm (UInt64.ofNat data.length) form ∧
      used = form ++ data := by
  refine yields_readVarUint.bind fun size form hform => ?_
  split
  next => exact yields_refuse _ _
  next hle =>
    refine (yields_read size.toNat).mono fun data used h => ?_
    obtain ⟨rfl, hlength⟩ := h
    refine ⟨hlength ▸ not_lt.1 hle, form, ?_, rfl⟩
    rwa [hlength, UInt64.ofNat_toNat]

/-- Any form of a number but the one that is written is longer. -/
theorem VarUintForm.eq_or_lt_length {v : UInt64} {form : Bytes} (h : VarUintForm v form) :
    form = writeVarUint v ∨ (writeVarUint v).length < form.length := by
  rw [writeVarUint]
  cases h with
  | byte value hvalue =>
    have hlt : value.toUInt64 < 0xFD := by
      rw [UInt64.lt_iff_toNat_lt, UInt8.toNat_toUInt64]
      exact UInt8.lt_iff_toNat_lt.1 hvalue
    rw [if_pos hlt, UInt8.toUInt8_toUInt64]
    exact .inl rfl
  | two value =>
    have hle : value.toUInt64 ≤ 0xFFFF := by
      have hroom := value.toNat_lt
      rw [UInt64.le_iff_toNat_le, UInt16.toNat_toUInt64]
      exact Nat.le_of_lt_succ hroom
    split
    · exact .inr (by simp [writeU8, writeU16LE])
    · rw [UInt16.toUInt16_toUInt64]
      exact .inl rfl
  | four value =>
    have hle : value.toUInt64 ≤ 0xFFFFFFFF := by
      have hroom := value.toNat_lt
      rw [UInt64.le_iff_toNat_le, UInt32.toNat_toUInt64]
      exact Nat.le_of_lt_succ hroom
    split
    · exact .inr (by simp [writeU8, writeU32LE])
    split
    · exact .inr (by simp [writeU8, writeU16LE, writeU32LE])
    · rw [UInt32.toUInt32_toUInt64]
      exact .inl rfl
  | eight =>
    split
    · exact .inr (by simp [writeU8, writeU64LE])
    split
    · exact .inr (by simp [writeU8, writeU16LE, writeU64LE])
    split
    · exact .inr (by simp [writeU8, writeU32LE, writeU64LE])
    · exact .inl rfl

/-- Numbers are framed. -/
theorem framing_writeVarUint : Framing writeVarUint readVarUint :=
  .of_forms (fun _ _ => VarUintForm.reads) yields_readVarUint varUintForm_writeVarUint
    fun _ _ => VarUintForm.eq_or_lt_length

/-- A number of one byte, read off three. -/
example : readVarUint.IsForm [0xFD, 0x01, 0x00] 1 := (VarUintForm.two 1).reads.isForm

/-- The length is read first, as far as a `u64` holds it. -/
theorem run_readVarBytes (maxSize : ℕ) (data suffix : Bytes) :
    (readVarBytes maxSize).run (writeVarBytes data ++ suffix) =
      if (UInt64.ofNat data.length).toNat > maxSize then
        .error (.error (.serialization s!"byte array too large: {UInt64.ofNat data.length}"))
      else (read (UInt64.ofNat data.length).toNat).run (data ++ suffix) := by
  rw [writeVarBytes, List.append_assoc, readVarBytes, run_bind_of_ok (reads_readVarUint _ _)]
  split <;> rfl

/-- What is written of bytes is read as them iff they are no more than may be. -/
theorem run_readVarBytes_eq_ok {maxSize : UInt64} {data suffix rest : Bytes} :
    (readVarBytes maxSize.toNat).run (writeVarBytes data ++ suffix) = .ok (data, rest) ↔
      rest = suffix ∧ data.length ≤ maxSize.toNat := by
  constructor
  · intro h
    rw [run_readVarBytes] at h
    split at h
    next => cases h
    next hle =>
      obtain ⟨used, happend, rfl, hlength⟩ := yields_read _ _ _ _ h
      exact ⟨(List.append_cancel_left happend).symm, hlength ▸ not_lt.1 hle⟩
  · rintro ⟨rfl, hle⟩
    exact reads_readVarBytes hle (hle.trans_lt maxSize.toNat_lt) rest

/-- A number is read back whatever follows it, what is written of it is shorter than any
    other of its forms, no form begins another, nor does what is written of a number begin
    what is written of another. Bytes that a number begins are read back iff they are no
    more than may be. -/
theorem varUint_framed :
    Framing writeVarUint readVarUint ∧
    (∀ v v', writeVarUint v <+: writeVarUint v' → v = v') ∧
    ∀ (maxSize : UInt64) (data suffix rest : Bytes),
      (readVarBytes maxSize.toNat).run (writeVarBytes data ++ suffix) = .ok (data, rest) ↔
        rest = suffix ∧ data.length ≤ maxSize.toNat :=
  ⟨framing_writeVarUint, fun _ _ => framing_writeVarUint.eq_of_prefix,
    fun _ _ _ _ => run_readVarBytes_eq_ok⟩

end BinaryReader

/-! ## Safety -/

namespace BinaryReader

variable {input : Bytes}

theorem safe_readBool : readBool.Safe input := (safe_readLE _ _).bind fun _ => safeOn_pure _ _

theorem safe_readVarUint : readVarUint.Safe input := by
  refine (safe_readLE _ _).bind fun value => ?_
  rw [readVarUintFrom]
  split_ifs
  · exact (safe_readLE _ _).bind fun _ => safeOn_pure _ _
  · exact (safe_readLE _ _).bind fun _ => safeOn_pure _ _
  · exact safe_readLE _ _
  · exact safeOn_pure _ _

theorem safe_readVarBytes (maxSize : ℕ) : (readVarBytes maxSize).Safe input := by
  refine safe_readVarUint.bind fun size => ?_
  split
  · exact safe_refuse _
  · exact safe_read _

end BinaryReader

/-! ## More bytes -/

namespace BinaryReader

theorem steady_readBool : readBool.Steady := (steady_readLE _ _).bind fun _ => steady_pure _

/-- A number is read off whatever begins with one of its forms. -/
theorem steady_readVarUint : readVarUint.Steady :=
  steady_of_reads yields_readVarUint (fun _ _ => VarUintForm.reads) fun _ => safe_readVarUint

theorem steady_readVarBytes (maxSize : ℕ) : (readVarBytes maxSize).Steady := by
  refine steady_readVarUint.bind fun size => ?_
  split
  · exact steady_refuse _
  · exact steady_read _

theorem steady_readString : readString.Steady := by
  refine (steady_readVarBytes _).bind fun raw => ?_
  rw [textOf]
  split
  · exact steady_pure _
  · exact steady_refuse _

theorem steady_readBigInteger : readBigInteger.Steady :=
  (steady_readVarBytes _).bind fun _ => steady_pure _

end BinaryReader

end PhantasmaSdk.Vm
