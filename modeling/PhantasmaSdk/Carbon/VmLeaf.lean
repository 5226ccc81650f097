import PhantasmaSdk.Carbon.CompactBigInt
import PhantasmaSdk.Carbon.VmValue

/-!
# VM values without variables

A value of a type whose values hold no variables is *well typed* when it has the
form the type is read as, its integers are within the width of the type, its texts
hold no zero byte, and its lists are shorter than `2 ^ 31`. Such a value is written
in at least one byte and read back (`VMValue.carried_leaf`).
-/

namespace PhantasmaSdk

open Codec Codec.Decoder CarbonWriter CarbonReader

variable {α β : Type}

/-- Something is written, at least a byte, and read back as the value. -/
def Carried (written : Result Bytes) (d : Reader α) (value : α) : Prop :=
  ∃ enc, written = .ok enc ∧ d.Reads enc value ∧ 1 ≤ enc.length

theorem Carried.map {written : Result Bytes} {d : Reader α} {value : α}
    (h : Carried written d value) (pack : α → β) :
    Carried written (do let a ← d; pure (pack a)) (pack value) :=
  let ⟨enc, hw, hreads, hpos⟩ := h
  ⟨enc, hw, hreads.map pack, hpos⟩

/-- Values that are carried, each in `size` bytes at least, are so as an array. -/
theorem carried_array {d : Reader α} {write : α → Result Bytes} {size : ℕ} {values : List α}
    (hs : 0 < size) (hs' : size ≤ 2 ^ 32) (hl : values.length < 2 ^ 31)
    (h : ∀ a ∈ values, ∃ enc, write a = .ok enc ∧ d.Reads enc a ∧ size ≤ enc.length) :
    Carried (writeArray write values) (do let count ← readLengthFor size; d.replicate count)
      values := by
  obtain ⟨encs, hencs⟩ := forall₂_of_isOk fun a ha => (h a ha).imp fun _ h => h.1
  have hw := writeArray_of_forall₂ (by omega) hencs
  have hreads := reads_array hs hs' hl (fun a ha enc he => by
    obtain ⟨enc', he', hread, hsize⟩ := h a ha
    obtain rfl := Except.ok.inj (he'.symm.trans he)
    exact ⟨hread, hsize⟩) hw
  have hpos := le_length_writeArray hw
  exact ⟨_, hw, hreads, by omega⟩

theorem carried_readReserved {d : Reader α} {write : α → Result Bytes} {size : ℕ}
    {values : List α} (hs : 0 < size) (hs' : size ≤ 2 ^ 32) (hl : values.length < 2 ^ 31)
    (h : ∀ a ∈ values, ∃ enc, write a = .ok enc ∧ d.Reads enc a ∧ size ≤ enc.length) :
    Carried (writeArray write values) (readReserved size d) values := by
  obtain ⟨enc, hw, hreads, hpos⟩ := carried_array hs hs' hl h
  exact ⟨enc, hw, fun suffix => (run_readReserved size d _).trans (hreads suffix), hpos⟩

theorem carried_writeByteArray {value : Bytes} (hl : value.length < 2 ^ 31) :
    ∃ enc, writeByteArray value = .ok enc ∧ readByteArray.Reads enc value ∧ 4 ≤ enc.length := by
  have hw : writeByteArray value = .ok (write4 (UInt32.ofNat value.length).toInt32 ++ value) := by
    rw [writeByteArray, ensureU32Len_of_lt (by omega), ok_bind, pure_eq_ok]
  exact ⟨_, hw, reads_readByteArray hl hw, by rw [length_writeByteArray hw]; omega⟩

theorem carried_writeStringZ {value : String} (h : 0 ∉ utf8 value) :
    Carried (writeStringZ value) readStringZ value := by
  have hw : writeStringZ value = .ok (utf8 value ++ write1 0) := if_neg h
  exact ⟨_, hw, reads_readStringZ hw, by rw [List.length_append]; exact Nat.le_add_left _ _⟩

/-- A big integer of the signed range of a word. -/
theorem carried_writeBigInt {value : ℤ} (h : IntX.InRange ⟨value⟩) :
    Carried (writeBigInt value) readBigInt value := by
  have h2 : (2 : ℤ) ^ 255 ≤ 2 ^ 256 := by norm_num
  obtain ⟨enc, hw⟩ := exists_writeBigInt_iff.2 (h.imp_right fun hhi => hhi.trans_le h2)
  exact ⟨enc, hw, reads_readBigInt_self h hw, one_le_length_writeBigInt hw⟩

/-! ## Narrow integers -/

theorem toInt64_toInt8 {v : Int64} (h : -(2 ^ 7) ≤ v.toInt ∧ v.toInt < 2 ^ 7) :
    v.toInt8.toInt64 = v := by
  rw [← Int64.toInt_inj, Int8.toInt_toInt64, Int64.toInt_toInt8,
    bmod_eq_self (by push_cast; omega) (by push_cast; omega)]

theorem toInt64_toInt16 {v : Int64} (h : -(2 ^ 15) ≤ v.toInt ∧ v.toInt < 2 ^ 15) :
    v.toInt16.toInt64 = v := by
  rw [← Int64.toInt_inj, Int16.toInt_toInt64, Int64.toInt_toInt16,
    bmod_eq_self (by push_cast; omega) (by push_cast; omega)]

theorem toInt64_toInt32 {v : Int64} (h : -(2 ^ 31) ≤ v.toInt ∧ v.toInt < 2 ^ 31) :
    v.toInt32.toInt64 = v := by
  rw [← Int64.toInt_inj, Int32.toInt_toInt64, Int64.toInt_toInt32,
    bmod_eq_self (by push_cast; omega) (by push_cast; omega)]

theorem reads_readI8 (v : Int8) :
    (do let b ← read1; pure b.toInt8 : Reader Int8).Reads (write1 v.toUInt8) v :=
  (reads_read1 v.toUInt8).map UInt8.toInt8

/-! ## Well-typed values -/

namespace VMValue

/-- The well-typed values of a type whose values hold no variables. -/
def FitsLeaf : VMValue → VMType → Prop
  | bytes value, .bytes => value.length < 2 ^ 31
  | int value, .int8 => -(2 ^ 7) ≤ value.toInt ∧ value.toInt < 2 ^ 7
  | int value, .int16 => -(2 ^ 15) ≤ value.toInt ∧ value.toInt < 2 ^ 15
  | int value, .int32 => -(2 ^ 31) ≤ value.toInt ∧ value.toInt < 2 ^ 31
  | int _, .int64 => True
  | int256 value, .int256 => IntX.InRange ⟨value⟩
  | bytes16 _, .bytes16 => True
  | bytes32 _, .bytes32 => True
  | bytes64 _, .bytes64 => True
  | string value, .string => 0 ∉ utf8 value
  | arrayBytes values, .arrayBytes => values.length < 2 ^ 31 ∧ ∀ v ∈ values, v.length < 2 ^ 31
  | arrayInt8 values, .arrayInt8 => values.length < 2 ^ 31
  | arrayInt16 values, .arrayInt16 => values.length < 2 ^ 31
  | arrayInt32 values, .arrayInt32 => values.length < 2 ^ 31
  | arrayInt64 values, .arrayInt64 => values.length < 2 ^ 31
  | arrayInt256 values, .arrayInt256 =>
    values.length < 2 ^ 31 ∧ ∀ v ∈ values, IntX.InRange ⟨v⟩
  | arrayBytes16 values, .arrayBytes16 => values.length < 2 ^ 31
  | arrayBytes32 values, .arrayBytes32 => values.length < 2 ^ 31
  | arrayBytes64 values, .arrayBytes64 => values.length < 2 ^ 31
  | arrayString values, .arrayString => values.length < 2 ^ 31 ∧ ∀ v ∈ values, 0 ∉ utf8 v
  | _, _ => False

/-- A well-typed value without variables is carried. -/
theorem carried_leaf {data : VMValue} {vmType : VMType} (h : data.FitsLeaf vmType) :
    Carried (data.writeLeaf vmType) (readLeaf vmType) data := by
  unfold FitsLeaf at h
  split at h
  next value =>
    obtain ⟨enc, hw, hreads, hlen⟩ := carried_writeByteArray h
    exact Carried.map ⟨enc, hw, hreads, by omega⟩ VMValue.bytes
  next value =>
    have hc := Carried.map ⟨_, rfl, reads_read1 value.toInt8.toUInt8, le_rfl⟩
      fun b => VMValue.int b.toInt8.toInt64
    rwa [show value.toInt8.toUInt8.toInt8 = value.toInt8 from rfl, toInt64_toInt8 h] at hc
  next value =>
    have hc := Carried.map ⟨_, rfl, reads_read2 value.toInt16, by simp [write2]⟩
      fun v => VMValue.int v.toInt64
    rwa [toInt64_toInt16 h] at hc
  next value =>
    have hc := Carried.map ⟨_, rfl, reads_read4 value.toInt32, by simp [write4]⟩
      fun v => VMValue.int v.toInt64
    rwa [toInt64_toInt32 h] at hc
  next value => exact Carried.map ⟨_, rfl, reads_read8 value, by simp [write8]⟩ VMValue.int
  next value => exact (carried_writeBigInt h).map VMValue.int256
  next value =>
    exact Carried.map ⟨_, rfl, reads_read16 value, by simp [write16, value.length_eq]⟩ VMValue.bytes16
  next value =>
    exact Carried.map ⟨_, rfl, reads_read32 value, by simp [write32, value.length_eq]⟩ VMValue.bytes32
  next value =>
    exact Carried.map ⟨_, rfl, reads_read64 value, by simp [write64, value.length_eq]⟩ VMValue.bytes64
  next value => exact (carried_writeStringZ h).map VMValue.string
  next values =>
    exact (carried_array (by norm_num) (by norm_num) h.1 fun v hv =>
      carried_writeByteArray (h.2 v hv)).map VMValue.arrayBytes
  next values =>
    exact (carried_array one_pos (by norm_num) h fun v hv =>
      ⟨_, rfl, reads_readI8 v, le_rfl⟩).map VMValue.arrayInt8
  next values =>
    exact (carried_array (by norm_num) (by norm_num) h fun v hv =>
      ⟨_, rfl, reads_read2 v, (length_toLE 2 _).ge⟩).map VMValue.arrayInt16
  next values =>
    exact (carried_array (by norm_num) (by norm_num) h fun v hv =>
      ⟨_, rfl, reads_read4 v, (length_toLE 4 _).ge⟩).map VMValue.arrayInt32
  next values =>
    exact (carried_array (by norm_num) (by norm_num) h fun v hv =>
      ⟨_, rfl, reads_read8 v, (length_toLE 8 _).ge⟩).map VMValue.arrayInt64
  next values =>
    exact (carried_array one_pos (by norm_num) h.1 fun v hv =>
      carried_writeBigInt (h.2 v hv)).map VMValue.arrayInt256
  next values =>
    exact (carried_readReserved (by norm_num) (by norm_num) h fun v hv =>
      ⟨_, rfl, reads_read16 v, v.length_eq.ge⟩).map VMValue.arrayBytes16
  next values =>
    exact (carried_readReserved (by norm_num) (by norm_num) h fun v hv =>
      ⟨_, rfl, reads_read32 v, v.length_eq.ge⟩).map VMValue.arrayBytes32
  next values =>
    exact (carried_readReserved (by norm_num) (by norm_num) h fun v hv =>
      ⟨_, rfl, reads_read64 v, v.length_eq.ge⟩).map VMValue.arrayBytes64
  next values =>
    exact (carried_array one_pos (by norm_num) h.1 fun v hv =>
      carried_writeStringZ (h.2 v hv)).map VMValue.arrayString
  next => exact h.elim

end VMValue

end PhantasmaSdk
