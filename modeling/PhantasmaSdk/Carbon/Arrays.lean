import PhantasmaSdk.Carbon.IntX

/-!
# Arrays

The arrays that `CarbonWriter` writes, each with the reader of `CarbonReader` for it
(`ArrayCodec`), and the arrays of integers of a width (`writeIntArray`).

The count of an array is checked to fit a `u32`, written as one, and read as an `i32`: what is
written is read back iff all counts in it fit an `i32` (`ArrayCodec.readsBack_iff`). Integers of
a width are checked against the range of its signedness, but for those of one byte, for which
the range is that of both (`intArray_faithful_iff`).
-/

namespace PhantasmaSdk

open Codec Codec.Decoder CarbonWriter CarbonReader

/-! ## Arrays of one type -/

/-- The array writers, each with its reader. -/
inductive ArrayCodec
  | byteArray
  | byteArrays
  | i8
  | i16
  | i32
  | i64
  | u64
  | bigInt
  | stringZ
  deriving DecidableEq, Repr

namespace ArrayCodec

abbrev Elem : ArrayCodec → Type
  | byteArray => UInt8
  | byteArrays => Bytes
  | i8 => Int8
  | i16 => Int16
  | i32 => Int32
  | i64 => Int64
  | u64 => UInt64
  | bigInt => ℤ
  | stringZ => String

def write : (c : ArrayCodec) → List c.Elem → Result Bytes
  | byteArray => writeByteArray
  | byteArrays => writeByteArrays
  | i8 => writeI8Array
  | i16 => writeI16Array
  | i32 => writeI32Array
  | i64 => writeI64Array
  | u64 => writeU64Array
  | bigInt => writeBigIntArray
  | stringZ => writeStringZArray

def read : (c : ArrayCodec) → Reader (List c.Elem)
  | byteArray => readByteArray
  | byteArrays => readByteArrays
  | i8 => readI8Array
  | i16 => readI16Array
  | i32 => readI32Array
  | i64 => readI64Array
  | u64 => readU64Array
  | bigInt => readBigIntArray
  | stringZ => readStringZArray

/-- Big integers are in the signed range. -/
def InRange : (c : ArrayCodec) → List c.Elem → Prop
  | bigInt, values => ∀ v ∈ values, -(2 ^ 255) ≤ v ∧ v < 2 ^ 255
  | _, _ => True

/-- Every count that is written is less than `2 ^ 31`. -/
def Short : (c : ArrayCodec) → List c.Elem → Prop
  | byteArrays, values => values.length < 2 ^ 31 ∧ ∀ v ∈ values, v.length < 2 ^ 31
  | _, values => values.length < 2 ^ 31

/-- Elements that are read back one by one, of at least `size` bytes, are so as an array. -/
theorem reads_of_elements {α : Type} {d : Reader α} {write : α → Result Bytes} {size : ℕ}
    {values : List α} {enc : Bytes} (hs : 0 < size) (hs' : size ≤ 8)
    (hl : values.length < 2 ^ 31) (hw : writeArray write values = .ok enc)
    (hd : ∀ a ∈ values, ∀ e, write a = .ok e → d.Reads e a ∧ size ≤ e.length) :
    (do let count ← readLengthFor size; d.replicate count : Reader (List α)).Reads enc values :=
  reads_array hs (hs'.trans (by norm_num)) hl hd hw

theorem reads_read {c : ArrayCodec} {values : List c.Elem} {enc : Bytes}
    (hr : c.InRange values) (hs : c.Short values) (hw : c.write values = .ok enc) :
    c.read.Reads enc values := by
  cases c with
  | byteArray => exact reads_readByteArray hs hw
  | byteArrays =>
    refine reads_of_elements (by norm_num) (by norm_num) hs.1 hw fun v hv e he => ?_
    exact ⟨reads_readByteArray (hs.2 v hv) he, by rw [length_writeByteArray he]; omega⟩
  | i8 =>
    refine reads_of_elements one_pos (by norm_num) hs hw fun v _ e he => ?_
    obtain rfl := Except.ok.inj he
    exact ⟨(reads_read1 v.toUInt8).map UInt8.toInt8, le_rfl⟩
  | i16 =>
    refine reads_of_elements (by norm_num) (by norm_num) hs hw fun v _ e he => ?_
    obtain rfl := Except.ok.inj he
    exact ⟨reads_read2 v, (length_toLE 2 _).ge⟩
  | i32 =>
    refine reads_of_elements (by norm_num) (by norm_num) hs hw fun v _ e he => ?_
    obtain rfl := Except.ok.inj he
    exact ⟨reads_read4 v, (length_toLE 4 _).ge⟩
  | i64 =>
    refine reads_of_elements (by norm_num) (by norm_num) hs hw fun v _ e he => ?_
    obtain rfl := Except.ok.inj he
    exact ⟨reads_read8 v, (length_toLE 8 _).ge⟩
  | u64 => exact reads_readU64Array hs hw
  | bigInt =>
    refine reads_of_elements one_pos (by norm_num) hs hw fun v hv e he => ?_
    exact ⟨reads_readBigInt_self (hr v hv) he, one_le_length_writeBigInt he⟩
  | stringZ =>
    refine reads_of_elements one_pos (by norm_num) hs hw fun v _ e he => ?_
    exact ⟨reads_readStringZ he, one_le_length_writeStringZ he⟩

/-- No reader gives an array with a count that does not fit an `i32`. -/
theorem gives_read (c : ArrayCodec) : c.read.Gives c.Short := by
  have harray {α : Type} (d : Reader α) (size : ℕ) :
      (do let count ← readLengthFor size; d.replicate count : Reader (List α)).Gives
        fun values => values.length < 2 ^ 31 := by
    refine ((yields_readLengthFor size).gives fun _ _ h => h.1).bind fun count hcount => ?_
    exact fun input values rest h => (gives_length_replicate d count _ _ _ h).trans_lt hcount
  cases c with
  | byteArray => exact yields_readByteArray.gives fun _ _ h => h.1
  | byteArrays =>
    refine (yields_array yields_readByteArray 4).gives fun values used h => ?_
    obtain ⟨hl, useds, -, hall⟩ := h
    refine ⟨hl, fun v hv => ?_⟩
    obtain ⟨_, -, hshort, -⟩ := exists_of_forall₂_mem hall hv
    exact hshort
  | _ => exact harray _ _

/-- An array that is written is read back, whatever follows it, iff no count in it is `2 ^ 31`
    or more. -/
theorem readsBack_iff (c : ArrayCodec) (values : List c.Elem) (enc : Bytes)
    (hr : c.InRange values) (hw : c.write values = .ok enc) :
    (∀ suffix, c.read.run (enc ++ suffix) = .ok (values, suffix)) ↔ c.Short values := by
  constructor
  · intro h
    exact gives_read c _ _ _ (h [])
  · exact fun hs => reads_read hr hs hw

theorem readsBack_twoByteArrays :
    writeByteArrays [[7], []] = .ok [2, 0, 0, 0, 1, 0, 0, 0, 7, 0, 0, 0, 0] ∧
      ∀ suffix, readByteArrays.run ([2, 0, 0, 0, 1, 0, 0, 0, 7, 0, 0, 0, 0] ++ suffix) =
        .ok ([[7], []], suffix) :=
  ⟨rfl, (readsBack_iff .byteArrays [[7], []] _ trivial rfl).2
    ⟨show 2 < 2 ^ 31 by norm_num, show ∀ v ∈ [[7], []], v.length < 2 ^ 31 by simp⟩⟩

/-- An array of `2 ^ 31` zeros is written, and refused by its reader. -/
theorem not_readsBack : ¬∀ (c : ArrayCodec) (values : List c.Elem) (enc : Bytes),
    c.InRange values → c.write values = .ok enc →
      ∀ suffix, c.read.run (enc ++ suffix) = .ok (values, suffix) := by
  intro h
  -- The count fits a `u32`, and is negative as an `i32`.
  have hlength : (List.replicate (2 ^ 31) (0 : UInt64)).length = 2 ^ 31 := List.length_replicate
  obtain ⟨enc, hw⟩ := exists_writeU64Array (hlength.trans_lt (by norm_num))
  have hshort : ArrayCodec.u64.Short (List.replicate (2 ^ 31) 0) :=
    gives_read .u64 _ _ _ (h .u64 _ enc trivial hw [])
  exact absurd hshort hlength.not_lt

end ArrayCodec

/-! ## Arrays of integers of a width -/

/-- A value in a range. (The bounds and the label are those of an integer type.) -/
def ensureI128Range (value min max : ℤ) (label : String) : Result Unit :=
  if value < min ∨ value > max then serialization s!"{label} value out of range: {value}"
  else pure ()

/-- One integer of an array of integers of a width. -/
def writeIntOfWidth (width : UInt8) (signed : Bool) (value : ℤ) : Result Bytes :=
  match width, signed with
  -- of one byte either signedness is taken
  | 1, _ => do
    ensureI128Range value (-(2 ^ 7)) (2 ^ 8 - 1) "i8"
    pure (write1 (UInt8.ofInt value))
  | 2, true => do
    ensureI128Range value (-(2 ^ 15)) (2 ^ 15 - 1) "i16"
    pure (write2 (Int16.ofInt value))
  | 2, false => do
    ensureI128Range value 0 (2 ^ 16 - 1) "u16"
    pure (toLE 2 (UInt16.ofInt value).toNat)
  | 4, true => do
    ensureI128Range value (-(2 ^ 31)) (2 ^ 31 - 1) "i32"
    pure (write4 (Int32.ofInt value))
  | 4, false => do
    ensureI128Range value 0 (2 ^ 32 - 1) "u32"
    pure (write4u (UInt32.ofInt value))
  | 8, true => do
    ensureI128Range value (-(2 ^ 63)) (2 ^ 63 - 1) "i64"
    pure (write8 (Int64.ofInt value))
  | 8, false => do
    ensureI128Range value 0 (2 ^ 64 - 1) "u64"
    pure (write8u (UInt64.ofInt value))
  | width, _ => serialization s!"unsupported integer width: {width}"

namespace CarbonWriter

def writeIntArray (values : List ℤ) (width : UInt8) (signed : Bool) : Result Bytes :=
  writeArray (writeIntOfWidth width signed) values

end CarbonWriter

def readIntOfWidth (width : UInt8) (signed : Bool) : Reader ℤ :=
  match width, signed with
  | 1, true => do let value ← read1; pure value.toInt8.toInt
  | 1, false => do let value ← read1; pure value.toNat
  | 2, true => do let value ← read2; pure value.toInt
  | 2, false => do let raw ← readArray 2; pure (UInt16.ofNat (ofLE raw.bytes)).toNat
  | 4, true => do let value ← read4; pure value.toInt
  | 4, false => do let value ← read4u; pure value.toNat
  | 8, true => do let value ← read8; pure value.toInt
  | 8, false => do let value ← read8u; pure value.toNat
  | width, _ => refuse s!"unsupported integer width: {width}"

namespace CarbonReader

def readIntArray (width : UInt8) (signed : Bool) : Reader (List ℤ) :=
  readReserved width.toNat (readIntOfWidth width signed)

end CarbonReader

/-! ### The integers of a width -/

/-- The widths that are supported. -/
def intWidths : List UInt8 := [1, 2, 4, 8]

variable {width : UInt8} {signed : Bool} {value : ℤ}

/-- The integer is in the range of the width and the signedness. -/
def IntFits (width : UInt8) (signed : Bool) (value : ℤ) : Prop :=
  if signed then -(2 ^ (8 * width.toNat - 1)) ≤ value ∧ value < 2 ^ (8 * width.toNat - 1)
  else 0 ≤ value ∧ value < 2 ^ (8 * width.toNat)

/-- The writer takes the integer: it is in the range or, of one byte, in that of either
    signedness. -/
def IntTaken (width : UInt8) (signed : Bool) (value : ℤ) : Prop :=
  if width = 1 then -(2 ^ 7) ≤ value ∧ value < 2 ^ 8 else IntFits width signed value

theorem ensureI128Range_bind {min max : ℤ} {label : String} {bytes enc : Bytes} :
    (do ensureI128Range value min max label; pure bytes : Result Bytes) = .ok enc ↔
      (min ≤ value ∧ value ≤ max) ∧ enc = bytes := by
  rw [bind_eq_ok, ensureI128Range]
  split
  next h =>
    refine iff_of_false (by rintro ⟨_, h, -⟩; cases h) fun h' => ?_
    omega
  next h =>
    constructor
    · rintro ⟨_, -, h'⟩
      exact ⟨by omega, (Except.ok.inj h').symm⟩
    · rintro ⟨-, rfl⟩
      exact ⟨(), rfl, rfl⟩

/-- The bytes of the residue of an integer. -/
def residueLE (width : ℕ) (value : ℤ) : Bytes := toLE width (value % (256 ^ width : ℕ)).toNat

theorem write1_ofInt (value : ℤ) : write1 (UInt8.ofInt value) = residueLE 1 value := by
  have h : (UInt8.ofInt value).toNat = (value % (256 ^ 1 : ℕ)).toNat := by
    simp only [UInt8.ofInt, UInt8.toNat_ofNat']
    norm_num
    omega
  rw [residueLE, ← h]
  simp [write1, toLE]

theorem write2_ofInt (value : ℤ) : write2 (Int16.ofInt value) = residueLE 2 value :=
  congrArg (toLE 2) (BitVec.toNat_ofInt (n := 16) value)

theorem toLE_ofInt (value : ℤ) : toLE 2 (UInt16.ofInt value).toNat = residueLE 2 value := by
  refine congrArg (toLE 2) ?_
  simp only [UInt16.ofInt, UInt16.toNat_ofNat']
  norm_num
  omega

theorem write4_ofInt (value : ℤ) : write4 (Int32.ofInt value) = residueLE 4 value :=
  congrArg (toLE 4) (BitVec.toNat_ofInt (n := 32) value)

theorem write4u_ofInt (value : ℤ) : write4u (UInt32.ofInt value) = residueLE 4 value := by
  refine congrArg (toLE 4) ?_
  simp only [UInt32.ofInt, UInt32.toNat_ofNat']
  norm_num
  omega

theorem write8_ofInt (value : ℤ) : write8 (Int64.ofInt value) = residueLE 8 value :=
  congrArg (toLE 8) (BitVec.toNat_ofInt (n := 64) value)

theorem write8u_ofInt (value : ℤ) : write8u (UInt64.ofInt value) = residueLE 8 value := by
  refine congrArg (toLE 8) ?_
  simp only [UInt64.ofInt, UInt64.toNat_ofNat']
  norm_num
  omega

/-- Each branch of the writer checks a range, and writes the residue of its width. -/
theorem writeIntOfWidth_eq_ok_iff (hwidth : width ∈ intWidths) {enc : Bytes} :
    writeIntOfWidth width signed value = .ok enc ↔
      IntTaken width signed value ∧ enc = residueLE width.toNat value := by
  have hbranch {min max : ℤ} {label : String} {bytes : Bytes}
      (hwrite : writeIntOfWidth width signed value =
        (do ensureI128Range value min max label; pure bytes : Result Bytes))
      (hrange : min ≤ value ∧ value ≤ max ↔ IntTaken width signed value)
      (hbytes : bytes = residueLE width.toNat value) :
      writeIntOfWidth width signed value = .ok enc ↔
        IntTaken width signed value ∧ enc = residueLE width.toNat value := by
    rw [hwrite, ensureI128Range_bind, hrange, hbytes]
  simp only [intWidths, List.mem_cons, List.not_mem_nil, or_false] at hwidth
  rcases hwidth with rfl | rfl | rfl | rfl
  · have hrange : -(2 ^ 7) ≤ value ∧ value ≤ 2 ^ 8 - 1 ↔ IntTaken 1 signed value := by
      rw [IntTaken, if_pos rfl]
      omega
    cases signed with
    | true => exact hbranch rfl hrange (write1_ofInt value)
    | false => exact hbranch rfl hrange (write1_ofInt value)
  · cases signed with
    | true => exact hbranch rfl (by simp [IntTaken, IntFits]; omega) (write2_ofInt value)
    | false => exact hbranch rfl (by simp [IntTaken, IntFits]; omega) (toLE_ofInt value)
  · cases signed with
    | true => exact hbranch rfl (by simp [IntTaken, IntFits]; omega) (write4_ofInt value)
    | false => exact hbranch rfl (by simp [IntTaken, IntFits]; omega) (write4u_ofInt value)
  · cases signed with
    | true => exact hbranch rfl (by simp [IntTaken, IntFits]; omega) (write8_ofInt value)
    | false => exact hbranch rfl (by simp [IntTaken, IntFits]; omega) (write8u_ofInt value)

theorem readLE_map {α β : Type} (n : ℕ) (ofNat : ℕ → α) (f : α → β) :
    (do let value ← readLE n ofNat; pure (f value) : Reader β) =
      (do let raw ← readArray n; pure (f (ofNat (ofLE raw.bytes)))) := by
  rw [readLE, bind_assoc]
  simp only [pure_bind]

/-- A branch of the reader, whose integers are those of the signedness. -/
theorem readLE_map_eq {α : Type} (n : ℕ) (ofNat : ℕ → α) (f : α → ℤ)
    (h : ∀ k < 256 ^ n, f (ofNat k) = if signed then (k : ℤ).bmod (256 ^ n) else k) :
    (do let value ← readLE n ofNat; pure (f value) : Reader ℤ) =
      (do let raw ← readArray n
          pure (if signed then signedLE raw.bytes else ofLE raw.bytes) : Reader ℤ) := by
  rw [readLE_map]
  refine congrArg _ (funext fun raw => congrArg pure ?_)
  have hlt := ofLE_lt raw.bytes
  rw [raw.length_eq] at hlt
  rw [h _ hlt, signedLE, raw.length_eq]

/-- Each branch of the reader reads the bytes of the width, as the signedness says. -/
theorem readIntOfWidth_eq (hwidth : width ∈ intWidths) : readIntOfWidth width signed =
    (do let raw ← readArray width.toNat
        pure (if signed then signedLE raw.bytes else ofLE raw.bytes) : Reader ℤ) := by
  simp only [intWidths, List.mem_cons, List.not_mem_nil, or_false] at hwidth
  rcases hwidth with rfl | rfl | rfl | rfl
  · cases signed with
    | true =>
      refine readLE_map_eq 1 UInt8.ofNat (fun value => value.toInt8.toInt) fun k _ => ?_
      rw [if_pos rfl]
      exact BitVec.toInt_ofNat' ..
    | false =>
      refine readLE_map_eq 1 UInt8.ofNat (fun value => (value.toNat : ℤ)) fun k hk => ?_
      exact congrArg Nat.cast (UInt8.toNat_ofNat_of_lt' hk)
  · cases signed with
    | true =>
      refine readLE_map_eq 2 (fun n => (UInt16.ofNat n).toInt16) Int16.toInt fun k _ => ?_
      rw [if_pos rfl]
      exact BitVec.toInt_ofNat' ..
    | false =>
      refine (readLE_map 2 UInt16.ofNat fun value => (value.toNat : ℤ)).symm.trans ?_
      refine readLE_map_eq 2 UInt16.ofNat (fun value => (value.toNat : ℤ)) fun k hk => ?_
      exact congrArg Nat.cast (UInt16.toNat_ofNat_of_lt' hk)
  · cases signed with
    | true =>
      refine readLE_map_eq 4 (fun n => (UInt32.ofNat n).toInt32) Int32.toInt fun k _ => ?_
      rw [if_pos rfl]
      exact BitVec.toInt_ofNat' ..
    | false =>
      refine readLE_map_eq 4 UInt32.ofNat (fun value => (value.toNat : ℤ)) fun k hk => ?_
      exact congrArg Nat.cast (UInt32.toNat_ofNat_of_lt' hk)
  · cases signed with
    | true =>
      refine readLE_map_eq 8 (fun n => (UInt64.ofNat n).toInt64) Int64.toInt fun k _ => ?_
      rw [if_pos rfl]
      exact BitVec.toInt_ofNat' ..
    | false =>
      refine readLE_map_eq 8 UInt64.ofNat (fun value => (value.toNat : ℤ)) fun k hk => ?_
      exact congrArg Nat.cast (UInt64.toNat_ofNat_of_lt' hk)

theorem one_le_width (hwidth : width ∈ intWidths) : 1 ≤ width.toNat ∧ width.toNat ≤ 8 := by
  simp only [intWidths, List.mem_cons, List.not_mem_nil, or_false] at hwidth
  rcases hwidth with rfl | rfl | rfl | rfl <;> decide

theorem two_pow_eight_mul (n : ℕ) : (2 : ℤ) ^ (8 * n) = (256 ^ n : ℕ) := by
  rw [pow_mul]
  push_cast
  norm_num

/-- Twice the signed bound of a width is what its residues are taken by. -/
theorem two_mul_two_pow {n : ℕ} (h : 1 ≤ n) : (2 : ℤ) * 2 ^ (8 * n - 1) = (256 ^ n : ℕ) := by
  rw [← pow_succ', show 8 * n - 1 + 1 = 8 * n by omega, two_pow_eight_mul]

/-- An integer in the range is the one read of its residue. -/
theorem reads_residueLE (hwidth : width ∈ intWidths) (h : IntFits width signed value) :
    (readIntOfWidth width signed).Reads (residueLE width.toNat value) value := by
  have hbound := two_mul_two_pow (one_le_width hwidth).1
  rw [readIntOfWidth_eq hwidth]
  refine ((reads_readArray ⟨residueLE width.toNat value, length_toLE _ _⟩).map fun raw =>
    if signed then signedLE raw.bytes else (ofLE raw.bytes : ℤ)).congr rfl ?_
  simp only [residueLE]
  rw [IntFits] at h
  split
  next hs =>
    rw [if_pos hs] at h
    have hlo : -((256 ^ width.toNat : ℕ) : ℤ) ≤ 2 * value := by omega
    have hhi : 2 * value < ((256 ^ width.toNat : ℕ) : ℤ) := by omega
    rw [signedLE_toLE]
    exact (bmod_eq_self hlo hhi).symm
  next hs =>
    rw [if_neg hs, two_pow_eight_mul] at h
    rw [Int.emod_eq_of_lt h.1 h.2, ofLE_toLE_of_lt (by omega)]
    omega

/-! ### Arrays of them -/

/-- What is written of the integers is read as the integers, and integers of which one is not
    in the range are refused. -/
structure IntArrayFaithful (values : List ℤ) (width : UInt8) (signed : Bool) : Prop where
  reads : ∀ enc, writeIntArray values width signed = .ok enc →
    (readIntArray width signed).run enc = .ok (values, [])
  refuses : (∃ v ∈ values, ¬IntFits width signed v) →
    ∃ e, writeIntArray values width signed = .error e

theorem taken_of_writeIntArray (hwidth : width ∈ intWidths) {values : List ℤ} {enc : Bytes}
    (hw : writeIntArray values width signed = .ok enc) : ∀ v ∈ values, IntTaken width signed v := by
  intro v hv
  obtain ⟨_, he, -⟩ := length_le_writeArray hw hv
  exact ((writeIntOfWidth_eq_ok_iff hwidth).1 he).1

theorem exists_writeIntArray (hwidth : width ∈ intWidths) {values : List ℤ}
    (hl : values.length < 2 ^ 31) (h : ∀ v ∈ values, IntTaken width signed v) :
    ∃ enc, writeIntArray values width signed = .ok enc := by
  obtain ⟨encs, hencs⟩ := forall₂_of_isOk fun v hv =>
    ⟨_, (writeIntOfWidth_eq_ok_iff hwidth).2 ⟨h v hv, rfl⟩⟩
  exact ⟨_, writeArray_of_forall₂ (by omega) hencs⟩

/-- Arrays of integers of a width are read back, and those with an integer out of range
    refused, unless the width is one byte and all the integers are in the range of a byte of
    either signedness, but not of the one asked for. -/
theorem intArray_faithful_iff (values : List ℤ) (hl : values.length < 2 ^ 31)
    (hwidth : width ∈ intWidths) (signed : Bool) : IntArrayFaithful values width signed ↔
      width ≠ 1 ∨ (∀ v ∈ values, IntFits width signed v) ∨ ∃ v ∈ values, v < -128 ∨ 255 < v := by
  obtain ⟨hpos, hle⟩ := one_le_width hwidth
  constructor
  · intro h
    by_contra hcon
    push Not at hcon
    obtain ⟨rfl, hout, hbyte⟩ := hcon
    -- All the integers are taken, the one out of range with the others.
    have htaken : ∀ v ∈ values, IntTaken 1 signed v := fun v hv => by
      obtain ⟨hlo, hhi⟩ := hbyte v hv
      exact (if_pos rfl).mpr ⟨by omega, by omega⟩
    obtain ⟨enc, hw⟩ := exists_writeIntArray hwidth hl htaken
    obtain ⟨e, he⟩ := h.refuses hout
    cases hw.symm.trans he
  · intro h
    -- Where the writer takes all the integers, they are in the range.
    have hfits : ∀ enc, writeIntArray values width signed = .ok enc →
        ∀ v ∈ values, IntFits width signed v := by
      intro enc hw v hv
      have htaken := taken_of_writeIntArray hwidth hw
      rcases h with hne | hall | ⟨u, hu, hout⟩
      · have := htaken v hv
        rwa [IntTaken, if_neg hne] at this
      · exact hall v hv
      · have := htaken u hu
        rw [IntTaken] at this
        split at this
        · omega
        next hne =>
          have := htaken v hv
          rwa [IntTaken, if_neg hne] at this
    refine ⟨fun enc hw => ?_, fun ⟨v, hv, hout⟩ => ?_⟩
    · refine (reads_readReserved hpos (by omega) hl (fun v hv e he => ?_) hw).run_self
      obtain ⟨-, rfl⟩ := (writeIntOfWidth_eq_ok_iff hwidth).1 he
      exact ⟨reads_residueLE hwidth (hfits enc hw v hv), (length_toLE _ _).ge⟩
    · cases hw : writeIntArray values width signed with
      | error e => exact ⟨e, rfl⟩
      | ok enc => exact absurd (hfits enc hw v hv) hout

theorem intArray_faithful_signedBytes : IntArrayFaithful [-1, 0, 127] 1 true :=
  (intArray_faithful_iff [-1, 0, 127] (by norm_num) (by decide) true).2
    (Or.inr (Or.inl (by simp [IntFits])))

/-- 200 is written as a signed byte, and read as -56. -/
theorem not_intArray_faithful : ¬∀ (values : List ℤ) (width : UInt8) (signed : Bool),
    values.length < 2 ^ 31 → width ∈ intWidths → IntArrayFaithful values width signed := by
  intro h
  have hw : writeIntArray [200] 1 true = .ok [1, 0, 0, 0, 200] := rfl
  have hr : (readIntArray 1 true).run [1, 0, 0, 0, 200] = .ok ([-56], []) := rfl
  have hfaithful := h [200] 1 true (by norm_num) (by decide)
  cases (hfaithful.reads _ hw).symm.trans hr

end PhantasmaSdk
