import PhantasmaSdk.Basic
import PhantasmaSdk.Codec.Lawful

/-!
# The Carbon wire

The primitives Carbon values are written and read with: `CarbonWriter` gives the
bytes a write appends, `CarbonReader` is a decoder of bytes. A type with a wire
form is `CarbonSerializable`; `serialize` and `deserialize` are the two entry
points, the latter refusing trailing bytes.

Every primitive comes with what it does: reading back what was written
(`reads_*`), what an accepted value was read from (`yields_*`), and that reading
it is safe on any input (`safeOn_*`), i.e., it does not panic and asks for no
more memory than the input could fill.
-/

namespace PhantasmaSdk

open Codec Codec.Decoder

/-- A decoder of bytes with the SDK's failures. -/
abbrev Reader (α : Type) := Decoder UInt8 Fault α

/-- Reading on this input does not panic, nor ask for more elements than there
    are bytes left. -/
abbrev Reader.Safe {α : Type} (d : Reader α) (input : Bytes) : Prop :=
  d.SafeOn Fault.IsPanic input

/-- With more bytes, `d` reads the same values, and panics alike. -/
abbrev Reader.Steady {α : Type} (d : Reader α) : Prop := Decoder.Steady Fault.IsPanic d

/-- The types with a Carbon wire form. -/
class CarbonSerializable (α : Type) where
  writeCarbon : α → Result Bytes
  readCarbon : Reader α

export CarbonSerializable (writeCarbon readCarbon)

variable {α β : Type}

def serialize [CarbonSerializable α] (value : α) : Result Bytes := writeCarbon value

/-- Nothing but a value, as `d` reads it. -/
def deserializeWith (d : Reader α) (data : Bytes) : Result α := do
  let (value, rest) ← d.run data
  -- `assert_eof`
  if rest.length ≠ 0 then serialization s!"unexpected trailing bytes: {rest.length}"
  else pure value

def deserialize (α : Type) [CarbonSerializable α] (data : Bytes) : Result α :=
  deserializeWith readCarbon data

theorem deserializeWith_eq_ok {d : Reader α} {data : Bytes} {value : α} :
    deserializeWith d data = .ok value ↔ d.run data = .ok (value, []) := by
  rw [deserializeWith, bind_eq_ok]
  constructor
  · rintro ⟨⟨v, rest⟩, hr, h⟩
    simp only at h
    split at h
    next => cases h
    next hl =>
      rw [hr, ← Except.ok.inj h, List.length_eq_zero_iff.1 (not_not.1 hl)]
  · exact fun hr => ⟨(value, []), hr, rfl⟩

theorem deserialize_eq_ok [CarbonSerializable α] {data : Bytes} {value : α} :
    deserialize α data = .ok value ↔ (readCarbon : Reader α).run data = .ok (value, []) :=
  deserializeWith_eq_ok

theorem deserializeWith_of_error {d : Reader α} {data : Bytes} {e : Fault}
    (h : d.run data = .error e) : deserializeWith d data = .error e := by
  rw [deserializeWith, h]
  rfl

/-- A panic is the reader's: what is left over is refused with an error. -/
theorem run_of_deserializeWith_panic {d : Reader α} {data : Bytes} {p : Panic}
    (h : deserializeWith d data = .error (.panic p)) : d.run data = .error (.panic p) := by
  rw [deserializeWith] at h
  rcases hrun : d.run data with e | ⟨value, rest⟩
  · rw [hrun, error_bind] at h
    rw [Except.error.inj h]
  · rw [hrun, ok_bind] at h
    simp only at h
    split at h <;> cases h

def ensureU32Len (len : ℕ) : Result UInt32 :=
  if len < 2 ^ 32 then pure (UInt32.ofNat len) else serialization "array length exceeds u32"

theorem ensureU32Len_of_lt {len : ℕ} (h : len < 2 ^ 32) :
    ensureU32Len len = .ok (UInt32.ofNat len) := if_pos h

/-! ## Writing -/

namespace CarbonWriter

def write1 (value : UInt8) : Bytes := [value]
def write2 (value : Int16) : Bytes := toLE 2 value.toUInt16.toNat
def write4 (value : Int32) : Bytes := toLE 4 value.toUInt32.toNat
def write4u (value : UInt32) : Bytes := toLE 4 value.toNat
def write8 (value : Int64) : Bytes := toLE 8 value.toUInt64.toNat
def write8u (value : UInt64) : Bytes := toLE 8 value.toNat
def write16 (value : Bytes16) : Bytes := value.bytes
def write32 (value : Bytes32) : Bytes := value.bytes
def write64 (value : Bytes64) : Bytes := value.bytes

/-- An array: its length as an `i32`, then its elements. -/
def writeArray (write : α → Result Bytes) (values : List α) : Result Bytes := do
  let len ← ensureU32Len values.length
  let body ← values.mapM write
  pure (write4 len.toInt32 ++ body.flatten)

def writeStringZ (value : String) : Result Bytes :=
  if 0 ∈ utf8 value then serialization "zero-terminated string contains a zero byte"
  else pure (utf8 value ++ write1 0)

def writeStringZArray (values : List String) : Result Bytes := writeArray writeStringZ values

def writeByteArray (data : Bytes) : Result Bytes := do
  let len ← ensureU32Len data.length
  pure (write4 len.toInt32 ++ data)

def writeByteArrays (values : List Bytes) : Result Bytes := writeArray writeByteArray values

def writeI8Array (values : List Int8) : Result Bytes :=
  writeArray (fun value => pure (write1 value.toUInt8)) values

def writeI16Array (values : List Int16) : Result Bytes :=
  writeArray (fun value => pure (write2 value)) values

def writeI32Array (values : List Int32) : Result Bytes :=
  writeArray (fun value => pure (write4 value)) values

def writeI64Array (values : List Int64) : Result Bytes :=
  writeArray (fun value => pure (write8 value)) values

def writeU64Array (values : List UInt64) : Result Bytes :=
  writeArray (fun value => pure (write8u value)) values

end CarbonWriter

def writeCarbonArray [CarbonSerializable α] (values : List α) : Result Bytes :=
  CarbonWriter.writeArray writeCarbon values

/-! ## Reading -/

namespace CarbonReader

/-- Fails with a serialization error. -/
def refuse (message : String) : Reader α := fail (.error (.serialization message))

def read (count : ℕ) : Reader Bytes :=
  take count (.error (.serialization "end of stream reached"))

def readArray (n : ℕ) : Reader (FixedBytes n) := do
  let raw ← read n
  if h : raw.length = n then pure ⟨raw, h⟩ else fail (.panic (.expect "fixed read length"))

/-- The value whose `n` little-endian bytes come next. -/
def readLE (n : ℕ) (ofNat : ℕ → α) : Reader α := do
  let raw ← readArray n
  pure (ofNat (ofLE raw.bytes))

def read1 : Reader UInt8 := readLE 1 UInt8.ofNat
def read2 : Reader Int16 := readLE 2 fun n => (UInt16.ofNat n).toInt16
def read4 : Reader Int32 := readLE 4 fun n => (UInt32.ofNat n).toInt32
def read4u : Reader UInt32 := readLE 4 UInt32.ofNat
def read8 : Reader Int64 := readLE 8 fun n => (UInt64.ofNat n).toInt64
def read8u : Reader UInt64 := readLE 8 UInt64.ofNat
def read16 : Reader Bytes16 := readArray 16
def read32 : Reader Bytes32 := readArray 32
def read64 : Reader Bytes64 := readArray 64

def readLengthFor (elementSize : ℕ) : Reader ℕ := do
  if elementSize = 0 then refuse "invalid array element size" else
  let length ← read4
  if length < 0 then refuse "negative array length" else
  let length := length.toInt.toNat
  -- `checked_mul` on a 64-bit `usize`
  if 2 ^ 64 ≤ length * elementSize then refuse "array length overflows byte count" else
  let left ← remaining
  if length * elementSize > left then
    refuse s!"array length {length} exceeds remaining bytes {left}"
  else pure length

def readLength : Reader ℕ := readLengthFor 1

def readByteArray : Reader Bytes := do
  let len ← readLength
  read len

def readByteArrays : Reader (List Bytes) := do
  let count ← readLengthFor 4
  readByteArray.replicate count

def readI8Array : Reader (List Int8) := do
  let count ← readLength
  (do let b ← read1; pure b.toInt8 : Reader Int8).replicate count

def readI16Array : Reader (List Int16) := do
  let count ← readLengthFor 2
  read2.replicate count

def readI32Array : Reader (List Int32) := do
  let count ← readLengthFor 4
  read4.replicate count

def readI64Array : Reader (List Int64) := do
  let count ← readLengthFor 8
  read8.replicate count

def readU64Array : Reader (List UInt64) := do
  let count ← readLengthFor 8
  read8u.replicate count

/-- An array whose memory is asked for before its elements are read. -/
def readReserved (size : ℕ) (d : Reader α) : Reader (List α) := do
  let count ← readLengthFor size
  reserve count
  d.replicate count

/-- The bytes before the next zero byte, which is consumed. -/
def readUntilZero : Reader Bytes := fun input =>
  match input.span (· ≠ 0) with
  | (raw, _ :: rest) => ⟨.ok (raw, rest), []⟩
  | (_, []) => ⟨.error (.error (.serialization "end of stream reached")), []⟩

/-- The text of raw bytes, refused when they are not UTF-8. (The message does not
    say, as the source's does, where they stop being so.) -/
def textOf (raw : Bytes) : Reader String :=
  match fromUtf8 raw with
  | some s => pure s
  | none => refuse "invalid utf-8 sequence"

def readStringZ : Reader String := do
  let raw ← readUntilZero
  textOf raw

def readStringZArray : Reader (List String) := do
  let count ← readLength
  readStringZ.replicate count

end CarbonReader

def readCarbonArray (α : Type) [CarbonSerializable α] : Reader (List α) := do
  let count ← CarbonReader.readLength
  (readCarbon : Reader α).replicate count


/-! ## More bytes -/

namespace CarbonReader

theorem steady_refuse (message : String) : (refuse message : Reader α).Steady := steady_fail _

theorem steady_read (count : ℕ) : (read count).Steady := steady_take count (Fault.not_isPanic_error _)

theorem steady_readArray (n : ℕ) : (readArray n).Steady :=
  (steady_read n).bind fun raw => by
    split
    · exact steady_pure _
    · exact steady_fail _

theorem steady_readLE (n : ℕ) (ofNat : ℕ → α) : (readLE n ofNat).Steady :=
  (steady_readArray n).bind fun _ => steady_pure _

end CarbonReader

/-! ## Reading back what was written -/

namespace CarbonReader

open CarbonWriter

theorem reads_read {enc : Bytes} {count : ℕ} (h : enc.length = count) :
    (read count).Reads enc enc := reads_take h _

theorem reads_readArray {n : ℕ} (b : FixedBytes n) : (readArray n).Reads b.bytes b := by
  refine Reads.congr ((reads_read b.length_eq).bind (t := []) (b := b) ?_) (by simp) rfl
  rw [dif_pos b.length_eq]
  exact reads_pure b

theorem reads_readLE {n k : ℕ} {ofNat : ℕ → α} (hk : k < 256 ^ n) :
    (readLE n ofNat).Reads (toLE n k) (ofNat k) := by
  refine ((reads_readArray ⟨toLE n k, length_toLE n k⟩).map fun raw => ofNat (ofLE raw.bytes)).congr
    rfl ?_
  rw [ofLE_toLE_of_lt hk]

theorem reads_read1 (v : UInt8) : read1.Reads (write1 v) v :=
  (reads_readLE (k := v.toNat) (by simpa using v.toNat_lt)).congr
    (by simp [write1, toLE]) (by simp)

theorem run_read1 (v : UInt8) (rest : Bytes) : read1.run (v :: rest) = .ok (v, rest) :=
  reads_read1 v rest

theorem reads_read2 (v : Int16) : read2.Reads (write2 v) v :=
  (reads_readLE (by simpa using v.toUInt16.toNat_lt)).congr rfl (by simp)

theorem reads_read4 (v : Int32) : read4.Reads (write4 v) v :=
  (reads_readLE (by simpa using v.toUInt32.toNat_lt)).congr rfl (by simp)

theorem reads_read4u (v : UInt32) : read4u.Reads (write4u v) v :=
  (reads_readLE (by simpa using v.toNat_lt)).congr rfl (by simp)

theorem reads_read8 (v : Int64) : read8.Reads (write8 v) v :=
  (reads_readLE (by simpa using v.toUInt64.toNat_lt)).congr rfl (by simp)

theorem reads_read8u (v : UInt64) : read8u.Reads (write8u v) v :=
  (reads_readLE (by simpa using v.toNat_lt)).congr rfl (by simp)

theorem reads_read16 (v : Bytes16) : read16.Reads (write16 v) v := reads_readArray v
theorem reads_read32 (v : Bytes32) : read32.Reads (write32 v) v := reads_readArray v
theorem reads_read64 (v : Bytes64) : read64.Reads (write64 v) v := reads_readArray v

/-- A length that fits an `i32` is its own signed reading. -/
theorem toInt_length {n : ℕ} (h : n < 2 ^ 31) : (UInt32.ofNat n).toInt32.toInt = n := by
  change (UInt32.ofNat n).toBitVec.toInt = n
  rw [UInt32.toBitVec_ofNat', BitVec.toInt_ofNat']
  exact bmod_eq_self (by push_cast; omega) (by push_cast; omega)

theorem run_readLengthFor {n size : ℕ} {rest : Bytes} (hn : n < 2 ^ 31) (hs : 0 < size)
    (hs' : size ≤ 2 ^ 32) (hr : n * size ≤ rest.length) :
    (readLengthFor size).run (write4 (UInt32.ofNat n).toInt32 ++ rest) = .ok (n, rest) := by
  have hneg : ¬(UInt32.ofNat n).toInt32 < 0 := by
    rw [Int32.lt_iff_toInt_lt, toInt_length hn]
    simp
  have hmul : ¬2 ^ 64 ≤ n * size := by
    have := Nat.mul_le_mul hn.le hs'
    omega
  rw [readLengthFor, if_neg hs.ne', run_bind_of_ok (reads_read4 _ rest), if_neg hneg]
  simp only [toInt_length hn, Int.toNat_natCast]
  rw [if_neg hmul, run_bind_of_ok (run_remaining rest), if_neg (by omega)]
  rfl

/-- Lists of at least `size` bytes each are together as many times longer. -/
theorem le_length_flatten {size : ℕ} {as : List α} {encs : List Bytes}
    (h : List.Forall₂ (fun _ enc => size ≤ enc.length) as encs) :
    as.length * size ≤ encs.flatten.length := by
  induction h with
  | nil => simp
  | cons h _ ih =>
    rw [List.length_cons, Nat.succ_mul, List.flatten_cons, List.length_append]
    omega

theorem length_flatten {size : ℕ} {as : List α} {encs : List Bytes}
    (h : List.Forall₂ (fun _ enc => enc.length = size) as encs) :
    encs.flatten.length = as.length * size := by
  induction h with
  | nil => simp
  | cons h _ ih => rw [List.length_cons, Nat.succ_mul, List.flatten_cons, List.length_append, h, ih,
      add_comm]

/-- An array is read back if its length fits an `i32`, its elements are read back
    and none of them is written in less than `size` bytes. -/
theorem reads_array {d : Reader α} {write : α → Result Bytes} {size : ℕ} {values : List α}
    {enc : Bytes} (hs : 0 < size) (hs' : size ≤ 2 ^ 32) (hl : values.length < 2 ^ 31)
    (hd : ∀ a ∈ values, ∀ enc, write a = .ok enc → d.Reads enc a ∧ size ≤ enc.length)
    (hw : writeArray write values = .ok enc) :
    (do let count ← readLengthFor size; d.replicate count : Reader (List α)).Reads enc values := by
  obtain ⟨len, hlen, hw⟩ := bind_eq_ok.1 hw
  obtain ⟨encs, hencs, hw⟩ := bind_eq_ok.1 hw
  obtain rfl := Except.ok.inj hw
  obtain rfl : UInt32.ofNat values.length = len :=
    Except.ok.inj ((ensureU32Len_of_lt (by omega)).symm.trans hlen)
  have hall := mapM_eq_ok.1 hencs
  have hreads : List.Forall₂ d.Reads encs values :=
    (forall₂_imp_mem hall fun a ha enc h => (hd a ha enc h).1).flip
  have hsize := le_length_flatten (forall₂_imp_mem hall fun a ha enc h => (hd a ha enc h).2)
  intro suffix
  rw [List.append_assoc, run_bind_of_ok (run_readLengthFor hl hs hs'
    (by rw [List.length_append]; omega))]
  exact reads_replicate hreads suffix

/-- A length that fits a `u32` and not an `i32` reads as negative. -/
theorem toInt_length_of_long {n : ℕ} (h : 2 ^ 31 ≤ n) (h' : n < 2 ^ 32) :
    (UInt32.ofNat n).toInt32.toInt = n - 2 ^ 32 := by
  change (UInt32.ofNat n).toBitVec.toInt = _
  rw [UInt32.toBitVec_ofNat', BitVec.toInt_ofNat', ← Int.sub_bmod_right]
  exact bmod_eq_self (by push_cast; omega) (by push_cast; omega)

/-- The length of an array is checked to fit a `u32` where it is written, and read as an
    `i32`: what is written of a longer array than that is refused. -/
theorem run_array_of_long {d : Reader α} {write : α → Result Bytes} {size : ℕ} {values : List α}
    {enc : Bytes} (hs : 0 < size) (hl : 2 ^ 31 ≤ values.length)
    (hw : writeArray write values = .ok enc) (suffix : Bytes) :
    (do let count ← readLengthFor size; d.replicate count : Reader (List α)).run (enc ++ suffix) =
      .error (.error (.serialization "negative array length")) := by
  obtain ⟨len, hlen, hw⟩ := bind_eq_ok.1 hw
  obtain ⟨encs, -, hw⟩ := bind_eq_ok.1 hw
  obtain rfl := Except.ok.inj hw
  obtain ⟨hlt, hlen⟩ | ⟨-, hlen⟩ := ite_eq_iff.1 hlen
  · have hneg : (UInt32.ofNat values.length).toInt32 < 0 := by
      rw [Int32.lt_iff_toInt_lt, toInt_length_of_long hl hlt, Int32.toInt_zero]
      omega
    refine run_bind_of_error ?_
    rw [← Except.ok.inj hlen, readLengthFor, if_neg hs.ne', List.append_assoc,
      run_bind_of_ok (reads_read4 _ _), if_pos hneg]
    rfl
  · cases hlen

/-- Asking for memory does not change what is read. -/
theorem run_readReserved (size : ℕ) (d : Reader α) (input : Bytes) :
    (readReserved size d).run input =
      (do let count ← readLengthFor size; d.replicate count : Reader (List α)).run input := by
  cases h : (readLengthFor size).run input with
  | error e => rw [readReserved, run_bind_of_error h, run_bind_of_error h]
  | ok p =>
    obtain ⟨count, rest⟩ := p
    rw [readReserved, run_bind_of_ok h, run_bind_of_ok h, run_bind_of_ok (run_reserve count rest)]

theorem reads_readReserved {d : Reader α} {write : α → Result Bytes} {size : ℕ} {values : List α}
    {enc : Bytes} (hs : 0 < size) (hs' : size ≤ 2 ^ 32) (hl : values.length < 2 ^ 31)
    (hd : ∀ a ∈ values, ∀ enc, write a = .ok enc → d.Reads enc a ∧ size ≤ enc.length)
    (hw : writeArray write values = .ok enc) : (readReserved size d).Reads enc values :=
  fun suffix => (run_readReserved size d _).trans (reads_array hs hs' hl hd hw suffix)

theorem reads_readByteArray {data enc : Bytes} (hl : data.length < 2 ^ 31)
    (hw : writeByteArray data = .ok enc) : readByteArray.Reads enc data := by
  obtain ⟨len, hlen, hw⟩ := bind_eq_ok.1 hw
  obtain rfl := Except.ok.inj hw
  obtain rfl : UInt32.ofNat data.length = len :=
    Except.ok.inj ((ensureU32Len_of_lt (by omega)).symm.trans hlen)
  intro suffix
  rw [readByteArray, List.append_assoc, readLength,
    run_bind_of_ok (run_readLengthFor hl one_pos (by norm_num) (by simp))]
  exact reads_read rfl suffix

theorem length_writeByteArray {data enc : Bytes} (hw : writeByteArray data = .ok enc) :
    enc.length = 4 + data.length := by
  obtain ⟨len, _, hw⟩ := bind_eq_ok.1 hw
  rw [← Except.ok.inj hw, List.length_append, write4, length_toLE]

theorem reads_readU64Array {values : List UInt64} {enc : Bytes} (hl : values.length < 2 ^ 31)
    (hw : writeU64Array values = .ok enc) : readU64Array.Reads enc values :=
  reads_array (by norm_num) (by norm_num) hl (fun v _ _ h => by
    obtain rfl := Except.ok.inj h
    exact ⟨reads_read8u v, by simp [write8u]⟩) hw

theorem reads_textOf (s : String) : (textOf (utf8 s)).Reads [] s := by
  rw [textOf, fromUtf8_utf8]
  exact reads_pure s

theorem reads_readUntilZero {raw : Bytes} (h : 0 ∉ raw) : readUntilZero.Reads (raw ++ [0]) raw := by
  intro suffix
  have hspan : (raw ++ [0] ++ suffix).span (· ≠ 0) = (raw, 0 :: suffix) := by
    rw [List.span_eq_takeWhile_dropWhile, List.append_assoc]
    have hall : ∀ b ∈ raw, decide (b ≠ 0) = true := fun b hb =>
      decide_eq_true fun hz => h (hz ▸ hb)
    rw [List.takeWhile_append_of_pos hall, List.dropWhile_append_of_pos hall]
    simp
  rw [run, readUntilZero, hspan]

theorem reads_readStringZ {s : String} {enc : Bytes} (hw : writeStringZ s = .ok enc) :
    readStringZ.Reads enc s := by
  rw [writeStringZ] at hw
  split at hw
  next => cases hw
  next h =>
    obtain rfl := Except.ok.inj hw
    exact ((reads_readUntilZero h).bind (reads_textOf s)).congr (by simp [write1]) rfl

end CarbonReader

/-- A list is read back by a reader whose elements are, each written in at least
    a byte. -/
theorem reads_readCarbonArray [CarbonSerializable α] {values : List α} {enc : Bytes}
    (hl : values.length < 2 ^ 31)
    (hd : ∀ a ∈ values, ∀ enc, writeCarbon a = .ok enc →
      (readCarbon : Reader α).Reads enc a ∧ 0 < enc.length)
    (hw : writeCarbonArray values = .ok enc) : (readCarbonArray α).Reads enc values :=
  CarbonReader.reads_array one_pos (by norm_num) hl hd hw

/-! ## What is accepted -/

namespace CarbonReader

open CarbonWriter

theorem yields_refuse (message : String) (P : α → Bytes → Prop) :
    (refuse message : Reader α).Yields P := yields_fail _ P

theorem yields_read (count : ℕ) :
    (read count).Yields fun raw used => raw = used ∧ used.length = count := yields_take _ _

theorem yields_readArray (n : ℕ) : (readArray n).Yields fun b used => used = b.bytes := by
  refine (yields_read n).bind fun raw used h => ?_
  obtain ⟨rfl, hl⟩ := h
  rw [dif_pos hl]
  exact yields_pure (by simp)

theorem yields_readLE (n : ℕ) (ofNat : ℕ → α) :
    (readLE n ofNat).Yields fun a used => ∃ k < 256 ^ n, a = ofNat k ∧ used = toLE n k := by
  refine (yields_readArray n).bind fun raw used h => yields_pure ?_
  subst h
  have hlt := ofLE_lt raw.bytes
  rw [raw.length_eq] at hlt
  exact ⟨_, hlt, rfl, by simp [toLE_ofLE raw.length_eq]⟩

theorem yields_read1 : read1.Yields fun v used => used = write1 v :=
  (yields_readLE 1 _).mono fun _ _ ⟨k, hk, ha, hu⟩ => by
    subst ha hu
    rfl

theorem yields_read4u : read4u.Yields fun v used => used = write4u v :=
  (yields_readLE 4 _).mono fun _ _ ⟨k, hk, ha, hu⟩ => by
    subst ha hu
    rw [write4u, UInt32.toNat_ofNat_of_lt' (by simpa using hk)]

theorem yields_read4 : read4.Yields fun v used => used = write4 v :=
  (yields_readLE 4 _).mono fun _ _ ⟨k, hk, ha, hu⟩ => by
    subst ha hu
    rw [write4, UInt32.toUInt32_toInt32, UInt32.toNat_ofNat_of_lt' (by simpa using hk)]

theorem yields_read8u : read8u.Yields fun v used => used = write8u v :=
  (yields_readLE 8 _).mono fun _ _ ⟨k, hk, ha, hu⟩ => by
    subst ha hu
    rw [write8u, UInt64.toNat_ofNat_of_lt' (by simpa using hk)]

theorem yields_read8 : read8.Yields fun v used => used = write8 v :=
  (yields_readLE 8 _).mono fun _ _ ⟨k, hk, ha, hu⟩ => by
    subst ha hu
    rw [write8, UInt64.toUInt64_toInt64, UInt64.toNat_ofNat_of_lt' (by simpa using hk)]

theorem yields_read32 : read32.Yields fun v used => used = write32 v := yields_readArray 32
theorem yields_read64 : read64.Yields fun v used => used = write64 v := yields_readArray 64

/-- An accepted length fits an `i32` and was written as one. -/
theorem yields_readLengthFor (size : ℕ) : (readLengthFor size).Yields fun n used =>
    n < 2 ^ 31 ∧ used = write4 (UInt32.ofNat n).toInt32 := by
  rw [readLengthFor]
  split
  next => exact yields_refuse _ _
  refine yields_read4.bind fun v used h => ?_
  subst h
  split
  next => exact yields_refuse _ _
  next hv =>
  simp only
  split
  next => exact yields_refuse _ _
  refine yields_remaining.bind fun left used h => ?_
  subst h
  split
  next => exact yields_refuse _ _
  next =>
  have hv' : 0 ≤ v.toInt := by
    rw [Int32.lt_iff_toInt_lt] at hv
    simpa using hv
  have hlt := v.toInt_lt
  have hcast : (UInt32.ofNat v.toInt.toNat).toInt32 = v := by
    refine Int32.toInt_inj.1 ?_
    rw [toInt_length (by omega), Int.toNat_of_nonneg hv']
  exact yields_pure ⟨by omega, by rw [hcast]; simp⟩

/-- A length is accepted iff it fits an `i32` and is bounded by what is left. -/
theorem run_readLength_eq_ok_iff {n : ℕ} {input rest : Bytes} :
    readLength.run input = .ok (n, rest) ↔
      n < 2 ^ 31 ∧ n ≤ rest.length ∧ input = write4 (UInt32.ofNat n).toInt32 ++ rest := by
  constructor
  · intro h
    obtain ⟨used, rfl, hn, rfl⟩ := yields_readLengthFor 1 _ _ _ h
    refine ⟨hn, ?_, rfl⟩
    by_contra hlt
    rw [readLength, readLengthFor, if_neg one_ne_zero, run_bind_of_ok (reads_read4 _ rest)] at h
    have hneg : ¬(UInt32.ofNat n).toInt32 < 0 := by
      rw [Int32.lt_iff_toInt_lt, toInt_length hn]
      simp
    rw [if_neg hneg] at h
    simp only [toInt_length hn, Int.toNat_natCast, mul_one] at h
    rw [if_neg (by omega), run_bind_of_ok (run_remaining rest), if_pos (by omega)] at h
    cases h
  · rintro ⟨hn, hle, rfl⟩
    exact run_readLengthFor hn one_pos (by norm_num) (by rwa [mul_one])

/-- An accepted array has as many elements as its length says, each read off its
    own bytes. -/
theorem yields_array {d : Reader α} {P : α → Bytes → Prop} (hd : d.Yields P) (size : ℕ) :
    (do let count ← readLengthFor size; d.replicate count : Reader (List α)).Yields
      fun values used => values.length < 2 ^ 31 ∧ ∃ useds : List Bytes,
        used = write4 (UInt32.ofNat values.length).toInt32 ++ useds.flatten ∧
          List.Forall₂ P values useds := by
  refine (yields_readLengthFor size).bind fun n used h => ?_
  obtain ⟨hn, rfl⟩ := h
  refine (yields_replicate hd n).mono fun values used h => ?_
  obtain ⟨rfl, useds, rfl, hall⟩ := h
  exact ⟨hn, useds, rfl, hall⟩

theorem yields_readReserved {d : Reader α} {P : α → Bytes → Prop} (hd : d.Yields P) (size : ℕ) :
    (readReserved size d).Yields fun values used => values.length < 2 ^ 31 ∧
      ∃ useds : List Bytes, used = write4 (UInt32.ofNat values.length).toInt32 ++ useds.flatten ∧
        List.Forall₂ P values useds := fun input values rest h =>
  yields_array hd size input values rest (run_readReserved size d input ▸ h)

/-- An array whose elements were each written as read is written as read. -/
theorem writeArray_of_forall₂ {write : α → Result Bytes} {values : List α} {encs : List Bytes}
    (hl : values.length < 2 ^ 32) (h : List.Forall₂ (fun a enc => write a = .ok enc) values encs) :
    writeArray write values =
      .ok (write4 (UInt32.ofNat values.length).toInt32 ++ encs.flatten) := by
  rw [writeArray, ensureU32Len_of_lt hl, ok_bind, mapM_eq_ok.2 h]
  rfl

theorem yields_readByteArray : readByteArray.Yields fun data used =>
    data.length < 2 ^ 31 ∧ writeByteArray data = .ok used := by
  refine (yields_readLengthFor 1).bind fun n used h => ?_
  obtain ⟨hn, rfl⟩ := h
  refine (yields_read n).mono fun data used h => ?_
  obtain ⟨rfl, rfl⟩ := h
  rw [writeByteArray, ensureU32Len_of_lt (by omega)]
  exact ⟨hn, rfl⟩

theorem yields_readU64Array : readU64Array.Yields fun values used =>
    values.length < 2 ^ 31 ∧ writeU64Array values = .ok used := by
  refine (yields_array yields_read8u 8).mono fun values used h => ?_
  obtain ⟨hl, useds, rfl, hall⟩ := h
  exact ⟨hl, writeArray_of_forall₂ (by omega)
    (hall.imp fun _ _ h => congrArg Except.ok h.symm)⟩

theorem yields_textOf (raw : Bytes) : (textOf raw).Yields fun s used =>
    used = [] ∧ utf8 s = raw := by
  rw [textOf]
  split
  next s hs => exact yields_pure ⟨rfl, utf8_of_fromUtf8 hs⟩
  next => exact yields_refuse _ _

/-! ## Safety -/

variable {input : Bytes}

/-- What a safe reader fails with is an error it returns. -/
theorem exists_error_of_safe {d : Reader α} {e : Fault} (hd : d.Safe input)
    (h : d.run input = .error e) : ∃ e', e = .error e' := by
  cases e with
  | error e' => exact ⟨e', rfl⟩
  | panic p => exact absurd (Fault.isPanic_panic p) (hd.1 _ h)

theorem safe_refuse (message : String) : (refuse message : Reader α).Safe input :=
  safeOn_fail _ _ |>.2 (Fault.not_isPanic_error _)

theorem safe_read (count : ℕ) : (read count).Safe input :=
  safeOn_take _ (Fault.not_isPanic_error _) _

theorem safe_readArray (n : ℕ) : (readArray n).Safe input := by
  refine safeOn_bind.2 ⟨safe_read n, fun raw mid h => ?_⟩
  obtain ⟨_, _, _, hl⟩ := yields_read n _ _ _ h
  rw [dif_pos (by simp_all)]
  exact safeOn_pure _ _

theorem safe_readLE (n : ℕ) (ofNat : ℕ → α) : (readLE n ofNat).Safe input :=
  safeOn_bind.2 ⟨safe_readArray n, fun _ _ _ => safeOn_pure _ _⟩

theorem safe_read1 : read1.Safe input := safe_readLE _ _
theorem safe_read4 : read4.Safe input := safe_readLE _ _
theorem safe_read4u : read4u.Safe input := safe_readLE _ _
theorem safe_read8 : read8.Safe input := safe_readLE _ _
theorem safe_read8u : read8u.Safe input := safe_readLE _ _
theorem safe_read32 : read32.Safe input := safe_readArray _
theorem safe_read64 : read64.Safe input := safe_readArray _

theorem safe_readLengthFor (size : ℕ) : (readLengthFor size).Safe input := by
  rw [readLengthFor]
  split
  next => exact safe_refuse _
  refine safeOn_bind.2 ⟨safe_read4, fun v mid _ => ?_⟩
  split
  next => exact safe_refuse _
  simp only
  split
  next => exact safe_refuse _
  refine safeOn_bind.2 ⟨safeOn_remaining _, fun left mid' _ => ?_⟩
  split
  next => exact safe_refuse _
  next => exact safeOn_pure _ _

/-- An array of safe elements is safe: its length is bounded by what is left. -/
theorem safe_array {d : Reader α} (hd : ∀ input, d.Safe input) (size : ℕ) :
    (do let count ← readLengthFor size; d.replicate count : Reader (List α)).Safe input :=
  safeOn_bind.2 ⟨safe_readLengthFor size, fun _ _ _ => safeOn_replicate.2 fun _ _ => hd _⟩

theorem safe_readByteArray : readByteArray.Safe input :=
  safeOn_bind.2 ⟨safe_readLengthFor 1, fun _ _ _ => safe_read _⟩

theorem safe_readU64Array : readU64Array.Safe input :=
  safe_array (fun _ => safe_read8u) 8

theorem safe_textOf (raw : Bytes) : (textOf raw).Safe input := by
  rw [textOf]
  split
  next => exact safeOn_pure _ _
  next => exact safe_refuse _

end CarbonReader

theorem safe_readCarbonArray [CarbonSerializable α]
    (h : ∀ {input}, (readCarbon : Reader α).Safe input) {input : Bytes} :
    (readCarbonArray α).Safe input := CarbonReader.safe_array (fun _ => h) 1

/-! ## Lawful fields -/

namespace CarbonWriter

open CarbonReader

theorem lawful_of_reads {write : α → Bytes} {d : Reader α} {n : ℕ}
    (hr : ∀ v, d.Reads (write v) v) (hy : d.Yields fun v used => used = write v)
    (hl : ∀ v, (write v).length = n) :
    Lawful (fun v => pure (write v)) d (fun _ => True) (fun _ => True) n where
  reads v _ _ hw := Except.ok.inj hw ▸ hr v
  yields := hy.mono fun _ _ h => ⟨trivial, _, rfl, fun _ => h.symm⟩
  length_le v _ hw := Except.ok.inj hw ▸ (hl v).ge

theorem lawful_write4u :
    Lawful (fun v => pure (write4u v)) read4u (fun _ => True) (fun _ => True) 4 :=
  lawful_of_reads reads_read4u yields_read4u fun _ => length_toLE 4 _

theorem lawful_write8 : Lawful (fun v => pure (write8 v)) read8 (fun _ => True) (fun _ => True) 8 :=
  lawful_of_reads reads_read8 yields_read8 fun _ => length_toLE 8 _

theorem lawful_write8u :
    Lawful (fun v => pure (write8u v)) read8u (fun _ => True) (fun _ => True) 8 :=
  lawful_of_reads reads_read8u yields_read8u fun _ => length_toLE 8 _

theorem lawful_write32 :
    Lawful (fun v => pure (write32 v)) read32 (fun _ => True) (fun _ => True) 32 :=
  lawful_of_reads reads_read32 yields_read32 fun v => v.length_eq

theorem lawful_write64 :
    Lawful (fun v => pure (write64 v)) read64 (fun _ => True) (fun _ => True) 64 :=
  lawful_of_reads reads_read64 yields_read64 fun v => v.length_eq

theorem lawful_writeByteArray : Lawful writeByteArray readByteArray
    (fun data => data.length < 2 ^ 31) (fun _ => True) 4 where
  reads _ _ hl hw := reads_readByteArray hl hw
  yields := yields_readByteArray.mono fun _ used h => ⟨h.1, used, h.2, fun _ => rfl⟩
  length_le _ _ hw := by
    rw [length_writeByteArray hw]
    omega

theorem le_length_writeArray {write : α → Result Bytes} {values : List α} {enc : Bytes}
    (hw : writeArray write values = .ok enc) : 4 ≤ enc.length := by
  obtain ⟨len, _, hw⟩ := bind_eq_ok.1 hw
  obtain ⟨body, _, hw⟩ := bind_eq_ok.1 hw
  rw [← Except.ok.inj hw, List.length_append, write4, length_toLE]
  omega

theorem one_le_length_writeStringZ {value : String} {enc : Bytes}
    (hw : writeStringZ value = .ok enc) : 1 ≤ enc.length := by
  rw [writeStringZ] at hw
  split at hw
  · cases hw
  · rw [← Except.ok.inj hw, List.length_append]
    exact Nat.le_add_left _ _

theorem exists_writeU64Array {values : List UInt64} (h : values.length < 2 ^ 32) :
    ∃ enc, writeU64Array values = .ok enc := by
  have hencs : ∃ encs : List Bytes, List.Forall₂
      (fun v enc => (pure (write8u v) : Result Bytes) = .ok enc) values encs :=
    forall₂_of_isOk fun v _ => ⟨_, rfl⟩
  obtain ⟨encs, hencs⟩ := hencs
  exact ⟨_, CarbonReader.writeArray_of_forall₂ h hencs⟩

theorem length_lt_of_writeArray {write : α → Result Bytes} {values : List α} {enc : Bytes}
    (hw : writeArray write values = .ok enc) : values.length < 2 ^ 32 := by
  obtain ⟨len, hlen, -⟩ := bind_eq_ok.1 hw
  obtain ⟨hlt, -⟩ | ⟨-, hlen⟩ := ite_eq_iff.1 hlen
  · exact hlt
  · cases hlen

/-- What is written of an element of an array is part of what is written of it. -/
theorem length_le_writeArray {write : α → Result Bytes} {values : List α} {enc : Bytes}
    (hw : writeArray write values = .ok enc) {a : α} (ha : a ∈ values) :
    ∃ e, write a = .ok e ∧ e.length + 4 ≤ enc.length := by
  obtain ⟨len, _, hw⟩ := bind_eq_ok.1 hw
  obtain ⟨encs, hencs, hw⟩ := bind_eq_ok.1 hw
  obtain rfl := Except.ok.inj hw
  obtain ⟨e, he, hwe⟩ := exists_of_forall₂_mem (mapM_eq_ok.1 hencs) ha
  have hle := (List.sublist_flatten_of_mem he).length_le
  exact ⟨e, hwe, by rw [List.length_append, write4, length_toLE]; omega⟩

/-- An array of elements of one size. -/
theorem length_writeArray {write : α → Result Bytes} {values : List α} {enc : Bytes} (size : ℕ)
    (hsize : ∀ a e, write a = .ok e → e.length = size) (hw : writeArray write values = .ok enc) :
    enc.length = 4 + values.length * size := by
  obtain ⟨len, _, hw⟩ := bind_eq_ok.1 hw
  obtain ⟨encs, hencs, hw⟩ := bind_eq_ok.1 hw
  have hsum := length_flatten ((mapM_eq_ok.1 hencs).imp fun a e he => hsize a e he)
  rw [← Except.ok.inj hw, List.length_append, write4, length_toLE, hsum]

theorem lawful_writeU64Array : Lawful writeU64Array readU64Array
    (fun values => values.length < 2 ^ 31) (fun _ => True) 4 where
  reads _ _ hl hw := reads_readU64Array hl hw
  yields := yields_readU64Array.mono fun _ used h => ⟨h.1, used, h.2, fun _ => rfl⟩
  length_le _ _ hw := le_length_writeArray hw

end CarbonWriter

/-- The laws of the elements, none of them empty, carry over to arrays. -/
theorem lawful_writeCarbonArray [CarbonSerializable α] {Fits Exact : α → Prop} {minLength : ℕ}
    (h : Lawful (writeCarbon : α → Result Bytes) (readCarbon : Reader α) Fits Exact minLength)
    (hpos : 0 < minLength) :
    Lawful (writeCarbonArray : List α → Result Bytes) (readCarbonArray α)
      (fun values => values.length < 2 ^ 31 ∧ ∀ a ∈ values, Fits a)
      (fun values => ∀ a ∈ values, Exact a) 4 where
  reads values enc hfits hw := reads_readCarbonArray hfits.1
    (fun a ha enc he => ⟨h.reads a enc (hfits.2 a ha) he, hpos.trans_le (h.length_le a enc he)⟩) hw
  yields := by
    refine (CarbonReader.yields_array h.yields 1).mono fun values used hv => ?_
    obtain ⟨hl, useds, rfl, hall⟩ := hv
    have hfits : ∀ a ∈ values, Fits a := fun a ha => by
      obtain ⟨_, _, hfits, -⟩ := exists_of_forall₂_mem hall ha
      exact hfits
    obtain ⟨encs, hencs⟩ : ∃ encs, List.Forall₂ (fun a e => writeCarbon a = .ok e) values
        encs := forall₂_of_isOk fun a ha => by
      obtain ⟨_, _, -, enc, henc, -⟩ := exists_of_forall₂_mem hall ha
      exact ⟨enc, henc⟩
    refine ⟨⟨hl, hfits⟩, _, CarbonReader.writeArray_of_forall₂ (by omega) hencs, fun hexact => ?_⟩
    rw [eq_of_forall₂ hencs hall fun a ha enc used he hu => ?_]
    obtain ⟨-, enc', he', hused⟩ := hu
    rw [← hused (hexact a ha)]
    exact Except.ok.inj (he.symm.trans he')
  length_le _ _ hw := CarbonWriter.le_length_writeArray hw

end PhantasmaSdk
