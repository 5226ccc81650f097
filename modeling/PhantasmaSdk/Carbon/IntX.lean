import PhantasmaSdk.Carbon.Wire

/-!
# Big integers

A Carbon big integer is a header and the shortest little-endian slice of a 256-bit
two's-complement word: the low six bits of the header hold the length of the
slice, its top bit the sign, i.e., the byte the word is filled up with on read.
Bit 6 is reserved. `IntX` is the form of amounts and ids: eight plain bytes under
the header of an eight-byte slice when the integer fits an `i64`, and the big
integer otherwise.

Both a signed integer and one in the unsigned upper half are accepted by the
writer; what is read back is the signed integer of the same word.

* `IntX.roundTrips_iff`: which integers an `IntX` reads back.
* `IntX.agrees_iff`: where the eight-byte path of the `IntX` reader agrees with
  the big-integer reader.
-/

namespace PhantasmaSdk

open Codec Codec.Decoder

/-! ## Words -/

namespace FixedBytes

/-- A byte by its position. -/
def get {size : ℕ} (b : FixedBytes size) (i : Fin size) : UInt8 :=
  b.bytes.get (i.cast b.length_eq.symm)

/-- The bytes of a word are numbered by literals. -/
instance : NeZero 32 := ⟨by decide⟩

end FixedBytes

def signedWord256 (value : ℤ) : Result Bytes32 :=
  let min : ℤ := -(2 ^ 255)
  let max : ℤ := 2 ^ 256 - 1
  if value < min ∨ value > max then serialization "BigInt overflow" else
  let modulus : ℤ := 2 ^ 256
  let unsigned := if value < 0 then value + modulus else value
  pure ⟨toLE 32 unsigned.toNat, length_toLE 32 _⟩

def signedWordToBigInt (word : Bytes32) : ℤ := signedLE word.bytes

/-! ## Reading and writing -/

namespace CarbonWriter

def writeBigInt (value : ℤ) : Result Bytes :=
  if value = 0 then pure (write1 0) else do
  let word ← signedWord256 value
  let fill : UInt8 := if word.get 31 &&& 0x80 ≠ 0 then 0xFF else 0x00
  let len := stripLen word.bytes fill word.bytes.length
  let header := UInt8.ofNat (len &&& 0x3F)
  let header := if fill = 0xFF then header ||| 0x80 else header
  pure (write1 header ++ word.bytes.take len)

def writeBigIntArray (values : List ℤ) : Result Bytes := writeArray writeBigInt values

end CarbonWriter

namespace CarbonReader

def readBigIntWithHeader (header : UInt8) : Reader ℤ :=
  if header = 0 then pure 0 else
  let len := (header &&& 0x3F).toNat
  if header &&& 0x40 ≠ 0 ∨ len > 32 then refuse "BigInt too big" else do
  let fill : UInt8 := if header &&& 0x80 ≠ 0 then 0xFF else 0x00
  let raw ← (if len > 0 then read len else pure [] : Reader Bytes)
  -- The slice over a word of fill bytes.
  let word := raw ++ List.replicate (32 - raw.length) fill
  if h : word.length = 32 then
    let word : Bytes32 := ⟨word, h⟩
    if (word.get 31 &&& 0x80 ≠ 0) ≠ (header &&& 0x80 ≠ 0) then
      refuse "non-standard BigInt header"
    else pure (signedWordToBigInt word)
  else fail (.panic (.expect "slice length"))

def readBigInt : Reader ℤ := do
  let header ← read1
  readBigIntWithHeader header

def readBigIntArray : Reader (List ℤ) := do
  let count ← readLength
  readBigInt.replicate count

end CarbonReader

structure IntX where
  value : ℤ
  deriving DecidableEq, Repr

namespace IntX

def is8ByteSafe (x : IntX) : Bool :=
  Int64.minValue.toInt ≤ x.value ∧ x.value ≤ Int64.maxValue.toInt

instance : Inhabited IntX := ⟨⟨0⟩⟩

open CarbonWriter CarbonReader

instance : CarbonSerializable IntX where
  writeCarbon x :=
    if x.is8ByteSafe then
      let value := Int64.ofInt x.value
      pure (write1 (if value < 0 then 0x88 else 0x08) ++ write8 value)
    else writeBigInt x.value
  readCarbon := do
    let header ← read1
    let len := header &&& 0x3F
    if len < 8 then refuse "invalid IntX packing" else
    if len = 8 then do
      let raw ← readArray 8
      let value := (UInt64.ofNat (ofLE raw.bytes)).toInt64
      let headerNegative : Bool := header &&& 0x80 ≠ 0
      if headerNegative = decide (value < 0) then pure ⟨value.toInt⟩ else
      let fill : UInt8 := if headerNegative then 0xFF else 0x00
      let word : Bytes32 := ⟨raw.bytes ++ List.replicate 24 fill, by simp [raw.length_eq]⟩
      pure ⟨signedWordToBigInt word⟩
    else do
      let value ← readBigIntWithHeader header
      pure ⟨value⟩

end IntX

/-! ## Words and slices -/

/-- The range of what a word can hold, in the signed and in the unsigned reading. -/
theorem signedWord256_eq_ok {value : ℤ} {word : Bytes32} : signedWord256 value = .ok word ↔
    (-(2 ^ 255) ≤ value ∧ value < 2 ^ 256) ∧
      word.bytes = toLE 32 (value % (256 ^ 32 : ℕ)).toNat := by
  have hmod : -(2 ^ 255) ≤ value → value < 2 ^ 256 →
      value % (256 ^ 32 : ℕ) = if value < 0 then value + 2 ^ 256 else value := by
    intro h₁ h₂
    split
    next h => rw [← Int.add_emod_right]; exact Int.emod_eq_of_lt (by omega) (by omega)
    next h => exact Int.emod_eq_of_lt (by omega) (by omega)
  rw [signedWord256]
  simp only
  split
  next h =>
    constructor
    · intro h'
      cases h'
    · rintro ⟨⟨h₁, h₂⟩, -⟩
      omega
  next h =>
    rw [hmod (by omega) (by omega)]
    constructor
    · intro h'
      exact ⟨by omega, (congrArg FixedBytes.bytes (Except.ok.inj h')).symm⟩
    · rintro ⟨-, h'⟩
      exact congrArg Except.ok (FixedBytes.ext h'.symm)

/-- A word holds the residue of the integer it was made from. -/
theorem signedWordToBigInt_of_eq_ok {value : ℤ} {word : Bytes32}
    (h : signedWord256 value = .ok word) :
    signedWordToBigInt word = value.bmod (2 ^ 256) := by
  rw [signedWordToBigInt, (signedWord256_eq_ok.1 h).2, signedLE_toLE]
  norm_num

theorem get_getLast {word : Bytes32} : word.bytes.getLast? = some (word.get 31) := by
  rw [List.getLast?_eq_getElem?, word.length_eq]
  exact List.getElem?_eq_getElem (by rw [word.length_eq]; decide)

/-- The sign of a word is the top bit of its last byte. -/
theorem get_and_ne_zero_iff (word : Bytes32) :
    word.get 31 &&& 0x80 ≠ 0 ↔ isNegative word.bytes = true :=
  (isNegative_iff_msb get_getLast).symm

/-- The header of a slice of `len` bytes. -/
def bigIntHeader (len : ℕ) (negative : Bool) : UInt8 :=
  if negative then UInt8.ofNat (len &&& 0x3F) ||| 0x80 else UInt8.ofNat (len &&& 0x3F)

theorem bigIntHeader_fields : ∀ (len : Fin 33) (negative : Bool),
    (bigIntHeader len negative &&& 0x3F).toNat = len ∧
      bigIntHeader len negative &&& 0x40 = 0 ∧
      (bigIntHeader len negative &&& 0x80 ≠ 0 ↔ negative = true) ∧
      (bigIntHeader len negative = 0 → (len : ℕ) = 0 ∧ negative = false) := by
  decide +kernel

namespace CarbonWriter

/-- How many bytes of a word are kept. -/
def sliceLen (word : Bytes32) : ℕ :=
  stripLen word.bytes (fillByte (isNegative word.bytes)) word.bytes.length

theorem sliceLen_le (word : Bytes32) : sliceLen word ≤ 32 :=
  (stripLen_le _ _ _).trans word.length_eq.le

/-- A big integer is written as a header and a slice of its word. -/
theorem writeBigInt_eq {value : ℤ} (h0 : value ≠ 0) {word : Bytes32}
    (hw : signedWord256 value = .ok word) :
    writeBigInt value = .ok (bigIntHeader (sliceLen word) (isNegative word.bytes) ::
      word.bytes.take (sliceLen word)) := by
  have hfill : (if word.get 31 &&& 0x80 ≠ 0 then 0xFF else 0x00 : UInt8) =
      fillByte (isNegative word.bytes) := by
    simp only [get_and_ne_zero_iff, fillByte]
  rw [writeBigInt, if_neg h0, hw, ok_bind]
  simp only [hfill]
  rw [sliceLen, bigIntHeader]
  cases isNegative word.bytes <;> rfl

theorem exists_word_of_writeBigInt {value : ℤ} {enc : Bytes} (h0 : value ≠ 0)
    (h : writeBigInt value = .ok enc) : ∃ word, signedWord256 value = .ok word := by
  rw [writeBigInt, if_neg h0] at h
  obtain ⟨word, hw, _⟩ := bind_eq_ok.1 h
  exact ⟨word, hw⟩

theorem one_le_length_writeBigInt {value : ℤ} {enc : Bytes} (hw : writeBigInt value = .ok enc) :
    1 ≤ enc.length := by
  by_cases h0 : value = 0
  · subst h0
    exact Except.ok.inj hw ▸ le_rfl
  · obtain ⟨word, hword⟩ := exists_word_of_writeBigInt h0 hw
    rw [← Except.ok.inj ((writeBigInt_eq h0 hword).symm.trans hw), List.length_cons]
    omega

/-- A word is its slice filled up with its sign. -/
theorem take_sliceLen_append (word : Bytes32) : word.bytes.take (sliceLen word) ++
    List.replicate (32 - sliceLen word) (fillByte (isNegative word.bytes)) = word.bytes := by
  have h := take_stripLen_append word.bytes (fillByte (isNegative word.bytes))
  rwa [← sliceLen, word.length_eq] at h

end CarbonWriter

namespace CarbonReader

open CarbonWriter

/-- A slice filled up with the sign in its header is read as the word. -/
theorem reads_readBigIntWithHeader {slice : Bytes} {negative : Bool} {word : Bytes32}
    (hl : slice.length ≤ 32)
    (hword : slice ++ List.replicate (32 - slice.length) (fillByte negative) = word.bytes)
    (hneg : isNegative word.bytes = negative) (h0 : 0 < slice.length ∨ negative = true) :
    (readBigIntWithHeader (bigIntHeader slice.length negative)).Reads slice
      (signedWordToBigInt word) := by
  obtain ⟨hlen, hres, hsign, hzero⟩ := bigIntHeader_fields ⟨slice.length, by omega⟩ negative
  simp only at hlen hres hsign hzero
  have hfill : (if bigIntHeader slice.length negative &&& 0x80 ≠ 0 then 0xFF else 0x00 : UInt8) =
      fillByte negative := by simp only [hsign, fillByte]
  have hagree : ¬((word.get 31 &&& 0x80 ≠ 0) ≠
      (bigIntHeader slice.length negative &&& 0x80 ≠ 0)) :=
    not_not.2 (propext (by rw [get_and_ne_zero_iff, hneg, hsign]))
  have hraw : (if slice.length > 0 then read slice.length else pure []).Reads slice slice := by
    split
    next => exact reads_read rfl
    next h =>
      obtain rfl := List.length_eq_zero_iff.1 (by omega : slice.length = 0)
      exact reads_pure []
  have hne : bigIntHeader slice.length negative ≠ 0 := by
    intro h
    obtain ⟨hl0, hn⟩ := hzero h
    rcases h0 with h0 | h0
    · omega
    · rw [hn] at h0
      cases h0
  rw [readBigIntWithHeader, if_neg hne]
  simp only [hlen, hres, hfill]
  rw [if_neg (by simpa using hl)]
  refine Reads.congr (hraw.bind (t := []) (b := signedWordToBigInt word) ?_)
    (List.append_nil slice).symm rfl
  rw [dif_pos (by rw [hword, word.length_eq])]
  simp only [hword]
  rw [if_neg hagree]
  exact reads_pure _

/-- A word of a nonzero integer keeps a byte or is negative. -/
theorem sliceLen_pos_or {value : ℤ} {word : Bytes32} (h0 : value ≠ 0)
    (hw : signedWord256 value = .ok word) :
    0 < sliceLen word ∨ isNegative word.bytes = true := by
  by_contra hcon
  obtain ⟨hlen, hneg⟩ := not_or.1 hcon
  have hval := signedWordToBigInt_of_eq_ok hw
  have hzero := (stripLen_le_iff word.bytes 0).1 (by unfold sliceLen at hlen; omega)
  rw [isNegative_iff_signedLE_neg] at hneg
  rw [signedWordToBigInt, show signedLE word.bytes = 0 by omega] at hval
  have hdvd : (2 ^ 256 : ℤ) ∣ value := by
    have := Int.dvd_self_sub_bmod (x := value) (m := 2 ^ 256)
    rw [← hval, sub_zero] at this
    exact_mod_cast this
  have hrange := (signedWord256_eq_ok.1 hw).1
  omega

/-- A big integer is read back as the signed integer of its word. -/
theorem reads_readBigInt {value : ℤ} {enc : Bytes} (h : writeBigInt value = .ok enc) :
    readBigInt.Reads enc (value.bmod (2 ^ 256)) := by
  by_cases h0 : value = 0
  · subst h0
    obtain rfl := Except.ok.inj h
    rw [Int.zero_bmod]
    exact (reads_read1 0).bind (t := []) (reads_pure 0)
  · obtain ⟨word, hw⟩ := exists_word_of_writeBigInt h0 h
    obtain rfl := Except.ok.inj ((writeBigInt_eq h0 hw).symm.trans h)
    have hlen : (word.bytes.take (sliceLen word)).length = sliceLen word := by
      rw [List.length_take, word.length_eq]
      exact min_eq_left (sliceLen_le word)
    have hle : (word.bytes.take (sliceLen word)).length ≤ 32 := hlen.trans_le (sliceLen_le word)
    have hslice := reads_readBigIntWithHeader hle (by rw [hlen]; exact take_sliceLen_append word)
      rfl (by rw [hlen]; exact sliceLen_pos_or h0 hw)
    rw [hlen] at hslice
    rw [← signedWordToBigInt_of_eq_ok hw]
    exact (reads_read1 _).bind hslice

theorem reads_readBigInt_self {value : ℤ} {enc : Bytes}
    (hr : -(2 ^ 255) ≤ value ∧ value < 2 ^ 255) (h : writeBigInt value = .ok enc) :
    readBigInt.Reads enc value := by
  have hreads := reads_readBigInt h
  rwa [bmod_eq_self (by push_cast; omega) (by push_cast; omega)] at hreads

/-- A big integer read off a header does not panic. -/
theorem safe_readBigIntWithHeader (header : UInt8) {input : Bytes} :
    (readBigIntWithHeader header).Safe input := by
  rw [readBigIntWithHeader]
  split
  next => exact safeOn_pure _ _
  simp only
  split
  next => exact safe_refuse _
  next h =>
  have hraw : (if (header &&& 0x3F).toNat > 0 then read (header &&& 0x3F).toNat
      else pure [] : Reader Bytes).Yields fun raw _ => raw.length = (header &&& 0x3F).toNat := by
    split
    next => exact (yields_read _).mono fun raw used h => h.1 ▸ h.2
    next => exact yields_pure (by simp only [List.length_nil]; omega)
  refine safeOn_bind.2 ⟨?_, fun raw mid hr => ?_⟩
  · split
    next => exact safe_read _
    next => exact safeOn_pure _ _
  · obtain ⟨_, _, hlen⟩ := hraw _ _ _ hr
    generalize (if header &&& 0x80 ≠ 0 then 0xFF else 0x00 : UInt8) = fill
    rw [dif_pos (by rw [List.length_append, List.length_replicate, hlen]; omega)]
    split
    next => exact safe_refuse _
    next => exact safeOn_pure _ _

end CarbonReader

/-! ## The eight-byte path -/

namespace IntX

open CarbonWriter CarbonReader

/-- A header without the reserved bit is the one written for its length and sign. -/
theorem eq_bigIntHeader {header : UInt8} (hres : header &&& 0x40 = 0) :
    header = bigIntHeader (header &&& 0x3F).toNat (header &&& 0x80 ≠ 0) := by
  have h : ∀ n : Fin 256, UInt8.ofNat n &&& 0x40 = 0 → UInt8.ofNat n =
      bigIntHeader (UInt8.ofNat n &&& 0x3F).toNat (UInt8.ofNat n &&& 0x80 ≠ 0) := by
    decide +kernel
  simpa using h ⟨header.toNat, header.toNat_lt⟩ (by simpa using hres)

theorem toInt_ofNat_ofLE (raw : FixedBytes 8) :
    (UInt64.ofNat (ofLE raw.bytes)).toInt64.toInt = signedLE raw.bytes := by
  change (UInt64.ofNat (ofLE raw.bytes)).toBitVec.toInt = _
  rw [UInt64.toBitVec_ofNat', BitVec.toInt_ofNat', signedLE, raw.length_eq]
  norm_num

/-- Under any header of length eight, the next eight bytes are filled up with the
    sign in the header. -/
theorem run_readCarbon_eight {header : UInt8} (hlen : header &&& 0x3F = 8) (raw : FixedBytes 8)
    (rest : Bytes) : (readCarbon : Reader IntX).run (header :: (raw.bytes ++ rest)) = .ok
      (⟨signedLE (raw.bytes ++ List.replicate 24 (fillByte (header &&& 0x80 ≠ 0)))⟩, rest) := by
  have hvalue : decide ((UInt64.ofNat (ofLE raw.bytes)).toInt64 < 0) = isNegative raw.bytes := by
    rw [Bool.eq_iff_iff, decide_eq_true_iff, isNegative_iff_signedLE_neg, ← toInt_ofNat_ofLE, Int64.lt_iff_toInt_lt]
    rfl
  change Decoder.run (read1 >>= _) _ = _
  rw [run_bind_of_ok (run_read1 header _)]
  simp only [hlen]
  rw [if_neg (by decide), if_pos trivial, run_bind_of_ok (reads_readArray raw rest)]
  split
  next h =>
    rw [run_pure, toInt_ofNat_ofLE, h, hvalue, signedLE_append_sign]
  next =>
    simp only [fillByte]
    rfl

theorem run_readCarbon_eight_short {header : UInt8} (hlen : header &&& 0x3F = 8) {rest : Bytes}
    (hrest : rest.length < 8) : (readCarbon : Reader IntX).run (header :: rest) =
      .error (.error (.serialization "end of stream reached")) := by
  change Decoder.run (read1 >>= _) _ = _
  rw [run_bind_of_ok (run_read1 header _)]
  simp only [hlen]
  rw [if_neg (by decide), if_pos trivial]
  refine run_bind_of_error (run_bind_of_error ?_)
  rw [CarbonReader.read, run_take, if_neg (by omega)]

/-- Beyond eight bytes the `IntX` reader is the big-integer reader. -/
theorem run_readCarbon_of_lt {header : UInt8} (hlen : 8 < header &&& 0x3F) (rest : Bytes) :
    (readCarbon : Reader IntX).run (header :: rest) =
      (do let value ← readBigIntWithHeader header; pure ⟨value⟩ : Reader IntX).run rest := by
  change Decoder.run (read1 >>= _) _ = _
  rw [run_bind_of_ok (run_read1 header _)]
  simp only
  rw [if_neg (UInt8.not_lt.2 (UInt8.le_of_lt hlen)), if_neg (by rintro h; simp [h] at hlen)]

/-- Under a header of length eight without the reserved bit, the big-integer reader
    reads what the `IntX` reader does. -/
theorem run_readBigInt_eight {header : UInt8} (hlen : header &&& 0x3F = 8)
    (hres : header &&& 0x40 = 0) (raw : FixedBytes 8) (rest : Bytes) :
    readBigInt.run (header :: (raw.bytes ++ rest)) = .ok
      (signedLE (raw.bytes ++ List.replicate 24 (fillByte (header &&& 0x80 ≠ 0))), rest) := by
  have hheader : header = bigIntHeader raw.bytes.length (header &&& 0x80 ≠ 0) := by
    have := eq_bigIntHeader hres
    rwa [hlen, show (8 : UInt8).toNat = raw.bytes.length from raw.length_eq.symm] at this
  rw [readBigInt, run_bind_of_ok (run_read1 header _)]
  generalize decide (header &&& 0x80 ≠ 0) = negative at hheader ⊢
  rw [hheader]
  have hword : raw.bytes ++ List.replicate (32 - raw.bytes.length) (fillByte negative) =
      (⟨raw.bytes ++ List.replicate 24 (fillByte negative), by simp [raw.length_eq]⟩ :
        Bytes32).bytes := by simp [raw.length_eq]
  exact reads_readBigIntWithHeader (by simp [raw.length_eq]) hword
    (isNegative_append_fill raw.bytes 23 negative) (.inl (by simp [raw.length_eq])) rest

/-- The big-integer reader refuses a reserved bit. -/
theorem run_readBigInt_of_reserved {header : UInt8} (hres : header &&& 0x40 ≠ 0) (rest : Bytes) :
    readBigInt.run (header :: rest) = .error (.error (.serialization "BigInt too big")) := by
  have h0 : header ≠ 0 := by
    rintro rfl
    exact hres rfl
  rw [readBigInt, run_bind_of_ok (run_read1 header _), readBigIntWithHeader, if_neg h0]
  simp only
  rw [if_pos (.inl hres)]
  rfl

/-- Both readers refuse the input. -/
def BothRefuse (input : Bytes) : Prop :=
  ∃ e e', (readCarbon : Reader IntX).run input = .error (.error e) ∧
    readBigInt.run input = .error (.error e')

/-- Both readers refuse the input, or both read the same integer and leave the
    same rest. -/
def Agrees (input : Bytes) : Prop :=
  BothRefuse input ∨ ∃ value rest, (readCarbon : Reader IntX).run input = .ok (⟨value⟩, rest) ∧
    readBigInt.run input = .ok (value, rest)

theorem bothRefuse_of_short {header : UInt8} (hlen : header &&& 0x3F = 8) {rest : Bytes}
    (hrest : rest.length < 8) : BothRefuse (header :: rest) := by
  by_cases hres : header &&& 0x40 = 0
  · refine ⟨_, .serialization "end of stream reached",
      run_readCarbon_eight_short hlen hrest, ?_⟩
    have hne : header ≠ 0 := by
      rintro rfl
      cases hlen
    rw [readBigInt, run_bind_of_ok (run_read1 header _), readBigIntWithHeader, if_neg hne]
    simp only [hlen, hres]
    rw [if_neg (by decide)]
    refine run_bind_of_error ?_
    rw [if_pos (by decide), CarbonReader.read, run_take, if_neg (by simpa using hrest)]
  · exact ⟨_, _, run_readCarbon_eight_short hlen hrest, run_readBigInt_of_reserved hres rest⟩

/-- Beyond eight bytes both are the big-integer reader. -/
theorem agrees_of_lt {header : UInt8} (hlen : 8 < header &&& 0x3F) (rest : Bytes) :
    Agrees (header :: rest) := by
  have hbig : readBigInt.run (header :: rest) = (readBigIntWithHeader header).run rest :=
    run_bind_of_ok (run_read1 header _)
  rw [Agrees, BothRefuse, run_readCarbon_of_lt hlen, hbig]
  cases h : (readBigIntWithHeader header).run rest with
  | ok p => exact .inr ⟨p.1, p.2, run_bind_of_ok h, rfl⟩
  | error e =>
    obtain ⟨e', rfl⟩ := exists_error_of_safe (safe_readBigIntWithHeader header) h
    exact .inl ⟨e', e', run_bind_of_error h, rfl⟩

theorem agrees_of_eight {header : UInt8} (hlen : header &&& 0x3F = 8)
    (hres : header &&& 0x40 = 0) (rest : Bytes) : Agrees (header :: rest) := by
  by_cases hrest : 8 ≤ rest.length
  · obtain ⟨raw, rest', rfl⟩ : ∃ (raw : FixedBytes 8) (rest' : Bytes), rest = raw.bytes ++ rest' :=
      ⟨⟨rest.take 8, by simpa using hrest⟩, rest.drop 8, (List.take_append_drop 8 rest).symm⟩
    exact .inr ⟨_, _, run_readCarbon_eight hlen raw rest', run_readBigInt_eight hlen hres raw rest'⟩
  · exact .inl (bothRefuse_of_short hlen (by omega))

theorem eq_or_lt_of_le {header : UInt8} (hlen : 8 ≤ header &&& 0x3F) :
    header &&& 0x3F = 8 ∨ 8 < header &&& 0x3F := by
  rw [UInt8.lt_iff_toNat_lt, ← UInt8.toNat_inj]
  rw [UInt8.le_iff_toNat_le] at hlen
  exact hlen.eq_or_lt.imp Eq.symm id

/-- Without the reserved bit the two readers agree. -/
theorem agrees_of_not_reserved {header : UInt8} (hlen : 8 ≤ header &&& 0x3F)
    (hres : header &&& 0x40 = 0) (rest : Bytes) : Agrees (header :: rest) := by
  rcases eq_or_lt_of_le hlen with heq | hlt
  · exact agrees_of_eight heq hres rest
  · exact agrees_of_lt hlt rest

theorem and_127_eq_iff (header : UInt8) :
    header &&& 0x7F = 0x48 ↔ header &&& 0x3F = 8 ∧ header &&& 0x40 ≠ 0 := by
  have h : ∀ n : Fin 256, UInt8.ofNat n &&& 0x7F = 0x48 ↔
      UInt8.ofNat n &&& 0x3F = 8 ∧ UInt8.ofNat n &&& 0x40 ≠ 0 := by decide +kernel
  simpa using h ⟨header.toNat, header.toNat_lt⟩

/-- The eight-byte path of the `IntX` reader agrees with the big-integer reader,
    and with it on refusing the reserved bit, except where that bit is set in a
    header of length eight with its eight bytes: the `IntX` reader looks at the
    length and the sign only. -/
theorem agrees_iff (header : UInt8) (rest : Bytes) (hlen : 8 ≤ header &&& 0x3F) :
    (Agrees (header :: rest) ∧ (header &&& 0x40 ≠ 0 → BothRefuse (header :: rest))) ↔
      ¬(header &&& 0x7F = 0x48 ∧ 8 ≤ rest.length) := by
  rw [and_127_eq_iff]
  constructor
  · rintro ⟨-, hrefuse⟩ ⟨⟨heq, hres⟩, hrest⟩
    obtain ⟨e, e', hint, -⟩ := hrefuse hres
    have hok := run_readCarbon_eight heq ⟨rest.take 8, by simpa using hrest⟩ (rest.drop 8)
    rw [List.take_append_drop, hint] at hok
    cases hok
  · intro h
    by_cases hres : header &&& 0x40 = 0
    · exact ⟨agrees_of_not_reserved hlen hres rest, fun h => absurd hres h⟩
    · -- Both refuse: the one for want of bytes, or both as the same reader.
      have hrefuse : BothRefuse (header :: rest) := by
        rcases eq_or_lt_of_le hlen with heq | hlt
        · exact bothRefuse_of_short heq (by
            by_contra hrest
            exact h ⟨⟨heq, hres⟩, by omega⟩)
        · rcases agrees_of_lt hlt rest with h | ⟨value, rest', -, hbig⟩
          · exact h
          · rw [run_readBigInt_of_reserved hres] at hbig
            cases hbig
      exact ⟨.inl hrefuse, fun _ => hrefuse⟩

/-- The reserved bit over eight zero bytes: the `IntX` reader reads zero. -/
theorem not_agrees_reserved : ¬∀ (header : UInt8) (rest : Bytes), 8 ≤ header &&& 0x3F →
    Agrees (header :: rest) ∧ (header &&& 0x40 ≠ 0 → BothRefuse (header :: rest)) := by
  intro h
  obtain ⟨e, e', hint, -⟩ := (h 0x48 (List.replicate 8 0) (by decide)).2 (by decide)
  have hok : (readCarbon : Reader IntX).run (0x48 :: List.replicate 8 0) = .ok (⟨0⟩, []) := by
    decide +kernel
  rw [hint] at hok
  cases hok

theorem agrees_nine_bytes : Agrees [0x09, 0, 0, 0, 0, 0, 0, 0, 0, 1] ∧
    ((0x09 : UInt8) &&& 0x40 ≠ 0 → BothRefuse [0x09, 0, 0, 0, 0, 0, 0, 0, 0, 1]) :=
  (agrees_iff 0x09 [0, 0, 0, 0, 0, 0, 0, 0, 1] (by decide)).2 (by decide)

/-! ## Round trip -/

theorem is8ByteSafe_iff (x : IntX) :
    x.is8ByteSafe = true ↔ -(2 ^ 63) ≤ x.value ∧ x.value < 2 ^ 63 := by
  have hmin : Int64.minValue.toInt = -(2 ^ 63) := by decide
  have hmax : Int64.maxValue.toInt = 2 ^ 63 - 1 := by decide
  rw [is8ByteSafe, decide_eq_true_iff, hmin, hmax]
  omega

theorem signedLE_write8 (v : Int64) : signedLE (write8 v) = v.toInt := by
  have hlt : v.toUInt64.toNat < 256 ^ 8 := by simpa using v.toUInt64.toNat_lt
  rw [write8, signedLE, ofLE_toLE_of_lt hlt, length_toLE]
  exact (BitVec.toInt_eq_toNat_bmod v.toBitVec).symm

/-- The eight plain bytes of an `i64` are read back. -/
theorem reads_eight {x : IntX} (h : x.is8ByteSafe = true) {enc : Bytes}
    (hw : writeCarbon x = .ok enc) : (readCarbon : Reader IntX).Reads enc x := by
  obtain ⟨hlo, hhi⟩ := (is8ByteSafe_iff x).1 h
  set v := Int64.ofInt x.value with hv
  have hint : v.toInt = x.value := Int64.toInt_ofInt_of_le hlo hhi
  obtain rfl : (if v < 0 then 0x88 else 0x08) :: write8 v = enc := by
    change (if x.is8ByteSafe = true then _ else _) = _ at hw
    rw [if_pos h] at hw
    exact Except.ok.inj hw
  have hneg : isNegative (write8 v) = decide (v < 0) := by
    rw [Bool.eq_iff_iff, isNegative_iff_signedLE_neg, signedLE_write8, decide_eq_true_iff,
      Int64.lt_iff_toInt_lt]
    rfl
  have hvalue : signedLE (write8 v ++ List.replicate 24 (fillByte (decide (v < 0)))) = x.value := by
    rw [← hneg, signedLE_append_sign, signedLE_write8, hint]
  intro suffix
  have hrun := fun (header : UInt8) (h8 : header &&& 0x3F = 8) =>
    run_readCarbon_eight h8 ⟨write8 v, length_toLE 8 _⟩ suffix
  by_cases hlt : v < 0
  · rw [decide_eq_true hlt] at hvalue
    rw [if_pos hlt, List.cons_append, hrun 0x88 (by decide)]
    simp only [decide_eq_true (by decide : (0x88 : UInt8) &&& 0x80 ≠ 0), hvalue]
  · rw [decide_eq_false hlt] at hvalue
    rw [if_neg hlt, List.cons_append, hrun 0x08 (by decide)]
    simp only [decide_eq_false (by decide : ¬(0x08 : UInt8) &&& 0x80 ≠ 0), hvalue]

/-- How many bytes of its word an integer that does not fit an `i64` keeps. -/
theorem lt_sliceLen_iff {value : ℤ} {word : Bytes32} (hw : signedWord256 value = .ok word)
    (h8 : ¬(-(2 ^ 63) ≤ value ∧ value < 2 ^ 63)) :
    sliceLen word < 8 ↔ 2 ^ 256 - 2 ^ 56 ≤ value := by
  have hval := signedWordToBigInt_of_eq_ok hw
  obtain ⟨hlo, hhi⟩ := (signedWord256_eq_ok.1 hw).1
  rw [signedWordToBigInt] at hval
  rw [Nat.lt_succ_iff, sliceLen, stripLen_le_iff, hval]
  by_cases hhalf : value < 2 ^ 255
  · rw [bmod_eq_self (by push_cast; omega) (by push_cast; omega)]
    omega
  · rw [← Int.sub_bmod_right, bmod_eq_self (by push_cast; omega) (by push_cast; omega)]
    push_cast
    omega

/-- What an `IntX` writes as a big integer of at least eight bytes is read back. -/
theorem reads_big {x : IntX} (h : ¬x.is8ByteSafe = true) (hx : ¬2 ^ 256 - 2 ^ 56 ≤ x.value)
    {enc : Bytes} (hw : writeCarbon x = .ok enc) :
    (readCarbon : Reader IntX).Reads enc ⟨x.value.bmod (2 ^ 256)⟩ := by
  change (if x.is8ByteSafe = true then _ else writeBigInt x.value) = _ at hw
  rw [if_neg h] at hw
  rw [is8ByteSafe_iff] at h
  have h0 : x.value ≠ 0 := by omega
  have hbig := reads_readBigInt hw
  obtain ⟨word, hword⟩ := exists_word_of_writeBigInt h0 hw
  obtain rfl := Except.ok.inj ((writeBigInt_eq h0 hword).symm.trans hw)
  obtain ⟨hlen, hres, -, -⟩ := bigIntHeader_fields ⟨sliceLen word, by
    have := sliceLen_le word
    omega⟩ (isNegative word.bytes)
  simp only at hlen hres
  have hle : 8 ≤ bigIntHeader (sliceLen word) (isNegative word.bytes) &&& 0x3F := by
    rw [UInt8.le_iff_toNat_le, hlen]
    exact not_lt.1 fun hlt => hx ((lt_sliceLen_iff hword h).1 hlt)
  intro suffix
  rcases agrees_of_not_reserved hle hres (word.bytes.take (sliceLen word) ++ suffix) with
    ⟨_, _, -, hread⟩ | ⟨value, rest, hint, hread⟩
  · rw [← List.cons_append, hbig suffix] at hread
    cases hread
  · rw [← List.cons_append, hbig suffix] at hread
    obtain ⟨rfl, rfl⟩ : x.value.bmod (2 ^ 256) = value ∧ suffix = rest := by simpa using hread
    exact hint

/-- What an `IntX` writes as a big integer of fewer than eight bytes is refused. -/
theorem run_readCarbon_of_short_slice {x : IntX} (h : ¬x.is8ByteSafe = true)
    (hx : 2 ^ 256 - 2 ^ 56 ≤ x.value) {enc : Bytes} (hw : writeCarbon x = .ok enc) :
    (readCarbon : Reader IntX).run enc =
      .error (.error (.serialization "invalid IntX packing")) := by
  change (if x.is8ByteSafe = true then _ else writeBigInt x.value) = _ at hw
  rw [if_neg h] at hw
  rw [is8ByteSafe_iff] at h
  have h0 : x.value ≠ 0 := by omega
  obtain ⟨word, hword⟩ := exists_word_of_writeBigInt h0 hw
  obtain rfl := Except.ok.inj ((writeBigInt_eq h0 hword).symm.trans hw)
  have hslice := (lt_sliceLen_iff hword h).2 hx
  obtain ⟨hlen, -, -, -⟩ := bigIntHeader_fields ⟨sliceLen word, by omega⟩ (isNegative word.bytes)
  simp only at hlen
  change Decoder.run (read1 >>= _) _ = _
  rw [run_bind_of_ok (run_read1 _ _)]
  simp only
  rw [if_pos (by rw [UInt8.lt_iff_toNat_lt, hlen]; exact hslice)]
  rfl

/-- The integers an `IntX` reads back: what is written, if anything, is read, with
    any suffix left over, as the integer of the signed range that is congruent
    modulo `2 ^ 256`. -/
def RoundTrips (value : ℤ) : Prop :=
  ∀ enc, writeCarbon (⟨value⟩ : IntX) = .ok enc →
    ∃ r : ℤ, -(2 ^ 255) ≤ r ∧ r < 2 ^ 255 ∧ r ≡ value [ZMOD 2 ^ 256] ∧
      (readCarbon : Reader IntX).Reads enc ⟨r⟩

theorem bmod_modEq (value : ℤ) : value.bmod (2 ^ 256) ≡ value [ZMOD 2 ^ 256] := by
  refine (Int.modEq_iff_dvd.2 ?_)
  exact_mod_cast Int.dvd_self_sub_bmod (x := value) (m := 2 ^ 256)

/-- An integer of the unsigned upper half is read back unless it is one of the
    last `2 ^ 56`: its word is then all ones but for fewer than eight bytes, of
    which the writer keeps so few that the reader refuses them. -/
theorem roundTrips_iff (value : ℤ) :
    RoundTrips value ↔ ¬(2 ^ 256 - 2 ^ 56 ≤ value ∧ value < 2 ^ 256) := by
  constructor
  · rintro h ⟨hlo, hhi⟩
    have h8 : ¬(⟨value⟩ : IntX).is8ByteSafe = true := by
      rw [is8ByteSafe_iff]
      simp only
      omega
    have h0 : value ≠ 0 := by omega
    obtain ⟨word, hword⟩ : ∃ word, signedWord256 value = .ok word :=
      ⟨⟨_, length_toLE 32 _⟩, signedWord256_eq_ok.2 ⟨⟨by omega, hhi⟩, rfl⟩⟩
    have hw : writeCarbon (⟨value⟩ : IntX) = .ok _ :=
      (if_neg h8).trans (writeBigInt_eq h0 hword)
    obtain ⟨r, -, -, -, hr⟩ := h _ hw
    have := run_readCarbon_of_short_slice h8 hlo hw
    rw [hr.run_self] at this
    cases this
  · intro h enc hw
    by_cases h8 : (⟨value⟩ : IntX).is8ByteSafe = true
    · obtain ⟨hlo, hhi⟩ := (is8ByteSafe_iff _).1 h8
      simp only at hlo hhi
      exact ⟨value, by omega, by omega, rfl, reads_eight h8 hw⟩
    · have hpos : 0 < 2 ^ 256 := by positivity
      have hlo := Int.le_bmod (x := value) hpos
      have hhi := Int.bmod_lt (x := value) hpos
      refine ⟨value.bmod (2 ^ 256), by omega, by omega, bmod_modEq value, reads_big h8 ?_ hw⟩
      intro hge
      refine h ⟨hge, ?_⟩
      change (if (⟨value⟩ : IntX).is8ByteSafe = true then _ else writeBigInt value) = _ at hw
      rw [if_neg h8] at hw
      have h0 : value ≠ 0 := by
        simp only at hge
        omega
      obtain ⟨word, hword⟩ := exists_word_of_writeBigInt h0 hw
      exact (signedWord256_eq_ok.1 hword).1.2

/-- The last integer of the upper half is written as the one byte `0x80`. -/
theorem not_roundTrips_max : ¬∀ value, RoundTrips value := by
  intro h
  obtain ⟨r, -, -, -, hr⟩ := h (2 ^ 256 - 1) [0x80] (by decide +kernel)
  have hrun : (readCarbon : Reader IntX).run [0x80] =
      .error (.error (.serialization "invalid IntX packing")) := by decide +kernel
  rw [hr.run_self] at hrun
  cases hrun

/-! ## The codec laws -/

/-- The signed range of a 256-bit word. -/
def InRange (x : IntX) : Prop := -(2 ^ 255) ≤ x.value ∧ x.value < 2 ^ 255

/-- An amount in the signed range is read back as it is. -/
theorem reads_readCarbon {x : IntX} (hx : x.InRange) {enc : Bytes}
    (hw : writeCarbon x = .ok enc) : (readCarbon : Reader IntX).Reads enc x := by
  obtain ⟨hlo, hhi⟩ := hx
  by_cases h8 : x.is8ByteSafe = true
  · exact reads_eight h8 hw
  · have := reads_big h8 (by omega) hw
    rwa [bmod_eq_self (by push_cast; omega) (by push_cast; omega)] at this

theorem inRange_signedWordToBigInt (word : Bytes32) : InRange ⟨signedWordToBigInt word⟩ := by
  have hpos : 0 < 256 ^ 32 := by positivity
  rw [InRange, signedWordToBigInt, signedLE, word.length_eq]
  have hlo := Int.le_bmod (x := ofLE word.bytes) hpos
  have hhi := Int.bmod_lt (x := ofLE word.bytes) hpos
  simp only
  omega

theorem inRange_int64 (v : Int64) : InRange ⟨v.toInt⟩ := by
  have hlo := v.le_toInt
  have hhi := v.toInt_lt
  exact ⟨by simp only; omega, by simp only; omega⟩

/-- What is read after a header is a slice of the length in it, which the sign in it fills up to
    a word. -/
theorem yields_readBigIntWithHeader (header : UInt8) :
    (readBigIntWithHeader header).Yields fun value used => ∃ word : Bytes32,
      value = signedWordToBigInt word ∧ used.length ≤ 32 ∧
        used ++ List.replicate (32 - used.length) (fillByte (isNegative word.bytes)) =
          word.bytes ∧ header = bigIntHeader used.length (isNegative word.bytes) := by
  rw [readBigIntWithHeader]
  split
  next h0 =>
    refine yields_pure ⟨FixedBytes.zero 32, by decide +kernel, by decide, by decide +kernel, ?_⟩
    rw [h0]
    decide +kernel
  next h0 =>
  simp only
  split
  next => exact yields_refuse _ _
  next hlen =>
  push Not at hlen
  obtain ⟨hres, hlen⟩ := hlen
  have hraw : (if (header &&& 0x3F).toNat > 0 then read (header &&& 0x3F).toNat
      else pure [] : Reader Bytes).Yields fun raw used =>
        raw = used ∧ raw.length = (header &&& 0x3F).toNat := by
    split
    next => exact (yields_read _).mono fun raw used h => ⟨h.1, h.1 ▸ h.2⟩
    next => exact yields_pure ⟨rfl, by simp only [List.length_nil]; omega⟩
  refine hraw.bind fun raw used hused => ?_
  obtain ⟨rfl, hlength⟩ := hused
  have hfill : (if header &&& 0x80 ≠ 0 then 0xFF else 0x00 : UInt8) =
      fillByte (header &&& 0x80 ≠ 0) := by simp [fillByte]
  rw [hfill]
  split
  swap
  next => exact yields_fail _ _
  next hword =>
  split
  next => exact yields_refuse _ _
  next hsign =>
  have hnegative : isNegative (raw ++ List.replicate (32 - raw.length)
      (fillByte (header &&& 0x80 ≠ 0))) = decide (header &&& 0x80 ≠ 0) := by
    rw [Bool.eq_iff_iff, decide_eq_true_iff, ← get_and_ne_zero_iff ⟨_, hword⟩]
    exact iff_of_eq (not_not.1 hsign)
  refine yields_pure ⟨⟨_, hword⟩, rfl, ?_, ?_, ?_⟩ <;> rw [List.append_nil]
  · exact hlength.trans_le hlen
  · rw [hnegative]
  · rw [hnegative, hlength, ← eq_bigIntHeader hres]

/-- Whatever is read is in the signed range. -/
theorem yields_readCarbon : (readCarbon : Reader IntX).Yields fun x _ => x.InRange := by
  change Decoder.Yields (read1 >>= _) _
  refine yields_read1.bind fun header _ _ => ?_
  simp only
  split
  next => exact yields_refuse _ _
  split
  next =>
    refine (yields_readArray 8).bind fun raw _ _ => ?_
    split
    next => exact yields_pure (inRange_int64 _)
    next => exact yields_pure (inRange_signedWordToBigInt _)
  next =>
    refine (yields_readBigIntWithHeader header).bind fun value _ h => yields_pure ?_
    obtain ⟨word, rfl, -⟩ := h
    exact inRange_signedWordToBigInt word

theorem exists_writeCarbon {x : IntX} (hx : x.InRange) :
    ∃ enc, (writeCarbon x : Result Bytes) = .ok enc := by
  by_cases h8 : x.is8ByteSafe = true
  · exact ⟨_, if_pos h8⟩
  · have hrange := h8
    rw [is8ByteSafe_iff] at hrange
    obtain ⟨hlo, hhi⟩ := hx
    have hw : signedWord256 x.value = .ok ⟨_, length_toLE 32 _⟩ :=
      signedWord256_eq_ok.2 ⟨⟨by omega, by omega⟩, rfl⟩
    exact ⟨_, (if_neg h8).trans (writeBigInt_eq (by omega) hw)⟩

theorem length_pos_of_writeCarbon {x : IntX} {enc : Bytes} (hw : writeCarbon x = .ok enc) :
    1 ≤ enc.length := by
  change (if x.is8ByteSafe = true then _ else writeBigInt x.value) = _ at hw
  split at hw
  next => simp [← Except.ok.inj hw, write1]
  next => exact one_le_length_writeBigInt hw

/-- Amounts in the signed range have two encodings, hence are not exact. -/
theorem lawful : Lawful (writeCarbon : IntX → Result Bytes) readCarbon InRange
    (fun _ => False) 1 where
  reads _ _ hx hw := reads_readCarbon hx hw
  yields := yields_readCarbon.mono fun _ _ hx =>
    let ⟨enc, henc⟩ := exists_writeCarbon hx
    ⟨hx, enc, henc, False.elim⟩
  length_le _ _ hw := length_pos_of_writeCarbon hw

theorem safe_readCarbon {input : Bytes} : (readCarbon : Reader IntX).Safe input := by
  change Decoder.SafeOn _ (read1 >>= _) _
  refine safeOn_bind.2 ⟨safe_read1, fun header mid _ => ?_⟩
  simp only
  split
  next => exact safe_refuse _
  split
  next =>
    refine safeOn_bind.2 ⟨safe_readArray 8, fun raw mid' _ => ?_⟩
    split
    next => exact safeOn_pure _ _
    next => exact safeOn_pure _ _
  next =>
    exact safeOn_bind.2 ⟨safe_readBigIntWithHeader header, fun _ _ _ => safeOn_pure _ _⟩

end IntX

end PhantasmaSdk
