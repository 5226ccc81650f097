import PhantasmaSdk.Carbon.IntX

/-!
# The compact form of big integers

A big integer is read from any slice that, filled up with the sign in its header, is a word
(`SliceOf`), so that most integers have several forms: a slice may keep some of the bytes it
is filled up with. What is written is the one that keeps none (`writeBigInt_compact`).
-/

namespace PhantasmaSdk

open Codec Codec.Decoder CarbonWriter CarbonReader

/-- A slice is that of a word: filled up with the sign of the word, it is the word. -/
structure SliceOf (slice : Bytes) (word : Bytes32) : Prop where
  length_le : slice.length ≤ 32
  append_eq : slice ++ List.replicate (32 - slice.length) (fillByte (isNegative word.bytes)) =
    word.bytes

/-- A slice under its header. -/
def sliceForm (slice : Bytes) (word : Bytes32) : Bytes :=
  bigIntHeader slice.length (isNegative word.bytes) :: slice

theorem signedWordToBigInt_injective : Function.Injective signedWordToBigInt := by
  intro a b h
  have hlength : a.bytes.length = b.bytes.length := a.length_eq.trans b.length_eq.symm
  rw [signedWordToBigInt, signedWordToBigInt] at h
  -- Words of one integer have the same sign, and thus the same unsigned integer.
  have hsign : isNegative a.bytes = isNegative b.bytes := by
    rw [Bool.eq_iff_iff, isNegative_iff_signedLE_neg, isNegative_iff_signedLE_neg, h]
  rw [signedLE_eq, signedLE_eq, hsign, hlength, sub_left_inj] at h
  exact FixedBytes.ext (ofLE_injective hlength (by exact_mod_cast h))

/-! ## What is written -/

theorem length_take_sliceLen (word : Bytes32) :
    (word.bytes.take (sliceLen word)).length = sliceLen word := by
  rw [List.length_take, word.length_eq]
  exact min_eq_left (sliceLen_le word)

namespace SliceOf

variable {slice : Bytes} {word : Bytes32}

/-- What a word is without its sign bytes is a slice of it. -/
theorem take (word : Bytes32) : SliceOf (word.bytes.take (sliceLen word)) word := by
  have hlength := length_take_sliceLen word
  exact ⟨hlength.trans_le (sliceLen_le word), by rw [hlength, take_sliceLen_append]⟩

/-- No slice of a word is shorter. -/
theorem sliceLen_le (h : SliceOf slice word) : sliceLen word ≤ slice.length := by
  have hsign : isNegative (slice ++ List.replicate (32 - slice.length)
      (fillByte (isNegative word.bytes))) = isNegative word.bytes := by rw [h.append_eq]
  have hword := signedLE_append_fill hsign
  rw [h.append_eq] at hword
  -- The integer of the word fits the slice, so that the word strips to its length.
  have hlt : (ofLE slice : ℤ) < 256 ^ slice.length := by exact_mod_cast ofLE_lt slice
  rw [sliceLen, stripLen_le_iff, hword]
  split <;> omega

theorem eq_take (h : SliceOf slice word) : slice = word.bytes.take slice.length := by
  rw [← h.append_eq, List.take_left]

end SliceOf

/-- Every big integer, zero included, is written as the shortest slice of its word. -/
theorem writeBigInt_eq_ok_iff {value : ℤ} {enc : Bytes} : writeBigInt value = .ok enc ↔
    ∃ word, signedWord256 value = .ok word ∧
      enc = sliceForm (word.bytes.take (sliceLen word)) word := by
  simp only [sliceForm, length_take_sliceLen]
  by_cases h0 : value = 0
  · -- Zero is written apart, as what the header of no bytes is.
    subst h0
    have hword : signedWord256 0 = .ok (FixedBytes.zero 32) := rfl
    have hform : bigIntHeader (sliceLen (FixedBytes.zero 32))
        (isNegative (FixedBytes.zero 32).bytes) ::
          (FixedBytes.zero 32).bytes.take (sliceLen (FixedBytes.zero 32)) = [0] := by
      decide +kernel
    rw [hword]
    constructor
    · intro h
      exact ⟨_, rfl, (Except.ok.inj h).symm.trans hform.symm⟩
    · rintro ⟨word, hzero, rfl⟩
      obtain rfl := Except.ok.inj hzero
      rw [hform]
      rfl
  · constructor
    · intro h
      obtain ⟨word, hw⟩ := exists_word_of_writeBigInt h0 h
      exact ⟨word, hw, Except.ok.inj (h.symm.trans (writeBigInt_eq h0 hw))⟩
    · rintro ⟨word, hw, rfl⟩
      exact writeBigInt_eq h0 hw

theorem exists_writeBigInt_iff {value : ℤ} :
    (∃ enc, writeBigInt value = .ok enc) ↔ -(2 ^ 255) ≤ value ∧ value < 2 ^ 256 := by
  constructor
  · rintro ⟨enc, h⟩
    obtain ⟨word, hw, -⟩ := writeBigInt_eq_ok_iff.1 h
    exact (signedWord256_eq_ok.1 hw).1
  · intro h
    have hw : signedWord256 value = .ok ⟨_, length_toLE 32 _⟩ := signedWord256_eq_ok.2 ⟨h, rfl⟩
    exact ⟨_, writeBigInt_eq_ok_iff.2 ⟨_, hw, rfl⟩⟩

/-! ## What is read -/

theorem yields_readBigInt : readBigInt.Yields fun value used =>
    ∃ slice word, SliceOf slice word ∧ value = signedWordToBigInt word ∧
      used = sliceForm slice word := by
  refine yields_read1.bind fun header used hused =>
    (IntX.yields_readBigIntWithHeader header).mono fun value slice h => ?_
  obtain ⟨word, hvalue, hlength, happend, hheader⟩ := h
  exact ⟨slice, word, ⟨hlength, happend⟩, hvalue, by rw [hused, sliceForm, ← hheader]; rfl⟩

/-- A slice of a word, under its header, is read as the integer in the word. -/
theorem reads_sliceForm {slice : Bytes} {word : Bytes32} (h : SliceOf slice word) :
    readBigInt.Reads (sliceForm slice word) (signedWordToBigInt word) := by
  refine (reads_read1 _).bind ?_
  by_cases h0 : 0 < slice.length ∨ isNegative word.bytes = true
  · exact reads_readBigIntWithHeader h.length_le h.append_eq rfl h0
  · -- Only zero has a slice of no bytes that is not negative.
    push Not at h0
    obtain ⟨hnil, hsign⟩ := h0
    obtain rfl := List.length_eq_zero_iff.1 (Nat.le_zero.1 hnil)
    have hword := h.append_eq
    replace hsign := Bool.eq_false_of_not_eq_true hsign
    rw [hsign] at hword ⊢
    obtain rfl : word = FixedBytes.zero 32 := FixedBytes.ext hword.symm
    exact (reads_pure 0).congr rfl (by decide +kernel)

/-- What is read as an integer is a slice of its word. -/
theorem run_readBigInt_eq_ok_iff {input : Bytes} {value : ℤ} {rest : Bytes} :
    readBigInt.run input = .ok (value, rest) ↔ ∃ slice word, SliceOf slice word ∧
      value = signedWordToBigInt word ∧ input = sliceForm slice word ++ rest := by
  constructor
  · intro h
    obtain ⟨used, hused, slice, word, hslice, hvalue, rfl⟩ := yields_readBigInt _ _ _ h
    exact ⟨slice, word, hslice, hvalue, hused⟩
  · rintro ⟨slice, word, hslice, rfl, rfl⟩
    exact reads_sliceForm hslice rest

/-! ## The shortest form -/

/-- The form is read whole as the integer, and is shorter than all others that are. -/
structure ShortestForm (enc : Bytes) (value : ℤ) : Prop where
  reads : readBigInt.Reads enc value
  shortest : ∀ other, readBigInt.run other = .ok (value, []) →
    other = enc ∨ enc.length < other.length

theorem shortestForm_take (word : Bytes32) :
    ShortestForm (sliceForm (word.bytes.take (sliceLen word)) word) (signedWordToBigInt word) := by
  refine ⟨reads_sliceForm (SliceOf.take word), fun other hother => ?_⟩
  obtain ⟨slice, word', hslice, hvalue, rfl⟩ := run_readBigInt_eq_ok_iff.1 hother
  -- Another form of the integer is one of the same word.
  obtain rfl := signedWordToBigInt_injective hvalue
  rw [List.append_nil]
  have hlength := length_take_sliceLen word
  rcases hslice.sliceLen_le.eq_or_lt with heq | hlt
  · exact .inl (by rw [heq, ← hslice.eq_take])
  · refine .inr ?_
    rw [sliceForm, sliceForm, List.length_cons, List.length_cons, hlength]
    omega

/-- An integer is written iff a word holds it, signed or unsigned. It is read back as the
    signed integer of the word, of which what is written is the shortest form. -/
theorem writeBigInt_compact (value : ℤ) :
    ((∃ enc, writeBigInt value = .ok enc) ↔ -(2 ^ 255) ≤ value ∧ value < 2 ^ 256) ∧
      ∀ enc, writeBigInt value = .ok enc → ∃ r : ℤ, -(2 ^ 255) ≤ r ∧ r < 2 ^ 255 ∧
        r ≡ value [ZMOD 2 ^ 256] ∧
        (∀ suffix, readBigInt.run (enc ++ suffix) = .ok (r, suffix)) ∧
        ∀ other, readBigInt.run other = .ok (r, []) → other = enc ∨ enc.length < other.length := by
  refine ⟨exists_writeBigInt_iff, fun enc h => ?_⟩
  obtain ⟨word, hw, rfl⟩ := writeBigInt_eq_ok_iff.1 h
  obtain ⟨hreads, hshortest⟩ := shortestForm_take word
  rw [signedWordToBigInt_of_eq_ok hw] at hreads hshortest
  have hlo : -(2 ^ 255) ≤ value.bmod (2 ^ 256) := Int.le_bmod (by norm_num)
  have hhi : value.bmod (2 ^ 256) < 2 ^ 255 := Int.bmod_lt (by norm_num)
  exact ⟨value.bmod (2 ^ 256), hlo, hhi, IntX.bmod_modEq value, hreads, hshortest⟩

end PhantasmaSdk
