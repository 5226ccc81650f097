import Mathlib.Data.List.Basic
import Mathlib.Data.Int.Basic
import Mathlib.Tactic

/-!
# Little-endian bytes

Natural numbers as little-endian bytes of a fixed width (`toLE`, `ofLE`), and
integers as the two's complement of that width (`signedLE`): the bytes of the
integer modulo `256 ^ w`, read back balanced around zero. A two's complement
number may be shortened by dropping the high bytes that repeat its sign
(`stripLen`), and is restored by repeating it (`take_stripLen_append`).
-/

namespace Codec

/-! ## Natural numbers -/

/-- The `w` little-endian bytes of `n`, dropping what does not fit. -/
def toLE : ℕ → ℕ → List UInt8
  | 0, _ => []
  | w + 1, n => UInt8.ofNat n :: toLE w (n / 256)

/-- The number whose little-endian bytes are given. -/
def ofLE : List UInt8 → ℕ
  | [] => 0
  | b :: bs => b.toNat + 256 * ofLE bs

@[simp] theorem length_toLE (w n : ℕ) : (toLE w n).length = w := by
  induction w generalizing n with
  | zero => rfl
  | succ w ih => simp [toLE, ih]

theorem ofLE_lt (bs : List UInt8) : ofLE bs < 256 ^ bs.length := by
  induction bs with
  | nil => simp [ofLE]
  | cons b bs ih =>
    have := b.toNat_lt
    simp only [ofLE, List.length_cons, pow_succ]
    omega

/-- Writing a number and reading it back keeps what fits. -/
theorem ofLE_toLE (w n : ℕ) : ofLE (toLE w n) = n % 256 ^ w := by
  induction w generalizing n with
  | zero => simp [toLE, ofLE, Nat.mod_one]
  | succ w ih =>
    rw [toLE, ofLE, ih, UInt8.toNat_ofNat', pow_succ' 256 w, Nat.mod_mul]

theorem ofLE_toLE_of_lt {w n : ℕ} (h : n < 256 ^ w) : ofLE (toLE w n) = n := by
  rw [ofLE_toLE, Nat.mod_eq_of_lt h]

theorem ofLE_append (bs cs : List UInt8) :
    ofLE (bs ++ cs) = ofLE bs + 256 ^ bs.length * ofLE cs := by
  induction bs with
  | nil => simp [ofLE]
  | cons b bs ih =>
    rw [List.cons_append, ofLE, ofLE, ih, List.length_cons, pow_succ]
    ring

theorem ofLE_injective {bs cs : List UInt8} (hl : bs.length = cs.length) (h : ofLE bs = ofLE cs) :
    bs = cs := by
  induction bs generalizing cs with
  | nil => exact (List.length_eq_zero_iff.1 hl.symm).symm
  | cons b bs ih =>
    obtain ⟨c, cs, rfl⟩ := List.exists_cons_of_length_eq_add_one hl.symm
    simp only [ofLE] at h
    have hb := b.toNat_lt
    have hc := c.toNat_lt
    rw [ih (by simpa using hl) (by omega), UInt8.toNat_inj.1 (by omega : b.toNat = c.toNat)]

/-- Reading bytes and writing them back gives the same bytes. -/
theorem toLE_ofLE {w : ℕ} {bs : List UInt8} (h : bs.length = w) : toLE w (ofLE bs) = bs := by
  subst h
  exact ofLE_injective (by simp) (ofLE_toLE_of_lt (ofLE_lt bs))

@[simp] theorem ofLE_replicate_zero (k : ℕ) : ofLE (List.replicate k 0) = 0 := by
  induction k with
  | zero => rfl
  | succ k ih => simp [List.replicate_succ, ofLE, ih]

theorem ofLE_replicate_max (k : ℕ) : ofLE (List.replicate k 255) + 1 = 256 ^ k := by
  induction k with
  | zero => rfl
  | succ k ih =>
    rw [List.replicate_succ, ofLE, show (255 : UInt8).toNat = 255 from rfl, pow_succ, ← ih]
    ring

/-! ## Two's complement -/

/-- The integer whose two's complement, of their width, the bytes are. -/
def signedLE (bs : List UInt8) : ℤ := (ofLE bs : ℤ).bmod (256 ^ bs.length)

/-- Writing an integer modulo the width and reading it back balanced keeps its
    residue. -/
theorem signedLE_toLE (w : ℕ) (v : ℤ) :
    signedLE (toLE w (v % (256 ^ w : ℕ)).toNat) = v.bmod (256 ^ w) := by
  have hpos : (0 : ℤ) < (256 ^ w : ℕ) := by positivity
  rw [signedLE, length_toLE, ofLE_toLE_of_lt, Int.toNat_of_nonneg (Int.emod_nonneg v hpos.ne'),
    Int.emod_bmod]
  exact (Int.toNat_lt (Int.emod_nonneg v hpos.ne')).2 (Int.emod_lt_of_pos v hpos)

/-- An integer in the balanced range of its width is its own residue. -/
theorem bmod_eq_self {m : ℕ} {v : ℤ} (h₁ : -(m : ℤ) ≤ 2 * v) (h₂ : 2 * v < m) :
    v.bmod m = v := by
  rw [Int.bmod_eq_iff (by omega), sub_self]
  exact ⟨by omega, by omega, dvd_zero _⟩

theorem signedLE_of_lt {bs : List UInt8} (h : 2 * ofLE bs < 256 ^ bs.length) :
    signedLE bs = ofLE bs := bmod_eq_self (by omega) (by exact_mod_cast h)

theorem signedLE_of_le {bs : List UInt8} (h : 256 ^ bs.length ≤ 2 * ofLE bs) :
    signedLE bs = ofLE bs - 256 ^ bs.length := by
  have hlt := ofLE_lt bs
  rw [signedLE, ← Int.sub_bmod_right, bmod_eq_self (by omega) (by omega), Nat.cast_pow]
  rfl

/-- The two's complement of the bytes is negative: their top bit is set. -/
def isNegative (bs : List UInt8) : Bool := decide (256 ^ bs.length ≤ 2 * ofLE bs)

theorem signedLE_eq (bs : List UInt8) :
    signedLE bs = ofLE bs - if isNegative bs then 256 ^ bs.length else 0 := by
  by_cases h : 256 ^ bs.length ≤ 2 * ofLE bs
  · rw [signedLE_of_le h, isNegative, decide_eq_true h, if_pos rfl]
  · rw [signedLE_of_lt (by omega), isNegative, decide_eq_false h, if_neg (by simp), sub_zero]

theorem isNegative_iff_signedLE_neg {bs : List UInt8} : isNegative bs = true ↔ signedLE bs < 0 := by
  have hlt : (ofLE bs : ℤ) < 256 ^ bs.length := by exact_mod_cast ofLE_lt bs
  rw [signedLE_eq]
  cases isNegative bs <;> simp [hlt]

/-- The bits of a number, none being zero's. -/
def bitLength (n : ℕ) : ℕ := if n = 0 then 0 else n.log2 + 1

theorem lt_two_pow_bitLength (n : ℕ) : n < 2 ^ bitLength n := by
  rw [bitLength]
  split
  next h => rw [h]; norm_num
  next => exact Nat.lt_log2_self

theorem bitLength_le_iff {n k : ℕ} : bitLength n ≤ k ↔ n < 2 ^ k := by
  rw [bitLength]
  split
  next h => simp [h]
  next h => rw [Nat.succ_le_iff, Nat.log2_lt h]

/-- How many bytes the two's complement of an integer takes, of which the top bit is
    the sign. -/
def signedWidth (v : ℤ) : ℕ := bitLength (if 0 ≤ v then v.toNat else (-v - 1).toNat) / 8 + 1

/-- The two's complement of an integer, in as few bytes as hold it. -/
def toSignedLE (v : ℤ) : List UInt8 := toLE (signedWidth v) (v % (256 ^ signedWidth v : ℕ)).toNat

theorem signedLE_toSignedLE (v : ℤ) : signedLE (toSignedLE v) = v := by
  rw [toSignedLE, signedLE_toLE]
  have hlt := lt_two_pow_bitLength (if 0 ≤ v then v.toNat else (-v - 1).toNat)
  have hpow : 2 * 2 ^ bitLength (if 0 ≤ v then v.toNat else (-v - 1).toNat) ≤
      256 ^ signedWidth v := by
    rw [← pow_succ', show (256 : ℕ) = 2 ^ 8 from rfl, ← pow_mul]
    exact Nat.pow_le_pow_right two_pos (by rw [signedWidth]; omega)
  generalize 2 ^ bitLength (if 0 ≤ v then v.toNat else (-v - 1).toNat) = b at hlt hpow
  apply bmod_eq_self
  · split at hlt <;> omega
  · split at hlt <;> omega

theorem toSignedLE_ne_nil (v : ℤ) : toSignedLE v ≠ [] := by
  rw [← List.length_pos_iff, toSignedLE, length_toLE, signedWidth]
  exact Nat.succ_pos _

/-- No bytes with the same two's complement are fewer. -/
theorem length_toSignedLE_signedLE_le {bs : List UInt8} (h : bs ≠ []) :
    (toSignedLE (signedLE bs)).length ≤ bs.length := by
  have hpos := List.length_pos_iff.2 h
  have hlt := ofLE_lt bs
  have hpow : 256 ^ bs.length = 2 * 2 ^ (8 * bs.length - 1) := by
    rw [← pow_succ', Nat.sub_add_cancel (by omega), show (256 : ℕ) = 2 ^ 8 from rfl, ← pow_mul]
  have hbits : bitLength (if 0 ≤ signedLE bs then (signedLE bs).toNat
      else (-signedLE bs - 1).toNat) ≤ 8 * bs.length - 1 := by
    rw [bitLength_le_iff]
    by_cases hneg : 256 ^ bs.length ≤ 2 * ofLE bs
    · have hcast : ((256 : ℤ) ^ bs.length) = ((256 ^ bs.length : ℕ) : ℤ) := by push_cast; rfl
      rw [signedLE_of_le hneg, hcast, if_neg (by omega)]
      omega
    · rw [signedLE_of_lt (by omega), if_pos (by omega)]
      omega
  rw [toSignedLE, length_toLE, signedWidth]
  omega

theorem and_128_ne_zero_iff (b : UInt8) : b &&& 0x80 ≠ 0 ↔ 128 ≤ b.toNat := by
  have h : ∀ n : Fin 256, UInt8.ofNat n &&& 0x80 ≠ 0 ↔ 128 ≤ (UInt8.ofNat n).toNat := by
    decide +kernel
  simpa using h ⟨b.toNat, b.toNat_lt⟩

/-- The sign is the top bit of the last byte. -/
theorem isNegative_iff_msb {bs : List UInt8} {b : UInt8} (h : bs.getLast? = some b) :
    isNegative bs = true ↔ b &&& 0x80 ≠ 0 := by
  obtain ⟨cs, rfl⟩ := List.getLast?_eq_some_iff.1 h
  have hlt := ofLE_lt cs
  have hb := b.toNat_lt
  rw [and_128_ne_zero_iff, isNegative, decide_eq_true_iff, ofLE_append, List.length_append,
    List.length_singleton, pow_succ, ofLE, ofLE, mul_zero, add_zero]
  constructor
  · intro h
    by_contra hlt'
    have := Nat.mul_le_mul_left (256 ^ cs.length) (by omega : b.toNat ≤ 127)
    omega
  · intro h
    have := Nat.mul_le_mul_left (256 ^ cs.length) h
    omega

/-! ## Repeating the sign -/

/-- The byte a number is filled up with: all ones if it is negative. -/
def fillByte (negative : Bool) : UInt8 := if negative then 0xFF else 0x00

/-- A number filled up with its sign is the number of the bytes before the fill. -/
theorem signedLE_append_fill {bs : List UInt8} {k : ℕ} {negative : Bool}
    (h : isNegative (bs ++ List.replicate k (fillByte negative)) = negative) :
    signedLE (bs ++ List.replicate k (fillByte negative)) =
      ofLE bs - if negative then 256 ^ bs.length else 0 := by
  rw [signedLE_eq, h, ofLE_append, List.length_append, List.length_replicate, pow_add]
  cases negative with
  | false => simp [fillByte]
  | true =>
    have hmax : (ofLE (List.replicate k 255) : ℤ) + 1 = 256 ^ k := by
      exact_mod_cast ofLE_replicate_max k
    simp only [fillByte, ↓reduceIte, Nat.cast_add, Nat.cast_mul, Nat.cast_pow, Nat.cast_ofNat]
    rw [← hmax]
    ring

/-- Filling up at least a byte gives the sign of the fill. -/
theorem isNegative_append_fill (bs : List UInt8) (k : ℕ) (negative : Bool) :
    isNegative (bs ++ List.replicate (k + 1) (fillByte negative)) = negative := by
  rw [Bool.eq_iff_iff, isNegative_iff_msb (b := fillByte negative) (by
    rw [List.replicate_succ', ← List.append_assoc, List.getLast?_concat])]
  cases negative <;> decide

/-- Filling a number up with its own sign keeps it. -/
theorem signedLE_append_sign (bs : List UInt8) (k : ℕ) :
    signedLE (bs ++ List.replicate k (fillByte (isNegative bs))) = signedLE bs := by
  cases k with
  | zero => simp
  | succ k => rw [signedLE_append_fill (isNegative_append_fill bs k _), signedLE_eq]

/-! ## Dropping the sign bytes -/

/-- How many bytes of the first `len` of `word` are left after dropping the ones
    at the end that equal `fill`. -/
def stripLen (word : List UInt8) (fill : UInt8) : ℕ → ℕ
  | 0 => 0
  | len + 1 => if word[len]? = some fill then stripLen word fill len else len + 1

theorem stripLen_le (word : List UInt8) (fill : UInt8) (len : ℕ) :
    stripLen word fill len ≤ len := by
  induction len with
  | zero => rfl
  | succ len ih =>
    rw [stripLen]
    split <;> omega

/-- The bytes dropped are all `fill`. -/
theorem getElem?_of_stripLen_le {word : List UInt8} {fill : UInt8} {n i : ℕ}
    (h₁ : stripLen word fill n ≤ i) (h₂ : i < n) : word[i]? = some fill := by
  induction n with
  | zero => omega
  | succ n ih =>
    rw [stripLen] at h₁
    split at h₁
    next h =>
      rcases Nat.lt_succ_iff_lt_or_eq.1 h₂ with hi | rfl
      · exact ih h₁ hi
      · exact h
    next => omega

/-- Repeating `fill` restores what was dropped. -/
theorem take_stripLen_append (word : List UInt8) (fill : UInt8) :
    word.take (stripLen word fill word.length) ++
      List.replicate (word.length - stripLen word fill word.length) fill = word := by
  have hle := stripLen_le word fill word.length
  refine (congrArg (word.take _ ++ ·) ?_).trans (List.take_append_drop _ word)
  refine (List.ext_getElem? fun i => ?_).symm
  rw [List.getElem?_drop, List.getElem?_replicate]
  split
  next h => exact getElem?_of_stripLen_le (n := word.length) (by omega) (by omega)
  next h => exact List.getElem?_eq_none (by omega)

/-- The last byte kept, if any, is not `fill`. -/
theorem getElem?_stripLen_ne {word : List UInt8} {fill : UInt8} {len n : ℕ}
    (h : stripLen word fill len = n + 1) : word[n]? ≠ some fill := by
  induction len with
  | zero => cases h
  | succ len ih =>
    rw [stripLen] at h
    split at h
    next => exact ih h
    next hne => exact Nat.succ.inj h ▸ hne

/-- What is left of a number after dropping its sign bytes says how large it is. -/
theorem stripLen_le_iff (word : List UInt8) (k : ℕ) :
    stripLen word (fillByte (isNegative word)) word.length ≤ k ↔
      -(256 ^ k) ≤ signedLE word ∧ signedLE word < 256 ^ k := by
  generalize hneg : isNegative word = negative
  set n := stripLen word (fillByte negative) word.length with hn
  have hle : n ≤ word.length := stripLen_le _ _ _
  have hlen : (word.take n).length = n := by simpa using hle
  have hword : word.take n ++ List.replicate (word.length - n) (fillByte negative) = word :=
    take_stripLen_append word _
  have hval : signedLE word = ofLE (word.take n) - if negative then 256 ^ n else 0 := by
    have hsign : isNegative (word.take n ++ List.replicate (word.length - n)
        (fillByte negative)) = negative := by rw [hword, hneg]
    have := signedLE_append_fill hsign
    rwa [hword, hlen] at this
  have hlt : (ofLE (word.take n) : ℤ) < 256 ^ n := by
    have := ofLE_lt (word.take n)
    rw [hlen] at this
    exact_mod_cast this
  constructor
  · intro h
    have hpow : (256 : ℤ) ^ n ≤ 256 ^ k := pow_le_pow_right₀ (by norm_num) h
    rw [hval]
    split <;> constructor <;> omega
  · -- The last byte kept is not a sign byte, hence weighs at least one.
    contrapose!
    intro h
    obtain ⟨m, hm⟩ : ∃ m, n = m + 1 := ⟨n - 1, by omega⟩
    have hne := getElem?_stripLen_ne (hn.symm.trans hm)
    have hmlen : m < word.length := by omega
    rw [List.getElem?_eq_getElem hmlen] at hne
    have htake : ofLE (word.take n) = ofLE (word.take m) + 256 ^ m * word[m].toNat := by
      rw [hm, List.take_add_one, List.getElem?_eq_getElem hmlen, Option.toList_some, ofLE_append,
        List.length_take, min_eq_left hmlen.le, ofLE, ofLE, mul_zero, add_zero]
    have hlt' : (ofLE (word.take m) : ℤ) < 256 ^ m := by
      have := ofLE_lt (word.take m)
      rw [List.length_take, min_eq_left hmlen.le] at this
      exact_mod_cast this
    have hpow : (256 : ℤ) ^ k ≤ 256 ^ m := pow_le_pow_right₀ (by norm_num) (by omega)
    have hpos : (0 : ℤ) < 256 ^ m := by positivity
    have hb := word[m].toNat_lt
    rw [hval, htake, hm, pow_succ]
    push_cast
    cases negative with
    | false =>
      have hb' : (1 : ℤ) ≤ word[m].toNat := by
        have : word[m].toNat ≠ 0 := fun h0 =>
          hne (congrArg some (UInt8.toNat_inj.1 (h0.trans rfl)))
        omega
      have hbyte : (256 : ℤ) ^ m ≤ 256 ^ m * word[m].toNat := le_mul_of_one_le_right hpos.le hb'
      intro _
      simp only [Bool.false_eq_true, ↓reduceIte]
      linarith
    | true =>
      have hb' : (word[m].toNat : ℤ) ≤ 254 := by
        have : word[m].toNat ≠ 255 := fun h0 =>
          hne (congrArg some (UInt8.toNat_inj.1 (h0.trans rfl)))
        omega
      have hbyte : (256 : ℤ) ^ m * word[m].toNat ≤ 256 ^ m * 254 :=
        mul_le_mul_of_nonneg_left hb' hpos.le
      simp only [↓reduceIte]
      intro hcon
      linarith

/-! ## Bits -/

/-- A bit more of a number is the last one, if it is set. -/
theorem bitLength_mod_two_pow_succ (n p : ℕ) :
    bitLength (n % 2 ^ (p + 1)) = if n.testBit p then p + 1 else bitLength (n % 2 ^ p) := by
  have hlt : n % 2 ^ p < 2 ^ p := Nat.mod_lt _ (Nat.two_pow_pos p)
  rw [Nat.testBit_eq_decide_div_mod_eq, Nat.mod_pow_succ]
  rcases Nat.mod_two_eq_zero_or_one (n / 2 ^ p) with hbit | hbit
  · rw [hbit, mul_zero, add_zero, if_neg (by simp)]
  · rw [hbit, mul_one, if_pos (by simp)]
    refine le_antisymm (bitLength_le_iff.2 ?_) (not_lt.1 fun h => ?_)
    · rw [pow_succ]
      omega
    · have := bitLength_le_iff.1 (Nat.le_of_lt_succ h)
      omega

/-- The bits of a number are those of its bytes. -/
theorem testBit_ofLE_append {bs cs : List UInt8} {b : UInt8} {i : ℕ} (hi : i < 8) :
    (ofLE (bs ++ b :: cs)).testBit (8 * bs.length + i) = b.toNat.testBit i := by
  have hlt : ofLE bs < 2 ^ (8 * bs.length) := by
    rw [pow_mul]
    exact ofLE_lt bs
  have hb : b.toNat < 2 ^ 8 := b.toNat_lt
  rw [ofLE_append, ofLE, add_comm, show (256 : ℕ) = 2 ^ 8 from rfl, ← pow_mul,
    Nat.testBit_two_pow_mul_add _ hlt, if_neg (by omega), Nat.add_sub_cancel_left, add_comm,
    Nat.testBit_two_pow_mul_add _ hb, if_pos hi]

end Codec
