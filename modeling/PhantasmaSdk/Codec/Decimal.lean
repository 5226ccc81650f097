import Mathlib.Data.List.DropRight
import Mathlib.Data.Rat.Cast.Order
import Mathlib.Tactic

/-!
# Decimal numbers as they are written

Digits denote a natural number (`digitsValue`), and a sign, a whole part and a fraction a
rational one (`Decimal.value`). A number is written in many ways, but *canonically*, with no
digit to spare and no sign of zero, in one at most (`Decimal.Canonical.eq_of_value_eq`).
-/

namespace Codec

/-! ## Digits -/

/-- The characters are digits. -/
def Digits (cs : List Char) : Prop := ∀ c ∈ cs, c.isDigit

instance (cs : List Char) : Decidable (Digits cs) := List.decidableBAll _ cs

/-- The number the digits denote. -/
def digitsValue (cs : List Char) : ℕ := Nat.ofDigitChars 10 cs 0

variable {cs ds : List Char}

theorem digits_cons {c : Char} : Digits (c :: cs) ↔ c.isDigit ∧ Digits cs := List.forall_mem_cons

theorem digits_append : Digits (cs ++ ds) ↔ Digits cs ∧ Digits ds := List.forall_mem_append

theorem digits_replicate_zero (n : ℕ) : Digits (List.replicate n '0') := fun _ hc =>
  List.eq_of_mem_replicate hc ▸ rfl

@[simp] theorem digitsValue_nil : digitsValue [] = 0 := rfl

theorem digitsValue_append (cs ds : List Char) :
    digitsValue (cs ++ ds) = digitsValue cs * 10 ^ ds.length + digitsValue ds := by
  rw [digitsValue, Nat.ofDigitChars_append, Nat.ofDigitChars_eq_ofDigitChars_zero, Nat.mul_comm]
  rfl

theorem digitsValue_cons (c : Char) (cs : List Char) :
    digitsValue (c :: cs) = (c.toNat - 48) * 10 ^ cs.length + digitsValue cs := by
  have h := digitsValue_append [c] cs
  rwa [List.singleton_append, show digitsValue [c] = c.toNat - 48 by simp [digitsValue,
    Nat.ofDigitChars_cons]] at h

@[simp] theorem digitsValue_replicate_zero (n : ℕ) : digitsValue (List.replicate n '0') = 0 := by
  rw [digitsValue, Nat.ofDigitChars_replicate_zero, Nat.mul_zero]

/-- Zeros before the digits change nothing. -/
theorem digitsValue_zeros_append (n : ℕ) (cs : List Char) :
    digitsValue (List.replicate n '0' ++ cs) = digitsValue cs := by
  rw [digitsValue_append, digitsValue_replicate_zero, Nat.zero_mul, Nat.zero_add]

theorem digitsValue_append_zeros (cs : List Char) (n : ℕ) :
    digitsValue (cs ++ List.replicate n '0') = digitsValue cs * 10 ^ n := by
  rw [digitsValue_append, digitsValue_replicate_zero, List.length_replicate, Nat.add_zero]

theorem digitsValue_dropWhile (cs : List Char) :
    digitsValue (cs.dropWhile (· = '0')) = digitsValue cs := by
  induction cs with
  | nil => rfl
  | cons c cs ih =>
    by_cases hc : c = '0'
    · rw [List.dropWhile_cons_of_pos (by simpa using hc), ih, hc]
      exact (digitsValue_zeros_append 1 cs).symm
    · rw [List.dropWhile_cons_of_neg (by simpa using hc)]

/-- What is dropped of the zeros at the end are zeros. -/
theorem exists_append_zeros (cs : List Char) :
    ∃ n, cs = cs.rdropWhile (· = '0') ++ List.replicate n '0' := by
  refine ⟨(cs.rtakeWhile (· = '0')).length, ?_⟩
  rw [← List.eq_replicate_of_mem fun c hc => by simpa using List.mem_rtakeWhile_imp hc,
    List.rdropWhile_append_rtakeWhile]

theorem getLast?_rdropWhile_ne (cs : List Char) :
    (cs.rdropWhile (· = '0')).getLast? ≠ some '0' := by
  by_cases hne : cs.rdropWhile (· = '0') = []
  · rw [hne]
    exact nofun
  · rw [List.getLast?_eq_some_getLast hne]
    intro h
    exact List.rdropWhile_last_not _ _ hne (by simpa using Option.some.inj h)

theorem toNat_of_isDigit {c : Char} (h : c.isDigit) : 48 ≤ c.toNat ∧ c.toNat ≤ 57 := by
  simp only [Char.isDigit, Bool.and_eq_true, decide_eq_true_eq] at h
  exact ⟨UInt32.le_iff_toNat_le.1 h.1, UInt32.le_iff_toNat_le.1 h.2⟩

/-- A digit other than zero is positive. -/
theorem pos_of_isDigit {c : Char} (h : c.isDigit) (hc : c ≠ '0') : 0 < c.toNat - 48 := by
  have hle := toNat_of_isDigit h
  have hne : c.toNat ≠ '0'.toNat := fun he => hc (Char.toNat_inj.1 he)
  have h48 : '0'.toNat = 48 := rfl
  omega

theorem digitsValue_lt (h : Digits cs) : digitsValue cs < 10 ^ cs.length := by
  induction cs with
  | nil => exact Nat.one_pos
  | cons c cs ih =>
    obtain ⟨hc, hcs⟩ := digits_cons.1 h
    have hle := toNat_of_isDigit hc
    have hlt := ih hcs
    rw [digitsValue_cons, List.length_cons, pow_succ]
    have hmul : (c.toNat - 48) * 10 ^ cs.length ≤ 9 * 10 ^ cs.length :=
      Nat.mul_le_mul_right _ (by omega)
    omega

/-- As many digits of the same value are the same. -/
theorem eq_of_digitsValue_eq (hcs : Digits cs) (hds : Digits ds) (hl : cs.length = ds.length)
    (h : digitsValue cs = digitsValue ds) : cs = ds := by
  induction cs generalizing ds with
  | nil => exact (List.length_eq_zero_iff.1 hl.symm).symm
  | cons c cs ih =>
    cases ds with
    | nil => cases hl
    | cons d ds =>
      obtain ⟨hc, hcs⟩ := digits_cons.1 hcs
      obtain ⟨hd, hds⟩ := digits_cons.1 hds
      have hlen : cs.length = ds.length := Nat.succ.inj hl
      rw [digitsValue_cons, digitsValue_cons, ← hlen] at h
      -- The digits after the first denote the remainders.
      have hlt := digitsValue_lt hcs
      have hlt' := digitsValue_lt hds
      rw [← hlen] at hlt'
      have hvalue := congrArg (· % 10 ^ cs.length) h
      simp only [Nat.mul_add_mod_self_right, Nat.mod_eq_of_lt hlt, Nat.mod_eq_of_lt hlt'] at hvalue
      rw [hvalue, Nat.add_right_cancel_iff] at h
      have hnum : c.toNat - 48 = d.toNat - 48 := Nat.eq_of_mul_eq_mul_right (by positivity) h
      have hcle := toNat_of_isDigit hc
      have hdle := toNat_of_isDigit hd
      have hchar : c = d := Char.toNat_inj.1 (by omega)
      rw [hchar, ih hcs hds hlen hvalue]

/-- Digits without a zero before the others. -/
def NoLeadingZero (cs : List Char) : Prop := cs = ['0'] ∨ cs ≠ [] ∧ cs.head? ≠ some '0'

theorem NoLeadingZero.ne_nil (h : NoLeadingZero cs) : cs ≠ [] := by
  rcases h with rfl | ⟨h, -⟩
  · exact List.cons_ne_nil _ _
  · exact h

/-- Digits of which the first is not zero are of a value of as many digits. -/
theorem pow_le_digitsValue {c : Char} (h : Digits (c :: cs)) (hc : c ≠ '0') :
    10 ^ cs.length ≤ digitsValue (c :: cs) := by
  have hpos := pos_of_isDigit (digits_cons.1 h).1 hc
  rw [digitsValue_cons]
  exact (Nat.le_mul_of_pos_left _ hpos).trans (Nat.le_add_right _ _)

theorem digitsValue_pos {c : Char} (h : Digits (c :: cs)) (hc : c ≠ '0') :
    0 < digitsValue (c :: cs) :=
  lt_of_lt_of_le (by positivity) (pow_le_digitsValue h hc)

/-- Digits without zeros before them are those of their value. -/
theorem NoLeadingZero.eq_of_digitsValue_eq (hcs : Digits cs) (hds : Digits ds)
    (hc : NoLeadingZero cs) (hd : NoLeadingZero ds) (h : digitsValue cs = digitsValue ds) :
    cs = ds := by
  have hzero : digitsValue ['0'] = 0 := rfl
  have hle {xs ys : List Char} (hx : Digits xs) (hy : Digits ys) (hne : xs ≠ [] ∧ xs.head? ≠ some '0')
      (hxy : digitsValue xs = digitsValue ys) : xs.length ≤ ys.length := by
    obtain _ | ⟨c, xs⟩ := xs
    · exact absurd rfl hne.1
    · have hlow := pow_le_digitsValue hx fun hc => hne.2 (hc ▸ rfl)
      have hhigh := digitsValue_lt hy
      rw [hxy] at hlow
      exact (Nat.pow_lt_pow_iff_right (by norm_num : 1 < 10)).1 (hlow.trans_lt hhigh)
  have hpos {xs : List Char} (hx : Digits xs) (hne : xs ≠ [] ∧ xs.head? ≠ some '0') :
      0 < digitsValue xs := by
    obtain _ | ⟨c, xs⟩ := xs
    · exact absurd rfl hne.1
    · exact digitsValue_pos hx fun hc => hne.2 (hc ▸ rfl)
  rcases hc with rfl | hc
  · rcases hd with rfl | hd
    · rfl
    · exact absurd h (hzero ▸ (hpos hds hd).ne)
  · rcases hd with rfl | hd
    · exact absurd h (hzero ▸ (hpos hcs hc).ne')
    · exact Codec.eq_of_digitsValue_eq hcs hds
        (le_antisymm (hle hcs hds hc h) (hle hds hcs hd h.symm)) h

/-! ## Decimal numbers -/

/-- A number as it is written. -/
structure Decimal where
  negative : Bool
  whole : List Char
  fraction : List Char

namespace Decimal

/-- The characters of the number. The point is left out before no fraction. -/
def text (x : Decimal) : List Char :=
  (if x.negative then ['-'] else []) ++ x.whole ++
    if x.fraction = [] then [] else '.' :: x.fraction

theorem text_eq_zero {whole fraction : List Char} (hw : whole ≠ [])
    (h : (⟨false, whole, fraction⟩ : Decimal).text = ['0']) : whole = ['0'] ∧ fraction = [] := by
  rw [text] at h
  simp only [Bool.false_eq_true, if_false, List.nil_append] at h
  split at h
  next hf => exact ⟨by rwa [List.append_nil] at h, hf⟩
  next =>
    obtain ⟨c, cs, rfl⟩ := List.exists_cons_of_ne_nil hw
    simp at h

/-- What the number denotes but for its sign. -/
def magnitude (x : Decimal) : ℚ :=
  digitsValue x.whole + digitsValue x.fraction / 10 ^ x.fraction.length

def value (x : Decimal) : ℚ := if x.negative then -x.magnitude else x.magnitude

/-- No digit to spare, and no sign of zero. -/
structure Canonical (x : Decimal) : Prop where
  whole : Digits x.whole
  fraction : Digits x.fraction
  noLeadingZero : NoLeadingZero x.whole
  noTrailingZero : x.fraction.getLast? ≠ some '0'
  signed : x.negative → ¬(x.whole = ['0'] ∧ x.fraction = [])

variable {x y : Decimal}

theorem magnitude_nonneg (x : Decimal) : 0 ≤ x.magnitude := by
  rw [magnitude]
  positivity

/-- A fraction that does not end in zeros is no multiple of ten. -/
theorem mod_ten_of_getLast? {cs : List Char} (h : Digits cs) (hne : cs ≠ [])
    (hl : cs.getLast? ≠ some '0') : digitsValue cs % 10 ≠ 0 := by
  obtain ⟨cs, c, rfl⟩ : ∃ front c, cs = front ++ [c] :=
    ⟨_, _, (List.dropLast_append_getLast hne).symm⟩
  have hc := (digits_append.1 h).2 c List.mem_cons_self
  have hpos := pos_of_isDigit hc fun hc => hl (by simp [hc])
  have hle := toNat_of_isDigit hc
  rw [digitsValue_append, digitsValue_cons]
  simp only [List.length_singleton, List.length_nil, digitsValue_nil]
  omega

theorem Canonical.magnitude_pos (h : x.Canonical) (hn : x.negative) : 0 < x.magnitude := by
  have hdiv : (0 : ℚ) ≤ digitsValue x.fraction / 10 ^ x.fraction.length := by positivity
  have hwhole : (0 : ℚ) ≤ digitsValue x.whole := by positivity
  rw [magnitude]
  by_cases hf : x.fraction = []
  · rcases h.noLeadingZero with hw | ⟨hne, hhead⟩
    · exact absurd ⟨hw, hf⟩ (h.signed hn)
    · obtain ⟨c, cs, hw⟩ := List.exists_cons_of_ne_nil hne
      have hpos : 0 < digitsValue x.whole := by
        rw [hw] at hhead ⊢
        exact digitsValue_pos (hw ▸ h.whole) fun hc => hhead (hc ▸ rfl)
      have : (0 : ℚ) < digitsValue x.whole := by exact_mod_cast hpos
      linarith
  · have hmod := mod_ten_of_getLast? h.fraction hf h.noTrailingZero
    have hpos : 0 < digitsValue x.fraction := Nat.pos_of_ne_zero fun h => hmod (by rw [h])
    have : (0 : ℚ) < digitsValue x.fraction / 10 ^ x.fraction.length := by positivity
    linarith

/-- The digits of both parts, over the power of ten that the fraction is of. -/
theorem magnitude_eq (x : Decimal) :
    x.magnitude = digitsValue (x.whole ++ x.fraction) / 10 ^ x.fraction.length := by
  rw [magnitude, digitsValue_append]
  push_cast
  rw [add_div, mul_div_cancel_right₀ _ (by positivity)]

/-- Zeros after the fraction change nothing. -/
theorem magnitude_of_zeros {rest : List Char} {n : ℕ}
    (h : rest = x.fraction ++ List.replicate n '0') :
    x.magnitude = digitsValue (x.whole ++ rest) / 10 ^ rest.length := by
  rw [magnitude_eq, h, ← List.append_assoc, digitsValue_append_zeros, List.length_append,
    List.length_replicate, pow_add]
  push_cast
  rw [mul_div_mul_right _ _ (by positivity)]

/-- A fraction that does not end in zeros is no longer than that of the same number. -/
theorem Canonical.length_fraction_le (hy : y.Canonical) (h : x.magnitude = y.magnitude) :
    y.fraction.length ≤ x.fraction.length := by
  by_contra! hlt
  have hne : y.fraction ≠ [] := List.ne_nil_of_length_pos (Nat.zero_lt_of_lt hlt)
  rw [magnitude_eq, magnitude_eq, div_eq_div_iff (by positivity) (by positivity)] at h
  have h' : digitsValue (x.whole ++ x.fraction) * 10 ^ y.fraction.length =
      digitsValue (y.whole ++ y.fraction) * 10 ^ x.fraction.length := by exact_mod_cast h
  -- Over the same power of ten, the longer fraction would be a multiple of ten.
  obtain ⟨k, hk⟩ := Nat.exists_eq_add_of_lt hlt
  rw [hk, show x.fraction.length + k + 1 = k + 1 + x.fraction.length by omega, pow_add,
    ← Nat.mul_assoc, Nat.mul_left_inj (by positivity), digitsValue_append y.whole, hk,
    pow_succ, pow_succ, ← Nat.mul_assoc, ← Nat.mul_assoc] at h'
  have hmod := mod_ten_of_getLast? hy.fraction hne hy.noTrailingZero
  omega

theorem Canonical.eq_of_magnitude_eq (hx : x.Canonical) (hy : y.Canonical)
    (h : x.magnitude = y.magnitude) : x.whole = y.whole ∧ x.fraction = y.fraction := by
  have hlen : x.fraction.length = y.fraction.length :=
    le_antisymm (hx.length_fraction_le h.symm) (hy.length_fraction_le h)
  have hltx := digitsValue_lt hx.fraction
  have hlty := digitsValue_lt hy.fraction
  rw [magnitude_eq, magnitude_eq, ← hlen, div_left_inj' (by positivity)] at h
  have h' : digitsValue (x.whole ++ x.fraction) = digitsValue (y.whole ++ y.fraction) := by
    exact_mod_cast h
  rw [digitsValue_append, digitsValue_append, ← hlen] at h'
  rw [← hlen] at hlty
  have hvalue := congrArg (· % 10 ^ x.fraction.length) h'
  simp only [Nat.mul_add_mod_self_right, Nat.mod_eq_of_lt hltx, Nat.mod_eq_of_lt hlty] at hvalue
  rw [hvalue, Nat.add_right_cancel_iff, Nat.mul_left_inj (by positivity)] at h'
  exact ⟨hx.noLeadingZero.eq_of_digitsValue_eq hx.whole hy.whole hy.noLeadingZero h',
    eq_of_digitsValue_eq hx.fraction hy.fraction hlen hvalue⟩

/-- A number is written canonically in one way at most. -/
theorem Canonical.eq_of_value_eq (hx : x.Canonical) (hy : y.Canonical) (h : x.value = y.value) :
    x = y := by
  have hxnonneg := x.magnitude_nonneg
  have hynonneg := y.magnitude_nonneg
  have hsign : x.negative = y.negative ∧ x.magnitude = y.magnitude := by
    rw [value, value] at h
    split at h
    next hnx =>
      have hpos := hx.magnitude_pos hnx
      split at h
      next hny => exact ⟨hnx.trans hny.symm, by linarith⟩
      next => linarith
    next hnx =>
      split at h
      next hny =>
        have hpos := hy.magnitude_pos hny
        linarith
      next hny => exact ⟨(Bool.eq_false_iff.2 hnx).trans (Bool.eq_false_iff.2 hny).symm, h⟩
  obtain ⟨hwhole, hfraction⟩ := hx.eq_of_magnitude_eq hy hsign.2
  cases x
  cases y
  congr
  exact hsign.1

/-- The whole part ends before the point. -/
theorem takeWhile_ne_point {whole : List Char} (h : Digits whole) (fraction : List Char) :
    (whole ++ if fraction = [] then [] else '.' :: fraction).takeWhile (· ≠ '.') = whole := by
  have hpoint : ∀ c ∈ whole, (decide (c ≠ '.')) = true := by
    intro c hc
    have hdigit := h c hc
    rw [decide_eq_true_eq]
    rintro rfl
    exact absurd hdigit (by decide)
  rw [List.takeWhile_append_of_pos hpoint]
  split
  next => exact List.append_nil _
  next => exact List.append_nil _

theorem Canonical.head?_text (h : x.Canonical) : x.text.head? = some '-' ↔ x.negative := by
  obtain ⟨c, cs, hwhole⟩ := List.exists_cons_of_ne_nil h.noLeadingZero.ne_nil
  have hc := h.whole c (hwhole ▸ List.mem_cons_self)
  rw [text, hwhole]
  cases x.negative with
  | true => exact iff_of_true rfl rfl
  | false =>
    refine iff_of_false (fun hhead => ?_) Bool.false_ne_true
    obtain rfl : c = '-' := Option.some.inj hhead
    exact absurd hc (by decide)

/-- A number is read off its characters. -/
theorem Canonical.eq_of_text_eq (hx : x.Canonical) (hy : y.Canonical) (h : x.text = y.text) :
    x = y := by
  have hnegative : x.negative = y.negative := by
    rw [Bool.eq_iff_iff, ← hx.head?_text, ← hy.head?_text, h]
  rw [text, text, hnegative, List.append_assoc, List.append_assoc] at h
  have hunsigned := List.append_cancel_left h
  have hwhole : x.whole = y.whole := by
    rw [← takeWhile_ne_point hx.whole x.fraction, hunsigned, takeWhile_ne_point hy.whole]
  rw [hwhole] at hunsigned
  have hpoint := List.append_cancel_left hunsigned
  have hfraction : x.fraction = y.fraction := by
    split at hpoint
    next hnil =>
      split at hpoint
      next hnil' => rw [hnil, hnil']
      next => cases hpoint
    next =>
      split at hpoint
      next => cases hpoint
      next => exact (List.cons.inj hpoint).2
  cases x
  cases y
  congr

end Decimal

/-! ## Integers -/

/-- A text of an integer: digits, of which the first may be zeros, after a sign if the integer is
    not positive. -/
def IsIntegerText (text : List Char) (n : ℤ) : Prop :=
  ∃ digits : List Char, digits ≠ [] ∧ Digits digits ∧
    (text = digits ∧ n = digitsValue digits ∨ text = '-' :: digits ∧ n = -digitsValue digits)

end Codec
