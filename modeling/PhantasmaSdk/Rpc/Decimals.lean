import PhantasmaSdk.Codec.Decimal
import PhantasmaSdk.Text

/-!
# Amounts as decimals

An amount is given by the node as the text of an integer, in units of a power of ten. It is
shown as the canonical decimal (`convertDecimals_exact`), by cutting the text before the last
digits. What is given is not checked to be digits, and is cut by bytes
(`decimalAmounts_shown_iff`).
-/

namespace PhantasmaSdk

open Codec
open String (utf8Len)

/-- The digits of an amount, without its signs and the zeros before the others. -/
def trimmedDigits (amount : String) : List Char :=
  let digits := (amount.toList.dropWhile (· = '-')).dropWhile (· = '0')
  if digits = [] then ['0'] else digits

/-- The digits of an amount, at least one of which is before the last `decimals`. -/
def paddedDigits (amount : String) (decimals : ℕ) : List Char :=
  let digits := trimmedDigits amount
  if utf8Len digits ≤ decimals then
    List.replicate (decimals + 1 - utf8Len digits) '0' ++ digits
  else digits

/-- An amount of units of which ten to the `decimals` make one. (As many zeros as `decimals` are
    taken to fit in memory.) -/
def convertDecimals (amount : String) (decimals : UInt32) : Result String :=
  if decimals = 0 then pure amount
  else
    let negative := amount.toList.head? = some '-'
    let digits := paddedDigits amount decimals.toNat
    let split := utf8Len digits - decimals.toNat
    match splitAtByte split digits with
    | none => .error (.panic (.expect s!"byte index {split} is not a char boundary"))
    | some (whole, rest) =>
      let fractional := rest.rdropWhile (· = '0')
      let value := if fractional = [] then whole else whole ++ '.' :: fractional
      if negative ∧ value ≠ ['0'] then pure (String.ofList ('-' :: value))
      else pure (String.ofList value)

structure BalanceResult where
  amount : String
  decimals : UInt32

def BalanceResult.decimalAmount (balance : BalanceResult) : Result String :=
  convertDecimals balance.amount balance.decimals

structure StakeResult where
  amount : String

def StakeResult.decimalAmount (stake : StakeResult) : Result String :=
  convertDecimals stake.amount 8

/-! ## Cutting -/

variable {amount : String} {decimals : ℕ}

/-- The digits are cut between characters: before as many bytes as there are decimals, where there
    are more. -/
def CutsWhole (amount : String) (decimals : ℕ) : Prop :=
  utf8Len (trimmedDigits amount) ≤ decimals ∨
    ∃ last, last <:+ trimmedDigits amount ∧ utf8Len last = decimals

theorem utf8Len_zeros (n : ℕ) : utf8Len (List.replicate n '0') = n := by
  rw [utf8Len_of_ascii fun c hc => List.eq_of_mem_replicate hc ▸ by decide, List.length_replicate]

theorem paddedDigits_of_le (h : utf8Len (trimmedDigits amount) ≤ decimals) :
    paddedDigits amount decimals =
      ['0'] ++ (List.replicate (decimals - utf8Len (trimmedDigits amount)) '0' ++
        trimmedDigits amount) := by
  rw [paddedDigits]
  simp only [if_pos h]
  rw [Nat.succ_sub h, List.replicate_succ]
  rfl

theorem utf8Len_paddedDigits_of_le (h : utf8Len (trimmedDigits amount) ≤ decimals) :
    utf8Len (paddedDigits amount decimals) = decimals + 1 := by
  rw [paddedDigits_of_le h, String.utf8Len_append, String.utf8Len_append, utf8Len_zeros,
    Nat.sub_add_cancel h, Nat.add_comm]
  rfl

theorem paddedDigits_of_lt (h : decimals < utf8Len (trimmedDigits amount)) :
    paddedDigits amount decimals = trimmedDigits amount := by
  rw [paddedDigits]
  simp only [if_neg (not_le.2 h)]

theorem exists_splitAtByte_iff (amount : String) (decimals : ℕ) :
    (∃ whole rest, splitAtByte (utf8Len (paddedDigits amount decimals) - decimals)
      (paddedDigits amount decimals) = some (whole, rest)) ↔ CutsWhole amount decimals := by
  simp only [splitAtByte_eq_some]
  by_cases hle : utf8Len (trimmedDigits amount) ≤ decimals
  · refine iff_of_true ⟨['0'], _, paddedDigits_of_le hle, ?_⟩ (Or.inl hle)
    rw [utf8Len_paddedDigits_of_le hle, Nat.add_sub_cancel_left]
    rfl
  · rw [paddedDigits_of_lt (not_le.1 hle), CutsWhole, or_iff_right hle]
    constructor
    · rintro ⟨whole, rest, hcut, hlen⟩
      refine ⟨rest, ⟨whole, hcut.symm⟩, ?_⟩
      rw [hcut, String.utf8Len_append] at hlen hle
      omega
    · rintro ⟨last, ⟨whole, hcut⟩, hlen⟩
      refine ⟨whole, last, hcut.symm, ?_⟩
      rw [← hcut, String.utf8Len_append]
      omega

theorem exists_convertDecimals_iff (amount : String) (decimals : UInt32) :
    (∃ result, convertDecimals amount decimals = .ok result) ↔
      CutsWhole amount decimals.toNat := by
  rw [convertDecimals]
  split
  next h =>
    refine iff_of_true ⟨_, rfl⟩ (Or.inr ⟨[], List.nil_suffix, ?_⟩)
    rw [h]
    rfl
  next h =>
    rw [← exists_splitAtByte_iff]
    simp only
    split
    next hcut =>
      refine iff_of_false nofun ?_
      rintro ⟨whole, rest, hsome⟩
      cases hcut.symm.trans hsome
    next whole rest hcut =>
      refine iff_of_true ?_ ⟨whole, rest, hcut⟩
      split <;> split <;> exact ⟨_, rfl⟩

/-- An amount is shown unless the cut before as many bytes of its digits as it has decimals is
    within a character, which panics. -/
theorem decimalAmounts_shown_iff (amount : String) (decimals : UInt32) :
    ((∃ result, convertDecimals amount decimals = .ok result) ↔
      CutsWhole amount decimals.toNat) ∧
    ((∃ result, (⟨amount, decimals⟩ : BalanceResult).decimalAmount = .ok result) ↔
      CutsWhole amount decimals.toNat) ∧
    ((∃ result, (⟨amount⟩ : StakeResult).decimalAmount = .ok result) ↔ CutsWhole amount 8) :=
  ⟨exists_convertDecimals_iff amount decimals, exists_convertDecimals_iff amount decimals,
    exists_convertDecimals_iff amount 8⟩

/-- `é` takes two bytes, of which one decimal is the last. -/
theorem not_decimalAmounts_shown : ¬∀ (amount : String) (decimals : UInt32),
    ∃ result, convertDecimals amount decimals = .ok result := by
  intro h
  have hpanic : convertDecimals "é" 1 =
      .error (.panic (.expect "byte index 1 is not a char boundary")) := rfl
  obtain ⟨result, hok⟩ := h "é" 1
  cases hpanic.symm.trans hok

/-! ## Showing -/

variable {n : ℤ}

/-- The sign and the digits of an integer. -/
theorem trimmedDigits_of_isIntegerText (h : IsIntegerText amount.toList n) :
    Digits (trimmedDigits amount) ∧ NoLeadingZero (trimmedDigits amount) ∧
      n = if amount.toList.head? = some '-' then -(digitsValue (trimmedDigits amount) : ℤ)
        else digitsValue (trimmedDigits amount) := by
  obtain ⟨digits, hne, hdigits, htext⟩ := h
  obtain ⟨c, cs, rfl⟩ := List.exists_cons_of_ne_nil hne
  have hminus : c ≠ '-' := by
    rintro rfl
    exact absurd (hdigits _ List.mem_cons_self) (by decide)
  -- Only the sign is trimmed before the zeros.
  have hstop : (c :: cs).dropWhile (· = '-') = c :: cs :=
    List.dropWhile_cons_of_neg (by simpa using hminus)
  have htrimmed : (amount.toList.dropWhile (· = '-')) = c :: cs ∧
      (n = if amount.toList.head? = some '-' then -(digitsValue (c :: cs) : ℤ)
        else digitsValue (c :: cs)) := by
    rcases htext with ⟨htext, hn⟩ | ⟨htext, hn⟩
    · rw [htext, hstop, List.head?_cons, if_neg fun h => hminus (Option.some.inj h)]
      exact ⟨rfl, hn⟩
    · rw [htext, List.dropWhile_cons_of_pos (by decide), hstop, List.head?_cons, if_pos rfl]
      exact ⟨rfl, hn⟩
  have hvalue := digitsValue_dropWhile (c :: cs)
  have hdropped : Digits ((c :: cs).dropWhile (· = '0')) := fun d hd =>
    hdigits d ((List.dropWhile_suffix _).subset hd)
  have hhead := List.head?_dropWhile_not (fun c : Char => decide (c = '0')) (c :: cs)
  rw [trimmedDigits, htrimmed.1, htrimmed.2]
  split
  next hnil =>
    rw [hnil] at hvalue
    rw [← hvalue]
    exact ⟨by decide, Or.inl rfl, rfl⟩
  next hnil =>
    rw [hvalue]
    refine ⟨hdropped, Or.inr ⟨hnil, fun hzero => ?_⟩, rfl⟩
    rw [hzero] at hhead
    exact absurd hhead (by decide)

theorem toNat_lt_of_digits {cs : List Char} (h : Digits cs) : ∀ c ∈ cs, c.toNat < 128 :=
  fun c hc => (toNat_of_isDigit (h c hc)).2.trans_lt (by norm_num)

/-- The digits of an integer are cut into a whole part and as many others as there are decimals. -/
theorem exists_paddedDigits_eq (hd : Digits (trimmedDigits amount))
    (hz : NoLeadingZero (trimmedDigits amount)) (decimals : ℕ) :
    ∃ whole rest, paddedDigits amount decimals = whole ++ rest ∧ rest.length = decimals ∧
      NoLeadingZero whole ∧ Digits (whole ++ rest) ∧
        digitsValue (whole ++ rest) = digitsValue (trimmedDigits amount) := by
  have hlen := utf8Len_of_ascii (toNat_lt_of_digits hd)
  by_cases hle : utf8Len (trimmedDigits amount) ≤ decimals
  · refine ⟨['0'], _, paddedDigits_of_le hle, ?_, Or.inl rfl, ?_, ?_⟩
    · rw [List.length_append, List.length_replicate]
      omega
    · exact digits_append.2 ⟨digits_replicate_zero 1,
        digits_append.2 ⟨digits_replicate_zero _, hd⟩⟩
    · exact (digitsValue_zeros_append 1 _).trans (digitsValue_zeros_append _ _)
  · -- There is a digit before the cut, the first of all.
    rw [paddedDigits_of_lt (not_le.1 hle)]
    rw [hlen] at hle
    generalize trimmedDigits amount = digits at hd hz hlen hle
    have hcut := List.take_append_drop (digits.length - decimals) digits
    refine ⟨_, _, hcut.symm, ?_, ?_, hcut.symm ▸ hd, congrArg digitsValue hcut⟩
    · rw [List.length_drop]
      omega
    · obtain ⟨k, hk⟩ := Nat.exists_eq_succ_of_ne_zero (show digits.length - decimals ≠ 0 by omega)
      rw [hk]
      rcases hz with rfl | ⟨hne, hhead⟩
      · exact Or.inl (by rw [List.take_succ_cons, List.take_nil])
      · obtain ⟨c, cs, rfl⟩ := List.exists_cons_of_ne_nil hne
        exact Or.inr ⟨List.cons_ne_nil _ _, hhead⟩

/-- What is shown of an integer: its sign, unless what follows is a zero, and a whole part and a
    fraction that are those of a canonical decimal. -/
theorem exists_convertDecimals_eq (h : IsIntegerText amount.toList n) {decimals : UInt32}
    (hzero : decimals ≠ 0) : ∃ whole fractional : List Char,
      (∀ negative : Bool, (negative → ¬(whole = ['0'] ∧ fractional = [])) →
        (⟨negative, whole, fractional⟩ : Decimal).Canonical) ∧
      (∀ negative : Bool, (⟨negative, whole, fractional⟩ : Decimal).magnitude =
        digitsValue (trimmedDigits amount) / 10 ^ decimals.toNat) ∧
      convertDecimals amount decimals =
        if amount.toList.head? = some '-' ∧ (⟨false, whole, fractional⟩ : Decimal).text ≠ ['0'] then
          pure (String.ofList ('-' :: (⟨false, whole, fractional⟩ : Decimal).text))
        else pure (String.ofList (⟨false, whole, fractional⟩ : Decimal).text) := by
  obtain ⟨hd, hz, -⟩ := trimmedDigits_of_isIntegerText h
  obtain ⟨whole, rest, hpadded, hlen, hwhole, hdigits, hvalue⟩ :=
    exists_paddedDigits_eq hd hz decimals.toNat
  obtain ⟨k, hzeros⟩ := exists_append_zeros rest
  have hrest := (digits_append.1 hdigits).2
  refine ⟨whole, rest.rdropWhile (· = '0'), fun negative hsigned => ?_, fun negative => ?_, ?_⟩
  · have hfraction : Digits (rest.rdropWhile (· = '0')) := by
      rw [hzeros] at hrest
      exact (digits_append.1 hrest).1
    exact ⟨(digits_append.1 hdigits).1, hfraction, hwhole, getLast?_rdropWhile_ne rest, hsigned⟩
  · rw [Decimal.magnitude_of_zeros hzeros, hvalue, hlen]
  · have hsplit : splitAtByte (utf8Len (paddedDigits amount decimals.toNat) - decimals.toNat)
        (paddedDigits amount decimals.toNat) = some (whole, rest) := by
      refine splitAtByte_eq_some.2 ⟨hpadded, ?_⟩
      rw [hpadded, String.utf8Len_append, utf8Len_of_ascii (toNat_lt_of_digits hrest), hlen,
        Nat.add_sub_cancel]
    have htext : (if rest.rdropWhile (· = '0') = [] then whole
        else whole ++ '.' :: rest.rdropWhile (· = '0')) =
          (⟨false, whole, rest.rdropWhile (· = '0')⟩ : Decimal).text := by
      rw [Decimal.text]
      split <;> simp
    rw [convertDecimals, if_neg hzero]
    simp only [hsplit, htext]

/-- An integer is shown as the canonical decimal of its part by the power of ten, and as it is
    given where there are no decimals. -/
theorem convertDecimals_exact (amount : String) (n : ℤ) (decimals : UInt32)
    (h : IsIntegerText amount.toList n) :
    ∃ result, convertDecimals amount decimals = .ok result ∧
      (decimals = 0 → IsIntegerText result.toList n) ∧
      (decimals ≠ 0 → ∃ x : Decimal, x.Canonical ∧ x.value = n / 10 ^ decimals.toNat ∧
        result.toList = x.text ∧ ∀ y : Decimal, y.Canonical → y.value = x.value → y = x) := by
  by_cases hzero : decimals = 0
  · exact ⟨amount, if_pos hzero, fun _ => h, fun hne => absurd hzero hne⟩
  · obtain ⟨-, -, hn⟩ := trimmedDigits_of_isIntegerText h
    obtain ⟨whole, fractional, hcanonical, hmagnitude, hresult⟩ :=
      exists_convertDecimals_eq h hzero
    rw [hresult]
    split
    next hneg =>
      have hx := hcanonical true fun _ hboth => hneg.2 (by rw [hboth.1, hboth.2]; rfl)
      refine ⟨_, rfl, fun h => absurd h hzero, fun _ =>
        ⟨_, hx, ?_, String.toList_ofList, fun y hy hv => hy.eq_of_value_eq hx hv⟩⟩
      rw [Decimal.value, hmagnitude, hn, if_pos hneg.1, if_pos rfl]
      push_cast
      rw [neg_div]
    next hneg =>
      have hx := hcanonical false (by rintro ⟨⟩)
      refine ⟨_, rfl, fun h => absurd h hzero, fun _ =>
        ⟨_, hx, ?_, String.toList_ofList, fun y hy hv => hy.eq_of_value_eq hx hv⟩⟩
      rw [Decimal.value, hmagnitude, hn, if_neg Bool.false_ne_true]
      split
      next hminus =>
        -- The sign is left out of a zero.
        have hne : whole ≠ [] := hx.noLeadingZero.ne_nil
        obtain ⟨hw, hf⟩ := Decimal.text_eq_zero hne (not_not.1 fun h => hneg ⟨hminus, h⟩)
        have hm := hmagnitude false
        rw [hw, hf] at hm
        have hm0 : (0 : ℚ) = digitsValue (trimmedDigits amount) / 10 ^ decimals.toNat := by
          rw [← hm, Decimal.magnitude]
          simp [show digitsValue ['0'] = 0 from rfl]
        push_cast
        rw [neg_div, ← hm0, neg_zero]
      next => push_cast; rfl

theorem convertDecimals_exact_fraction :
    ∃ result, convertDecimals "-007" 2 = .ok result ∧
      ((2 : UInt32) = 0 → IsIntegerText result.toList (-7)) ∧
      ((2 : UInt32) ≠ 0 → ∃ x : Decimal, x.Canonical ∧ x.value = (-7 : ℤ) / 10 ^ (2 : UInt32).toNat ∧
        result.toList = x.text ∧ ∀ y : Decimal, y.Canonical → y.value = x.value → y = x) :=
  convertDecimals_exact "-007" (-7) 2 ⟨['0', '0', '7'], by decide, by decide, Or.inr ⟨rfl, rfl⟩⟩

example : convertDecimals "-007" 2 = .ok "-0.07" := by decide +kernel

end PhantasmaSdk
