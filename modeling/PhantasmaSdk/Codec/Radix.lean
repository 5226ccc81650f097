import Mathlib.Data.List.GetD
import Mathlib.Data.Nat.Digits.Lemmas
import Mathlib.Tactic

/-!
# Numerals in two bases

A numeral is a list of digits, the highest first. Put into another base it keeps its
value and the number of zeros it begins with (`recode`), and put back it is the same
again (`recode_recode`). So bytes are shown by the digits of an alphabet, and read
back from them (`textOfBytes`, `bytesOfText`).
-/

namespace Codec

/-! ## Numerals -/

def leadingZeros (ds : List ℕ) : ℕ := (ds.takeWhile (· = 0)).length

def numeralValue (b : ℕ) (ds : List ℕ) : ℕ := Nat.ofDigits b ds.reverse

/-- The numeral of a value, after some zeros. -/
def numeral (b zeros n : ℕ) : List ℕ := List.replicate zeros 0 ++ (Nat.digits b n).reverse

def recode (b c : ℕ) (ds : List ℕ) : List ℕ := numeral c (leadingZeros ds) (numeralValue b ds)

variable {b c : ℕ} {ds : List ℕ}

theorem numeralValue_zero_cons (b : ℕ) (ds : List ℕ) :
    numeralValue b (0 :: ds) = numeralValue b ds := by
  rw [numeralValue, List.reverse_cons, Nat.ofDigits_append, Nat.ofDigits_singleton, mul_zero,
    add_zero, numeralValue]

/-- A numeral is given by its value and the zeros it begins with. -/
theorem numeral_leadingZeros (hb : 1 < b) (h : ∀ d ∈ ds, d < b) :
    numeral b (leadingZeros ds) (numeralValue b ds) = ds := by
  induction ds with
  | nil => simp [numeral, leadingZeros, numeralValue]
  | cons d ds ih =>
    obtain ⟨-, hds⟩ := List.forall_mem_cons.1 h
    by_cases hd : d = 0
    · subst hd
      have hzeros : leadingZeros (0 :: ds) = leadingZeros ds + 1 := by
        rw [leadingZeros, List.takeWhile_cons_of_pos (by simp), List.length_cons, leadingZeros]
      rw [hzeros, numeralValue_zero_cons, numeral, List.replicate_succ, List.cons_append]
      exact congrArg _ (ih hds)
    · -- The first digit is the highest one, hence no digit is lost.
      have hzeros : leadingZeros (d :: ds) = 0 := by
        rw [leadingZeros, List.takeWhile_cons_of_neg (by simpa using hd), List.length_nil]
      have hdigits := Nat.digits_ofDigits b hb (d :: ds).reverse
        (fun l hl => h l (List.mem_reverse.1 hl)) (fun hne => by simpa using hd)
      rw [hzeros, numeral, numeralValue, hdigits, List.reverse_reverse, List.replicate_zero,
        List.nil_append]

theorem numeralValue_numeral (b zeros n : ℕ) : numeralValue b (numeral b zeros n) = n := by
  induction zeros with
  | zero => rw [numeral, List.replicate_zero, List.nil_append, numeralValue, List.reverse_reverse,
      Nat.ofDigits_digits]
  | succ zeros ih =>
    rw [numeral, List.replicate_succ, List.cons_append, numeralValue_zero_cons]
    exact ih

theorem leadingZeros_numeral (b zeros n : ℕ) : leadingZeros (numeral b zeros n) = zeros := by
  have hfirst : ((Nat.digits b n).reverse).takeWhile (· = 0) = [] := by
    by_cases hn : n = 0
    · rw [hn, Nat.digits_zero, List.reverse_nil, List.takeWhile_nil]
    · obtain ⟨ds, d, hds⟩ := List.eq_nil_or_concat (Nat.digits b n) |>.resolve_left
        (Nat.digits_ne_nil_iff_ne_zero.2 hn)
      have hlast := Nat.getLast_digit_ne_zero b hn
      simp only [hds, List.concat_eq_append, List.getLast_append_singleton] at hlast
      rw [hds, List.concat_eq_append, List.reverse_append, List.reverse_singleton,
        List.singleton_append, List.takeWhile_cons_of_neg (by simpa using hlast)]
  rw [leadingZeros, numeral, List.takeWhile_append_of_pos fun d hd =>
    decide_eq_true (List.eq_of_mem_replicate hd), hfirst, List.append_nil, List.length_replicate]

theorem lt_of_mem_recode (hc : 1 < c) {d : ℕ} (h : d ∈ recode b c ds) : d < c := by
  obtain h | h := List.mem_append.1 h
  · rw [List.eq_of_mem_replicate h]
    omega
  · exact Nat.digits_lt_base hc (List.mem_reverse.1 h)

/-- Put into another base and back, a numeral is the same again. -/
theorem recode_recode (hb : 1 < b) (h : ∀ d ∈ ds, d < b) : recode c b (recode b c ds) = ds := by
  rw [recode, recode, leadingZeros_numeral, numeralValue_numeral, numeral_leadingZeros hb h]

/-! ## Texts of digits -/

def textOfBytes (alphabet : List Char) (data : List UInt8) : String :=
  String.ofList <| (recode 256 alphabet.length (data.map UInt8.toNat)).map (alphabet.getD · ' ')

/-- The bytes that a text of the alphabet shows. -/
def bytesOfText (alphabet : List Char) (text : String) : Option (List UInt8) :=
  if text.toList.all (· ∈ alphabet) then
    some <| (recode alphabet.length 256 (text.toList.map (alphabet.idxOf ·))).map UInt8.ofNat
  else none

variable {alphabet : List Char}

/-- No digits show no bytes. -/
theorem bytesOfText_empty (alphabet : List Char) : bytesOfText alphabet "" = some [] := by
  simp [bytesOfText, recode, numeral, leadingZeros, numeralValue]

theorem mem_of_mem_textOfBytes (hlength : 1 < alphabet.length) {data : List UInt8} {ch : Char}
    (h : ch ∈ (textOfBytes alphabet data).toList) : ch ∈ alphabet := by
  rw [textOfBytes, String.toList_ofList] at h
  obtain ⟨d, hd, rfl⟩ := List.mem_map.1 h
  have hlt := lt_of_mem_recode hlength hd
  rw [List.getD_eq_getElem _ _ hlt]
  exact List.getElem_mem hlt

theorem map_idxOf_map_getD (hnodup : alphabet.Nodup) {ds : List ℕ}
    (h : ∀ d ∈ ds, d < alphabet.length) :
    (ds.map (alphabet.getD · ' ')).map (alphabet.idxOf ·) = ds := by
  rw [List.map_map]
  refine (List.map_congr_left fun d hd => ?_).trans (List.map_id ds)
  rw [Function.comp_apply, List.getD_eq_getElem _ _ (h d hd)]
  exact hnodup.idxOf_getElem d (h d hd)

/-- Bytes are read back from their text. -/
theorem bytesOfText_textOfBytes (hnodup : alphabet.Nodup) (hlength : 1 < alphabet.length)
    (data : List UInt8) : bytesOfText alphabet (textOfBytes alphabet data) = some data := by
  have hall : (textOfBytes alphabet data).toList.all (· ∈ alphabet) = true :=
    List.all_eq_true.2 fun ch hch => decide_eq_true (mem_of_mem_textOfBytes hlength hch)
  rw [bytesOfText, if_pos hall, textOfBytes, String.toList_ofList,
    map_idxOf_map_getD hnodup fun d => lt_of_mem_recode hlength, recode_recode (by norm_num),
    List.map_map]
  · refine congrArg some ((List.map_congr_left fun b _ => ?_).trans (List.map_id data))
    exact UInt8.ofNat_toNat
  · intro d hd
    obtain ⟨b, -, rfl⟩ := List.mem_map.1 hd
    exact b.toNat_lt

/-- A text is the one of the bytes it shows. -/
theorem textOfBytes_of_bytesOfText (hlength : 1 < alphabet.length) {text : String}
    {data : List UInt8} (h : bytesOfText alphabet text = some data) :
    textOfBytes alphabet data = text := by
  rw [bytesOfText] at h
  split at h
  next hall =>
    obtain rfl := Option.some.inj h
    have hmem (ch : Char) (hch : ch ∈ text.toList) : ch ∈ alphabet :=
      of_decide_eq_true (List.all_eq_true.1 hall ch hch)
    have hbytes : ∀ ds : List ℕ, (∀ d ∈ ds, d < 256) →
        (ds.map UInt8.ofNat).map UInt8.toNat = ds := by
      intro ds hds
      rw [List.map_map]
      exact (List.map_congr_left fun d hd => UInt8.toNat_ofNat_of_lt' (hds d hd)).trans
        (List.map_id ds)
    have hdigits : ∀ d ∈ text.toList.map (alphabet.idxOf ·), d < alphabet.length := by
      intro d hd
      obtain ⟨ch, hch, rfl⟩ := List.mem_map.1 hd
      exact List.idxOf_lt_length_of_mem (hmem ch hch)
    rw [textOfBytes, hbytes _ fun d => lt_of_mem_recode (by norm_num),
      recode_recode hlength hdigits, List.map_map]
    have hchars : text.toList.map ((alphabet.getD · ' ') ∘ (alphabet.idxOf ·)) = text.toList := by
      refine (List.map_congr_left fun ch hch => ?_).trans (List.map_id _)
      have hlt := List.idxOf_lt_length_of_mem (hmem ch hch)
      rw [Function.comp_apply, List.getD_eq_getElem _ _ hlt, List.getElem_idxOf hlt, id]
    rw [hchars, String.ofList_toList]
  next => cases h

end Codec
