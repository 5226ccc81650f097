import Mathlib.Data.String.Basic
import PhantasmaSdk.Basic

/-!
# Text

The functions on text that the builders of tokens and of metadata use: trimming, comparing
without regard to the case of ASCII letters, and decoding hexadecimal digits. Texts are cut
by bytes, of which a character outside ASCII takes more than one.
-/

namespace PhantasmaSdk

/-- The characters with the property `White_Space`. -/
def isWhitespace (c : Char) : Bool :=
  let n := c.toNat
  (9 ≤ n && n ≤ 13) || n == 32 || n == 0x85 || n == 0xA0 || n == 0x1680 ||
    (0x2000 ≤ n && n ≤ 0x200A) || n == 0x2028 || n == 0x2029 || n == 0x202F || n == 0x205F ||
    n == 0x3000

/-- The text without white space at its ends. -/
def trim (text : String) : String :=
  String.ofList (((text.toList.dropWhile isWhitespace).reverse.dropWhile isWhitespace).reverse)

def eqIgnoreAsciiCase (a b : String) : Bool :=
  a.toList.map Char.toLower == b.toList.map Char.toLower

/-- The value of a hexadecimal digit. -/
def hexDigit (b : UInt8) : Option UInt8 :=
  if 48 ≤ b ∧ b ≤ 57 then some (b - 48)
  else if 97 ≤ b ∧ b ≤ 102 then some (b - 87)
  else if 65 ≤ b ∧ b ≤ 70 then some (b - 55)
  else none

/-- The bytes whose hexadecimal digits are given, two for each. -/
def hexDecode : Bytes → Option Bytes
  | [] => some []
  | high :: low :: digits => do
    let h ← hexDigit high
    let l ← hexDigit low
    let raw ← hexDecode digits
    pure ((h <<< 4 ||| l) :: raw)
  | [_] => none

/-! ## The bytes of characters -/

open String (utf8Len)

theorem length_utf8 (text : String) : (utf8 text).length = utf8Len text.toList := by
  rw [utf8, Array.length_toList, ByteArray.size_data, String.size_toByteArray,
    ← String.utf8ByteSize_ofList, String.ofList_toList]

theorem utf8Size_eq_one_iff {c : Char} : c.utf8Size = 1 ↔ c.toNat < 128 := by
  rw [Char.utf8Size_eq_one_iff, UInt32.le_iff_toNat_le]
  exact Nat.lt_succ_iff.symm

/-- Characters of ASCII take a byte each. -/
theorem utf8Len_of_ascii {cs : List Char} (h : ∀ c ∈ cs, c.toNat < 128) :
    utf8Len cs = cs.length := by
  induction cs with
  | nil => rfl
  | cons c cs ih =>
    obtain ⟨hc, hcs⟩ := List.forall_mem_cons.1 h
    rw [String.utf8Len_cons, ih hcs, utf8Size_eq_one_iff.2 hc, List.length_cons]

/-- The characters before and after a byte, unless it is within a character or after the end. -/
def splitAtByte : ℕ → List Char → Option (List Char × List Char)
  | 0, cs => some ([], cs)
  | _ + 1, [] => none
  | n + 1, c :: cs =>
    if c.utf8Size ≤ n + 1 then
      (splitAtByte (n + 1 - c.utf8Size) cs).map fun (front, back) => (c :: front, back)
    else none

theorem splitAtByte_eq_some {n : ℕ} {cs front back : List Char} :
    splitAtByte n cs = some (front, back) ↔ cs = front ++ back ∧ utf8Len front = n := by
  induction cs generalizing n front with
  | nil =>
    cases n with
    | zero =>
      rw [splitAtByte, Option.some.injEq, Prod.mk.injEq]
      constructor
      · rintro ⟨rfl, rfl⟩
        exact ⟨rfl, rfl⟩
      · rintro ⟨h, -⟩
        obtain ⟨rfl, rfl⟩ := List.append_eq_nil_iff.1 h.symm
        exact ⟨rfl, rfl⟩
    | succ n =>
      refine iff_of_false nofun ?_
      rintro ⟨h, hn⟩
      obtain ⟨rfl, rfl⟩ := List.append_eq_nil_iff.1 h.symm
      cases hn
  | cons c cs ih =>
    have hpos := c.utf8Size_pos
    cases n with
    | zero =>
      rw [splitAtByte, Option.some.injEq, Prod.mk.injEq]
      constructor
      · rintro ⟨rfl, rfl⟩
        exact ⟨rfl, rfl⟩
      · rintro ⟨h, hn⟩
        cases front with
        | nil => exact ⟨rfl, h⟩
        | cons d front =>
          have hd := d.utf8Size_pos
          rw [String.utf8Len_cons] at hn
          omega
    | succ n =>
      rw [splitAtByte]
      constructor
      · intro h
        split at h
        next hle =>
          obtain ⟨⟨front', back'⟩, hsplit, h⟩ := Option.map_eq_some_iff.1 h
          obtain ⟨rfl, rfl⟩ := Prod.mk.inj h
          obtain ⟨rfl, hn⟩ := ih.1 hsplit
          refine ⟨rfl, ?_⟩
          rw [String.utf8Len_cons, hn]
          omega
        next => cases h
      · rintro ⟨h, hn⟩
        cases front with
        | nil => cases hn
        | cons d front =>
          obtain ⟨rfl, rfl⟩ := List.cons.inj h
          rw [String.utf8Len_cons] at hn
          rw [if_pos (by omega), ih.2 ⟨rfl, by omega⟩]
          rfl

end PhantasmaSdk
