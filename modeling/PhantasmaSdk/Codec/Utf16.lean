import Mathlib.Data.List.Basic
import Mathlib.Tactic

/-!
# UTF-16

The code units of characters: one of a character of the basic plane, and a pair of surrogates
of another. They are read back as the characters (`decodeUtf16_encodeUtf16`).
-/

namespace Codec

/-- The code units of a character. -/
def utf16Units (c : Char) : List UInt16 :=
  if c.toNat < 0x10000 then [UInt16.ofNat c.toNat]
  else
    [UInt16.ofNat (0xD800 + (c.toNat - 0x10000) / 0x400),
      UInt16.ofNat (0xDC00 + (c.toNat - 0x10000) % 0x400)]

def encodeUtf16 (cs : List Char) : List UInt16 := cs.flatMap utf16Units

/-- The unit is the first of a pair, and the second. -/
def IsHighSurrogate (unit : UInt16) : Prop := 0xD800 ≤ unit.toNat ∧ unit.toNat < 0xDC00
def IsLowSurrogate (unit : UInt16) : Prop := 0xDC00 ≤ unit.toNat ∧ unit.toNat < 0xE000

instance : DecidablePred IsHighSurrogate := fun _ => inferInstanceAs (Decidable (_ ∧ _))
instance : DecidablePred IsLowSurrogate := fun _ => inferInstanceAs (Decidable (_ ∧ _))

/-- The characters of the units, unless one is a surrogate without the other of its pair. -/
def decodeUtf16 : List UInt16 → Option (List Char)
  | [] => some []
  | [unit] =>
    if IsHighSurrogate unit ∨ IsLowSurrogate unit then none else some [Char.ofNat unit.toNat]
  | unit :: low :: units =>
    if IsHighSurrogate unit then
      if IsLowSurrogate low then
        (decodeUtf16 units).map
          (Char.ofNat (0x10000 + (unit.toNat - 0xD800) * 0x400 + (low.toNat - 0xDC00)) :: ·)
      else none
    else if IsLowSurrogate unit then none
    else (decodeUtf16 (low :: units)).map (Char.ofNat unit.toNat :: ·)

theorem decodeUtf16_cons {unit : UInt16} (units : List UInt16)
    (h : ¬(IsHighSurrogate unit ∨ IsLowSurrogate unit)) :
    decodeUtf16 (unit :: units) = (decodeUtf16 units).map (Char.ofNat unit.toNat :: ·) := by
  rw [not_or] at h
  cases units with
  | nil => exact if_neg (not_or.2 h)
  | cons low units => rw [decodeUtf16, if_neg h.1, if_neg h.2]

/-- No character is a surrogate. -/
theorem toNat_lt_or (c : Char) : c.toNat < 0xD800 ∨ 0xDFFF < c.toNat ∧ c.toNat < 0x110000 := c.valid

theorem decodeUtf16_append (c : Char) (units : List UInt16) :
    decodeUtf16 (utf16Units c ++ units) = (decodeUtf16 units).map (c :: ·) := by
  have hc := toNat_lt_or c
  rw [utf16Units]
  split
  next h =>
    -- A unit that is a character is neither of a pair.
    have hunit : (UInt16.ofNat c.toNat).toNat = c.toNat := UInt16.toNat_ofNat_of_lt' h
    rw [List.singleton_append, decodeUtf16_cons, hunit, Char.ofNat_toNat]
    rw [IsHighSurrogate, IsLowSurrogate, hunit]
    omega
  next h =>
    -- The offset above the basic plane is of 20 bits, ten in each of the pair.
    have hhigh : (UInt16.ofNat (0xD800 + (c.toNat - 0x10000) / 0x400)).toNat =
        0xD800 + (c.toNat - 0x10000) / 0x400 := UInt16.toNat_ofNat_of_lt' (by
      rw [show UInt16.size = 65536 from rfl]
      omega)
    have hlow : (UInt16.ofNat (0xDC00 + (c.toNat - 0x10000) % 0x400)).toNat =
        0xDC00 + (c.toNat - 0x10000) % 0x400 := UInt16.toNat_ofNat_of_lt' (by
      rw [show UInt16.size = 65536 from rfl]
      omega)
    rw [List.cons_append, List.singleton_append, decodeUtf16, if_pos, if_pos, hhigh, hlow]
    · have hsum : 0x10000 + (0xD800 + (c.toNat - 0x10000) / 0x400 - 0xD800) * 0x400 +
          (0xDC00 + (c.toNat - 0x10000) % 0x400 - 0xDC00) = c.toNat := by omega
      rw [hsum, Char.ofNat_toNat]
    · rw [IsLowSurrogate, hlow]
      omega
    · rw [IsHighSurrogate, hhigh]
      omega

/-- The units of characters are read back as the characters. -/
theorem decodeUtf16_encodeUtf16 (cs : List Char) : decodeUtf16 (encodeUtf16 cs) = some cs := by
  induction cs with
  | nil => rfl
  | cons c cs ih => rw [encodeUtf16, List.flatMap_cons, decodeUtf16_append, ← encodeUtf16, ih,
      Option.map_some]

theorem encodeUtf16_eq_nil {cs : List Char} : encodeUtf16 cs = [] ↔ cs = [] := by
  refine ⟨fun h => ?_, fun h => h ▸ rfl⟩
  have hdecode := decodeUtf16_encodeUtf16 cs
  rw [h] at hdecode
  exact (Option.some.inj hdecode).symm

end Codec
