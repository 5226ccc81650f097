import PhantasmaSdk.Codec.Decimal
import PhantasmaSdk.Codec.Utf16
import PhantasmaSdk.Vm.Script

/-!
# Casts of VM objects

An object is taken as a number, a text, bytes or a truth value, and cast from one type to
another. Numbers are kept by all the ways there and back (`VMObject.number_casts`). A text is
cast to a struct of its UTF-16 code units by their places, and is read off it again, but for
the empty one: its struct has no units by which it would be taken for a text
(`VMObject.asString_castTo_struct`).
-/

namespace PhantasmaSdk.Vm

open Codec BinaryWriter

/-- The name of the type, as it is shown for debugging. -/
def VMType.debug : VMType → String
  | none => "None"
  | struct => "Struct"
  | bytes => "Bytes"
  | number => "Number"
  | string => "String"
  | timestamp => "Timestamp"
  | bool => "Bool"
  | enum => "Enum"
  | object => "Object"

/-! ## Numbers as text -/

/-- The number of a text of digits, which may begin with a plus and be grouped by underscores. -/
def parseBigUint (cs : List Char) : Result ℕ :=
  let cs := if cs.head? = some '+' ∧ cs.tail.head? ≠ some '+' then cs.tail else cs
  if cs = [] then serialization "cannot parse integer from empty string"
  else if cs.head? = some '_' then serialization "invalid digit found in string"
  else if cs.all fun c => c.isDigit || c = '_' then pure (digitsValue (cs.filter (· ≠ '_')))
  else serialization "invalid digit found in string"

/-- The integer of a text: a number, which may follow a minus. -/
def parseBigInt (text : String) : Result ℤ :=
  let cs := text.toList
  if cs.head? = some '-' then do
    let value ← parseBigUint (if cs.tail.head? ≠ some '+' then cs.tail else cs)
    pure (-(value : ℤ))
  else do
    let value ← parseBigUint cs
    pure (value : ℤ)

theorem parseBigUint_of_digits {cs : List Char} (hne : cs ≠ []) (h : Digits cs) :
    parseBigUint cs = .ok (digitsValue cs) := by
  have hhead {c : Char} (hc : ¬c.isDigit) : cs.head? ≠ some c := fun hhead =>
    hc (h c (List.mem_of_head? hhead))
  have hfilter : cs.filter (· ≠ '_') = cs := List.filter_eq_self.2 fun c hc => by
    have hne : c ≠ '_' := by
      rintro rfl
      exact absurd (h _ hc) (by decide)
    simpa using hne
  have hplus : ¬(cs.head? = some '+' ∧ cs.tail.head? ≠ some '+') := fun h =>
    hhead (by decide) h.1
  have hunderscore : ¬cs.head? = some '_' := hhead (by decide)
  have hall : cs.all fun c => c.isDigit || c = '_' :=
    List.all_eq_true.2 fun c hc => by rw [h c hc, Bool.true_or]
  rw [parseBigUint]
  simp only [if_neg hplus, if_neg hne, if_neg hunderscore, if_pos hall, hfilter]
  rfl

theorem parseBigUint_toDigits (n : ℕ) : parseBigUint (Nat.toDigits 10 n) = .ok n := by
  rw [parseBigUint_of_digits Nat.toDigits_ne_nil fun c hc =>
    Nat.isDigit_of_mem_toDigits (by decide) (by decide) hc, digitsValue,
    Nat.ofDigitChars_ten_toDigits]

/-- The decimal text of an integer is read back. -/
theorem parseBigInt_toString (n : ℤ) : parseBigInt (toString n) = .ok n := by
  have hdigit (n : ℕ) : ∀ c ∈ Nat.toDigits 10 n, c ≠ '-' ∧ c ≠ '+' := by
    intro c hc
    have h := Nat.isDigit_of_mem_toDigits (by decide) (by decide) hc
    constructor <;> rintro rfl <;> exact absurd h (by decide)
  cases n with
  | ofNat n =>
    have htext : (toString (Int.ofNat n)).toList = Nat.toDigits 10 n := Nat.toList_repr
    have hminus : ¬(Nat.toDigits 10 n).head? = some '-' := fun h =>
      (hdigit n _ (List.mem_of_head? h)).1 rfl
    rw [parseBigInt, htext]
    simp only [if_neg hminus, parseBigUint_toDigits]
    rfl
  | negSucc n =>
    have htext : (toString (Int.negSucc n)).toList = '-' :: Nat.toDigits 10 (n + 1) := by
      change ("-" ++ (n + 1).repr).toList = _
      rw [String.toList_append, Nat.toList_repr]
      rfl
    -- A plus after the minus would be left to the number, and refused there.
    have hplus : (Nat.toDigits 10 (n + 1)).head? ≠ some '+' := fun h =>
      (hdigit (n + 1) _ (List.mem_of_head? h)).2 rfl
    have hrun : parseBigInt (toString (Int.negSucc n)) =
        (do let value ← parseBigUint (Nat.toDigits 10 (n + 1)); pure (-(value : ℤ)) : Result ℤ) := by
      rw [parseBigInt, htext]
      refine (if_pos rfl).trans ?_
      rw [List.tail_cons, if_pos hplus]
    rw [hrun, parseBigUint_toDigits]
    rfl

/-! ## Base64 -/

/-- The character of six bits. -/
def base64Char (n : ℕ) : Char :=
  if n < 26 then Char.ofNat (65 + n)
  else if n < 52 then Char.ofNat (71 + n)
  else if n < 62 then Char.ofNat (n - 4)
  else if n = 62 then '+'
  else '/'

/-- Four characters of three bytes, filled up. -/
def base64Encode : Bytes → List Char
  | [] => []
  | [a] => [base64Char (a.toNat / 4), base64Char (a.toNat % 4 * 16), '=', '=']
  | [a, b] =>
    [base64Char (a.toNat / 4), base64Char (a.toNat % 4 * 16 + b.toNat / 16),
      base64Char (b.toNat % 16 * 4), '=']
  | a :: b :: c :: rest =>
    base64Char (a.toNat / 4) :: base64Char (a.toNat % 4 * 16 + b.toNat / 16) ::
      base64Char (b.toNat % 16 * 4 + c.toNat / 64) :: base64Char (c.toNat % 64) ::
        base64Encode rest

namespace VMObject

/-! ## Casts -/

/-- The value of a number as a key. -/
def structGet (items : List (VMObject × VMObject)) (key : ℕ) : Option VMObject :=
  (items.find? fun item =>
    match item.1 with
    | number value => value = key
    | _ => false).map Prod.snd

/-- The type that the values of the keys from 0 on have in common. -/
def arrayTypeOf (items : List (VMObject × VMObject)) (detected : Option VMType) :
    List ℕ → VMType
  | [] => detected.getD .none
  | index :: indices =>
    match structGet items index with
    | Option.none => .none
    | some value =>
      if detected.any (· ≠ value.vmType) then .none
      else arrayTypeOf items (some value.vmType) indices

def arrayType : VMObject → VMType
  | struct items => arrayTypeOf items Option.none (List.range items.length)
  | _ => .none

def asNumber : VMObject → Result ℤ
  | number value => pure value
  | bytes value => pure (vmBytesToBigInt value)
  | object value =>
    if value.length = 32 then pure (ofLE value)
    else serialization "cannot convert Object to number"
  | bool value => pure (if value then 1 else 0)
  | string value => parseBigInt value
  | enum value => pure value.toNat
  | timestamp value => pure value.toNat
  | none => pure 0
  | struct _ => serialization "cannot convert Struct to number"

def asBytes : VMObject → Result Bytes
  | none => serialization "cannot convert None to bytes"
  | string value => pure (utf8 value)
  | bytes value => pure value
  | object value => pure value
  | bool value => pure [if value then 1 else 0]
  | enum value => pure (writeU32LE value)
  | timestamp value => pure (writeU32LE value)
  | number value => pure (bigIntToVmBytes value)
  | struct items => (struct items).toBytes

def asBool : VMObject → Result Bool
  | bool value => pure value
  | bytes value =>
    match value with
    | [b] => pure (b ≠ 0)
    | _ => serialization "cannot convert Bytes to bool"
  | number value => pure (value ≠ 0)
  | other => serialization s!"cannot convert {other.vmType.debug} to bool"

/-- The code unit of an index of a struct of numbers. -/
def codeUnit (items : List (VMObject × VMObject)) (index : ℕ) : Result UInt16 :=
  match structGet items index with
  | Option.none => serialization "invalid number array struct"
  | some value => do
    let unit ← value.asNumber
    if 0 ≤ unit ∧ unit < 2 ^ 16 then pure (UInt16.ofNat unit.toNat)
    else serialization "UTF-16 code unit out of range"

def asString : VMObject → Result String
  | string value => pure value
  | bytes value =>
    match fromUtf8 value with
    | some text => pure text
    | Option.none => serialization "invalid utf-8 sequence"
  | bool value => pure (if value then "true" else "false")
  | number value => pure (toString value)
  | enum value => pure (toString value.toNat)
  | timestamp value => pure (toString value.toNat)
  | none => pure "Null"
  | object _ => serialization "cannot convert Object to string"
  | struct items =>
    if (struct items).arrayType = .number then do
      let codeUnits ← (List.range items.length).mapM (codeUnit items)
      match decodeUtf16 codeUnits with
      | some text => pure (String.ofList text)
      | Option.none => serialization "invalid utf-16: lone surrogate found"
    else do
      let raw ← (struct items).asBytes
      pure (String.ofList (base64Encode raw))

/-- Code units by their places. -/
def codeUnits (units : List UInt16) : List (VMObject × VMObject) :=
  units.zipIdx.map fun (unit, index) => (number index, number unit.toNat)

def castTo (value : VMObject) (target : VMType) : Result VMObject :=
  if value.vmType = target then pure value
  else
    match target with
    | .none => pure none
    | .string => do
      let text ← value.asString
      pure (string text)
    | .bytes => do
      let raw ← value.asBytes
      pure (bytes raw)
    | .number => do
      let n ← value.asNumber
      pure (number n)
    | .bool => do
      let b ← value.asBool
      pure (bool b)
    | .struct =>
      match value with
      | string text => pure (struct (codeUnits (encodeUtf16 text.toList)))
      | object _ => pure value
      | other => serialization s!"invalid cast: {other.vmType.debug} to Struct"
    | target => serialization s!"invalid cast: {value.vmType.debug} to {target.debug}"

/-! ## Numbers -/

/-- A number is read off its bytes, padded or not, and is cast to bytes and to text and back. -/
theorem number_casts (n : ℤ) :
    vmBytesToBigInt (bigIntToVmBytes n) = n ∧
    (∃ raw, (∀ (b : ScriptBuilder) (reg : UInt8),
      b.emitLoadNumber reg n = b.emitLoad reg raw .number) ∧ vmBytesToBigInt raw = n) ∧
    ((do let raw ← (number n).castTo .bytes; raw.castTo .number) = .ok (number n)) ∧
    ((do let text ← (number n).castTo .string; text.castTo .number) = .ok (number n)) := by
  have hbytes : (number n).castTo .bytes = .ok (bytes (bigIntToVmBytes n)) := rfl
  have hstring : (number n).castTo .string = .ok (string (toString n)) := rfl
  refine ⟨vmBytesToBigInt_bigIntToVmBytes n, ⟨bigIntToCsharpBytes n, fun _ _ => rfl, ?_⟩, ?_, ?_⟩
  · rw [vmBytesToBigInt, if_neg (by simp [bigIntToCsharpBytes_ne_nil]),
      signedLE_bigIntToCsharpBytes]
  · rw [hbytes, ok_bind]
    exact congrArg (fun n => Except.ok (number n)) (vmBytesToBigInt_bigIntToVmBytes n)
  · rw [hstring, ok_bind]
    change (do let n ← parseBigInt (toString n); pure (number n)) = _
    rw [parseBigInt_toString]
    rfl

/-! ## Texts -/

variable {units : List UInt16}

@[simp] theorem length_codeUnits (units : List UInt16) : (codeUnits units).length = units.length := by
  rw [codeUnits, List.length_map, List.length_zipIdx]

/-- Each code unit is found by its place. -/
theorem structGet_codeUnits {index : ℕ} (h : index < units.length) :
    structGet (codeUnits units) index = some (number units[index].toNat) := by
  -- The places are counted from any on.
  have hfrom (units : List UInt16) (start index : ℕ) (h : index < units.length) :
      structGet ((units.zipIdx start).map fun (unit, index) => (number index, number unit.toNat))
        (start + index) = some (number units[index].toNat) := by
    induction units generalizing start index with
    | nil => exact absurd h (Nat.not_lt_zero _)
    | cons unit units ih =>
      rw [List.zipIdx_cons, List.map_cons, structGet]
      cases index with
      | zero =>
        rw [List.find?_cons_of_pos (by simp)]
        rfl
      | succ index =>
        rw [List.find?_cons_of_neg (by simp; omega)]
        have := ih (start + 1) index (Nat.lt_of_succ_lt_succ h)
        rw [structGet, show start + 1 + index = start + (index + 1) by omega] at this
        exact this
  have := hfrom units 0 index h
  rwa [Nat.zero_add] at this

/-- Places all of which hold numbers are those of an array of numbers. -/
theorem arrayTypeOf_number {items : List (VMObject × VMObject)} {indices : List ℕ}
    (h : ∀ index ∈ indices, ∃ n, structGet items index = some (number n)) :
    arrayTypeOf items (some .number) indices = .number := by
  induction indices with
  | nil => rfl
  | cons index indices ih =>
    obtain ⟨n, hn⟩ := h index List.mem_cons_self
    rw [arrayTypeOf, hn]
    exact ih fun index hindex => h index (List.mem_cons_of_mem _ hindex)

theorem arrayType_codeUnits (hne : units ≠ []) :
    (struct (codeUnits units)).arrayType = .number := by
  have hall : ∀ index ∈ List.range units.length,
      ∃ n, structGet (codeUnits units) index = some (number n) := fun index hindex =>
    ⟨_, structGet_codeUnits (List.mem_range.1 hindex)⟩
  obtain ⟨unit, units, rfl⟩ := List.exists_cons_of_ne_nil hne
  rw [arrayType, length_codeUnits]
  rw [List.length_cons, List.range_succ_eq_map] at hall ⊢
  obtain ⟨hzero, hall⟩ := List.forall_mem_cons.1 hall
  obtain ⟨n, hn⟩ := hzero
  rw [arrayTypeOf, hn]
  exact arrayTypeOf_number hall

theorem codeUnit_of_number {items : List (VMObject × VMObject)} {index : ℕ} {unit : UInt16}
    (h : structGet items index = some (number unit.toNat)) : codeUnit items index = .ok unit := by
  have hlt : unit.toNat < 65536 := unit.toNat_lt
  have hfits : 0 ≤ (unit.toNat : ℤ) ∧ (unit.toNat : ℤ) < 2 ^ 16 := by omega
  rw [codeUnit, h]
  simp only [asNumber, pure_bind, if_pos hfits, Int.toNat_natCast, UInt16.ofNat_toNat]
  rfl

theorem mapM_codeUnit (units : List UInt16) :
    (List.range units.length).mapM (codeUnit (codeUnits units)) = .ok units := by
  refine mapM_eq_ok.2 (List.forall₂_iff_get.2 ⟨List.length_range, fun index hrange hlt => ?_⟩)
  rw [List.get_eq_getElem, List.getElem_range]
  exact codeUnit_of_number (structGet_codeUnits hlt)

/-- A text is cast to the struct of its code units, and read off it, but for the empty one, whose
    struct is read as that of any other. -/
theorem asString_castTo_struct (s : String) :
    ∃ v, (string s).castTo .struct = .ok v ∧ v.vmType = .struct ∧
      v.asString = .ok (if s = "" then "AQA=" else s) := by
  refine ⟨struct (codeUnits (encodeUtf16 s.toList)), rfl, rfl, ?_⟩
  split
  next h =>
    rw [h]
    decide +kernel
  next h =>
    -- With one unit at least, the struct is an array of numbers.
    have hne : encodeUtf16 s.toList ≠ [] := fun hnil =>
      h (String.toList_eq_nil_iff.1 (encodeUtf16_eq_nil.1 hnil))
    rw [asString, if_pos (arrayType_codeUnits hne), length_codeUnits, mapM_codeUnit, ok_bind,
      decodeUtf16_encodeUtf16]
    exact congrArg Except.ok String.ofList_toList

/-- The struct of the empty text is read as the Base64 of what it is written as. -/
theorem not_asString_castTo_struct : ¬∀ s : String,
    ∃ v, (string s).castTo .struct = .ok v ∧ v.asString = .ok s := by
  intro h
  obtain ⟨v, hv, htext⟩ := h ""
  obtain rfl := Except.ok.inj (hv : Except.ok (struct []) = .ok v)
  have hread : (struct []).asString = .ok "AQA=" := by decide +kernel
  exact absurd (Except.ok.inj (hread.symm.trans htext)) (by decide)

end VMObject

end PhantasmaSdk.Vm
