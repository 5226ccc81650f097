import PhantasmaSdk.Carbon.Metadata
import PhantasmaSdk.Carbon.VmRoundTrip

/-!
# Coerced values

What a value is coerced to, and what is written of the one and of the other. A value of a
type without structs is coerced to one of its type, which may hold what the value holds in
another form: bytes given in hexadecimal digits, fixed bytes given as bytes, an unsigned
integer. The writer looks for the type's own form, and writes a default for any other, so
that the two are written alike iff the value is in form (`VMValue.InForm`) or holds what
the default does (`writeStatic_coerceMetadataLeaf_iff`).

A struct is coerced to itself (`eq_of_coerceMetadataValue`), and validating it tells of its
fields that they have those of the schema, each with a value that can be coerced
(`validateMetadataStruct_eq_ok`).
-/

namespace PhantasmaSdk

open Codec Codec.Decoder CarbonWriter CarbonReader

variable {α : Type}

theorem metadataError_ne_ok {name message : String} {a : α} :
    (metadataError name message : Result α) ≠ .ok a := nofun

/-! ## Looking up -/

/-- An entry is found by its very name. -/
theorem findInCase_eq_some {key : α → String} {entries : List α} {name : String} {entry : α} :
    findInCase key entries name = .ok (some entry) ↔ entries.find? (key · = name) = some entry := by
  rw [findInCase]
  cases hfind : entries.find? (key · = name) with
  | some found => exact ⟨fun h => Except.ok.inj h, fun h => congrArg Except.ok h⟩
  | none =>
    constructor
    · intro h
      simp only at h
      split at h
      · cases h
      · cases Except.ok.inj h
    · exact fun h => absurd h (by simp)

theorem findMetadataValue_eq_some {metadata : List (String × VMValue)} {name : String}
    {value : VMValue} : findMetadataValue metadata name = .ok (some value) ↔
      ∃ pair, metadata.find? (·.1 = name) = some pair ∧ pair.2 = value := by
  rw [findMetadataValue, bind_eq_ok]
  constructor
  · rintro ⟨found, hfound, h⟩
    obtain ⟨pair, rfl, hpair⟩ := Option.map_eq_some_iff.1 (Except.ok.inj h)
    exact ⟨pair, findInCase_eq_some.1 hfound, hpair⟩
  · rintro ⟨pair, hfind, rfl⟩
    exact ⟨some pair, findInCase_eq_some.2 hfind, rfl⟩

theorem findStructField_eq_some {value : VMDynamicStruct} {name : String}
    {found : VMDynamicVariable} : findStructField value name = .ok (some found) ↔
      ∃ f, value.fields.find? (·.name.value = name) = some f ∧ f.value = found := by
  rw [findStructField, bind_eq_ok]
  constructor
  · rintro ⟨field, hfield, h⟩
    obtain ⟨f, rfl, hf⟩ := Option.map_eq_some_iff.1 (Except.ok.inj h)
    exact ⟨f, findInCase_eq_some.1 hfield, hf⟩
  · rintro ⟨f, hfind, rfl⟩
    exact ⟨some f, findInCase_eq_some.2 hfind, rfl⟩

/-! ## Integers -/

/-- What is taken of a width lies in its signed or its unsigned range. -/
theorem validateIntWidth_eq_ok {name : String} {width : ℕ} {value : ℤ} :
    validateIntWidth name width value = .ok () ↔
      (-(2 ^ (width - 1)) ≤ value ∧ value ≤ 2 ^ (width - 1) - 1) ∨
        (0 ≤ value ∧ value ≤ 2 ^ width - 1) := by
  rw [validateIntWidth]
  split
  next h => exact ⟨fun _ => h, fun _ => rfl⟩
  next h => exact ⟨fun h' => absurd h' metadataError_ne_ok, fun h' => absurd h' h⟩

theorem metadataInt64_eq_ok {name : String} {value : ℤ} {coerced : Int64} :
    metadataInt64 name value = .ok coerced ↔
      (-(2 ^ 63) ≤ value ∧ value < 2 ^ 63) ∧ coerced.toInt = value := by
  rw [metadataInt64]
  split
  next h =>
    have hofInt := Int64.toInt_ofInt_of_le h.1 h.2
    constructor
    · intro hok
      exact ⟨h, Except.ok.inj hok ▸ hofInt⟩
    · rintro ⟨-, hcoerced⟩
      exact congrArg Except.ok (Int64.toInt_inj.1 (hofInt.trans hcoerced.symm))
  next h => exact ⟨fun h' => absurd h' metadataError_ne_ok, fun h' => absurd h'.1 h⟩

/-- What is coerced to an integer type is kept modulo its width: all that is taken off is
    the width, from what lies beyond the signed range. -/
theorem toInt_of_coerceMetadataIntegerForType {name : String} {vmType : VMType} {width : ℕ}
    (hwidth : (vmType, width) ∈ [(.int8, 8), (.int16, 16), (.int32, 32), (.int64, 64)]) {value : ℤ}
    {coerced : Int64} (h : coerceMetadataIntegerForType name vmType value = .ok coerced) :
    ((-(2 ^ (width - 1)) ≤ value ∧ value ≤ 2 ^ (width - 1) - 1) ∨
        (0 ≤ value ∧ value ≤ 2 ^ width - 1)) ∧
      (coerced.toInt = value ∨
        (2 ^ (width - 1) - 1 < value ∧ coerced.toInt = value - 2 ^ width)) := by
  have hthis : (do
      validateIntWidth name width value
      if width = 8 ∨ value ≤ 2 ^ (width - 1) - 1 then metadataInt64 name value
      else metadataInt64 name (value - 2 ^ width) : Result Int64) = .ok coerced := by
    simp only [List.mem_cons, Prod.mk.injEq, List.not_mem_nil, or_false] at hwidth
    rcases hwidth with ⟨rfl, rfl⟩ | ⟨rfl, rfl⟩ | ⟨rfl, rfl⟩ | ⟨rfl, rfl⟩ <;> exact h
  obtain ⟨⟨⟩, hrange, hcoerced⟩ := bind_eq_ok.1 hthis
  refine ⟨validateIntWidth_eq_ok.1 hrange, ?_⟩
  split at hcoerced
  next => exact .inl (metadataInt64_eq_ok.1 hcoerced).2
  next hupper =>
    push Not at hupper
    exact .inr ⟨hupper.2, (metadataInt64_eq_ok.1 hcoerced).2⟩

/-- The integer that a value holds is what the writer makes of it, if it is one of 64 bits,
    and else it is written as zero. -/
theorem toInt_asI64_of_metadataInteger {name : String} {value : VMValue} {n : ℤ}
    (h : metadataInteger name value = .ok n) :
    (-(2 ^ 63) ≤ n ∧ n < 2 ^ 63 ∧ value.asI64.toInt = n) ∨
      (¬(-(2 ^ 63) ≤ n ∧ n < 2 ^ 63) ∧ value = .int256 n ∧ value.asI64 = 0) := by
  rw [metadataInteger.eq_def] at h
  split at h
  next v =>
    obtain rfl := Except.ok.inj h
    exact .inl ⟨v.le_toInt, v.toInt_lt, rfl⟩
  next v =>
    split at h
    next =>
      obtain rfl := Except.ok.inj h
      by_cases hv : -(2 ^ 63) ≤ v ∧ v < 2 ^ 63
      · refine .inl ⟨hv.1, hv.2, ?_⟩
        rw [VMValue.asI64, if_pos hv]
        exact Int64.toInt_ofInt_of_le hv.1 hv.2
      · exact .inr ⟨hv, rfl, by rw [VMValue.asI64, if_neg hv]⟩
    next => cases h
  next => cases h

/-- Integers that are the same but for the width are the same modulo it. -/
theorem bmod_eq_of_eq_or {a n : ℤ} {width : ℕ} (h : a = n ∨ a = n - 2 ^ width) :
    a.bmod (2 ^ width) = n.bmod (2 ^ width) := by
  rcases h with rfl | rfl
  · rfl
  · exact_mod_cast Int.sub_bmod_right n (2 ^ width)

/-! ## Values without structs -/

/-- The value is in the form the writer looks for at the type, or holds what is written of
    any other: the bytes given as text are none, those given for fixed ones are zeros, and
    an integer of 64 bits is not given as an unsigned one. -/
def VMValue.InForm (vmType : VMType) (value : VMValue) : Prop :=
  match vmType with
  | .bytes => ∀ text, value = .string text → decodeMetadataHex "" text = .ok []
  | .bytes16 => ∀ raw, coerceMetadataBytes "" value = .ok raw → raw = emptyBytes16.bytes
  | .bytes32 => ∀ raw, coerceMetadataBytes "" value = .ok raw → raw = emptyBytes32.bytes
  | .bytes64 => ∀ raw, coerceMetadataBytes "" value = .ok raw → raw = emptyBytes64.bytes
  | .int64 => ∀ n, value = .int256 n → n < 2 ^ 63
  | _ => True

/-- The name is that of an error only. -/
theorem decodeMetadataHex_eq_ok {name text : String} {raw : Bytes} (name' : String)
    (h : decodeMetadataHex name text = .ok raw) : decodeMetadataHex name' text = .ok raw := by
  revert h
  rw [decodeMetadataHex, decodeMetadataHex]
  simp only
  split
  next => exact nofun
  next =>
    generalize hexDecode _ = decoded
    cases decoded with
    | some raw' => exact id
    | none => exact nofun

theorem coerceMetadataBytes_eq_ok {name : String} {value : VMValue} {raw : Bytes} (name' : String)
    (h : coerceMetadataBytes name value = .ok raw) : coerceMetadataBytes name' value = .ok raw := by
  rw [coerceMetadataBytes.eq_def] at h ⊢
  split at h
  next => exact h
  next => exact decodeMetadataHex_eq_ok name' h
  next => cases h

theorem writeByteArray_eq_nil_iff {raw : Bytes} :
    writeByteArray raw = writeByteArray [] ↔ raw = [] := by
  refine ⟨fun h => ?_, fun h => h ▸ rfl⟩
  have hlength := length_writeByteArray (h.trans (rfl : writeByteArray [] = .ok (write4 0 ++ [])))
  rw [List.append_nil, write4, length_toLE] at hlength
  exact List.eq_nil_of_length_eq_zero (by omega)

theorem write8_injective : Function.Injective write8 := fun a b h => by
  have ha := reads_read8 a []
  rw [h, reads_read8] at ha
  exact (Prod.mk.inj (Except.ok.inj ha)).1.symm

/-- Fixed bytes that were coerced from others. -/
theorem coerceMetadataFixedBytes_eq_ok {size : ℕ} {name : String} {value : VMValue}
    {coerced : FixedBytes size} (h : coerceMetadataFixedBytes size name value = .ok coerced) :
    coerceMetadataBytes name value = .ok coerced.bytes := by
  obtain ⟨raw, hraw, h⟩ := bind_eq_ok.1 h
  split at h
  next => exact hraw.trans (congrArg Except.ok (congrArg FixedBytes.bytes (Except.ok.inj h)))
  next => cases h

/-- Fixed bytes are written as zeros where the value is of bytes of any size. -/
theorem fixedBytes_iff {size : ℕ} {name : String} {value : VMValue} {coerced : FixedBytes size}
    (h : coerceMetadataFixedBytes size name value = .ok coerced) :
    coerced.bytes = (FixedBytes.zero size).bytes ↔
      ∀ raw, coerceMetadataBytes "" value = .ok raw → raw = (FixedBytes.zero size).bytes := by
  have hraw := coerceMetadataBytes_eq_ok "" (coerceMetadataFixedBytes_eq_ok h)
  constructor
  · intro hzero raw hok
    rw [← hzero]
    exact Except.ok.inj (hok.symm.trans hraw)
  · exact fun hall => hall _ hraw

/-- A narrow integer is coerced to one that is the same modulo the width. -/
theorem exists_int_of_coerced {name : String} {vmType : VMType} {width : ℕ}
    (hwidth : (vmType, width) ∈ [(.int8, 8), (.int16, 16), (.int32, 32)])
    {value coerced : VMValue} (h : coerceMetadataLeaf name vmType value = .ok coerced) :
    ∃ v, coerced = .int v ∧ v.toInt.bmod (2 ^ width) = value.asI64.toInt.bmod (2 ^ width) := by
  have hthis : (do
      let n ← metadataInteger name value
      let v ← coerceMetadataIntegerForType name vmType n
      pure (.int v) : Result VMValue) = .ok coerced := by
    simp only [List.mem_cons, Prod.mk.injEq, List.not_mem_nil, or_false] at hwidth
    rcases hwidth with ⟨rfl, rfl⟩ | ⟨rfl, rfl⟩ | ⟨rfl, rfl⟩ <;> exact h
  have hnarrow : width = 8 ∨ width = 16 ∨ width = 32 := by
    simp only [List.mem_cons, Prod.mk.injEq, List.not_mem_nil, or_false] at hwidth
    tauto
  obtain ⟨n, hn, hthis⟩ := bind_eq_ok.1 hthis
  obtain ⟨v, hv, hthis⟩ := bind_eq_ok.1 hthis
  obtain ⟨hrange, hcoerced⟩ := toInt_of_coerceMetadataIntegerForType
    (List.mem_append_left [(.int64, 64)] hwidth) hv
  have hasI64 : value.asI64.toInt = n := by
    rcases toInt_asI64_of_metadataInteger hn with ⟨-, -, hasI64⟩ | ⟨hout, -, -⟩
    · exact hasI64
    · -- both ranges of a narrow integer are in that of 64 bits
      refine absurd ?_ hout
      rcases hnarrow with rfl | rfl | rfl <;> omega
  refine ⟨v, (Except.ok.inj hthis).symm, ?_⟩
  rw [hasI64]
  exact bmod_eq_of_eq_or (hcoerced.imp_right And.right)

/-- An integer of 64 bits is written as what it was coerced from, unless that is unsigned. -/
theorem eq_asI64_iff_of_coerced {name : String} {value : VMValue} {n : ℤ} {coerced : Int64}
    (hn : metadataInteger name value = .ok n)
    (h : coerceMetadataIntegerForType name .int64 n = .ok coerced) :
    coerced = value.asI64 ↔ value.InForm .int64 := by
  obtain ⟨hrange, hcoerced⟩ := toInt_of_coerceMetadataIntegerForType
    (show (VMType.int64, 64) ∈ _ by decide) h
  rw [← Int64.toInt_inj]
  rcases toInt_asI64_of_metadataInteger hn with ⟨hlo, hhi, hasI64⟩ | ⟨hout, rfl, hasI64⟩
  · rw [hasI64]
    refine iff_of_true (by omega) fun m hm => ?_
    subst hm
    rw [metadataInteger] at hn
    split at hn
    · exact Except.ok.inj hn ▸ hhi
    · cases hn
  · -- the writer makes zero of it, and the coercion never does
    rw [hasI64]
    refine iff_of_false ?_ fun hform => ?_
    · rw [Int64.toInt_zero]
      omega
    · have := hform n rfl
      omega

theorem writeByteArray_iff_of_coerced {name : String} {value : VMValue} {raw : Bytes}
    (h : coerceMetadataBytes name value = .ok raw) :
    (VMValue.bytes raw).writeLeaf .bytes = value.writeLeaf .bytes ↔ value.InForm .bytes := by
  rw [coerceMetadataBytes.eq_def] at h
  split at h
  next own =>
    obtain rfl := Except.ok.inj h
    exact iff_of_true rfl nofun
  next text =>
    refine writeByteArray_eq_nil_iff.trans ⟨?_, fun hform => ?_⟩
    · rintro rfl text' htext
      obtain rfl := VMValue.string.inj htext
      exact decodeMetadataHex_eq_ok "" h
    · exact Except.ok.inj ((decodeMetadataHex_eq_ok "" h).symm.trans (hform text rfl))
  next => cases h

/-- Fixed bytes that are not in form are written as zeros. -/
theorem writeFixed_iff_of_coerced {size : ℕ} {name : String} {value : VMValue}
    {fixed : FixedBytes size} {written : Result Bytes}
    (hwritten : written = .ok (FixedBytes.zero size).bytes)
    (h : coerceMetadataFixedBytes size name value = .ok fixed) : .ok fixed.bytes = written ↔
      ∀ raw, coerceMetadataBytes "" value = .ok raw → raw = (FixedBytes.zero size).bytes := by
  rw [hwritten, ← fixedBytes_iff h]
  exact ⟨fun hw => Except.ok.inj hw, fun hzero => congrArg Except.ok hzero⟩

theorem asBigInt_of_metadataBigint {name : String} {value : VMValue} {n : ℤ}
    (h : metadataBigint name value = .ok n) : value.asBigInt = n := by
  rw [metadataBigint.eq_def] at h
  split at h
  · exact Except.ok.inj h
  · exact Except.ok.inj h
  · cases h

theorem coerceMetadataString_eq_ok {name text : String} {value : VMValue}
    (h : coerceMetadataString name value = .ok text) : value = .string text := by
  rw [coerceMetadataString.eq_def] at h
  split at h
  · split at h
    · cases h
    · exact congrArg VMValue.string (Except.ok.inj h)
  · cases h

/-- The types that take none but their own values, as they are. -/
def verbatimTypes : List VMType :=
  [.dynamic, .arrayDynamic, .arrayBytes, .arrayString, .arrayInt8, .arrayInt16, .arrayInt32,
    .arrayInt64, .arrayInt256, .arrayBytes16, .arrayBytes32, .arrayBytes64]

theorem eq_of_coerceMetadataLeaf {name : String} {vmType : VMType} {value coerced : VMValue}
    (hvmType : vmType ∈ verbatimTypes) (h : coerceMetadataLeaf name vmType value = .ok coerced) :
    coerced = value := by
  rw [coerceMetadataLeaf.eq_def] at h
  cases vmType with
  | int8 | int16 | int32 | int64 | int256 | bytes | bytes16 | bytes32 | bytes64 | string
  | struct | array | arrayStruct => exact absurd hvmType (by decide)
  | arrayInt256 =>
    simp only at h
    split at h
    · obtain ⟨_, -, h⟩ := bind_eq_ok.1 h
      exact (Except.ok.inj h).symm
    · cases h
  | arrayString =>
    simp only at h
    split at h
    · split at h
      · cases h
      · exact (Except.ok.inj h).symm
    · cases h
  | _ =>
    simp only at h
    split at h
    · exact (Except.ok.inj h).symm
    · cases h

/-- What a value is coerced to is written as the value itself iff it is in form. -/
theorem writeLeaf_coerceMetadataLeaf_iff {name : String} {vmType : VMType}
    {value coerced : VMValue} (h : coerceMetadataLeaf name vmType value = .ok coerced) :
    coerced.writeLeaf vmType = value.writeLeaf vmType ↔ value.InForm vmType := by
  cases vmType with
  | struct | array | arrayStruct => cases h
  | bytes =>
    obtain ⟨raw, hraw, h⟩ := bind_eq_ok.1 h
    obtain rfl := Except.ok.inj h
    exact writeByteArray_iff_of_coerced hraw
  | string =>
    obtain ⟨text, htext, h⟩ := bind_eq_ok.1 h
    obtain rfl := Except.ok.inj h
    obtain rfl := coerceMetadataString_eq_ok htext
    exact iff_of_true rfl trivial
  | int8 =>
    obtain ⟨v, rfl, hv⟩ := exists_int_of_coerced (show (VMType.int8, 8) ∈ _ by decide) h
    have heq : v.toInt8 = value.asI64.toInt8 := by
      rw [← Int8.toInt_inj, Int64.toInt_toInt8, Int64.toInt_toInt8, hv]
    refine iff_of_true ?_ trivial
    rw [VMValue.writeLeaf, VMValue.writeLeaf, ← heq]
    rfl
  | int16 =>
    obtain ⟨v, rfl, hv⟩ := exists_int_of_coerced (show (VMType.int16, 16) ∈ _ by decide) h
    have heq : v.toInt16 = value.asI64.toInt16 := by
      rw [← Int16.toInt_inj, Int64.toInt_toInt16, Int64.toInt_toInt16, hv]
    refine iff_of_true ?_ trivial
    rw [VMValue.writeLeaf, VMValue.writeLeaf, ← heq]
    rfl
  | int32 =>
    obtain ⟨v, rfl, hv⟩ := exists_int_of_coerced (show (VMType.int32, 32) ∈ _ by decide) h
    have heq : v.toInt32 = value.asI64.toInt32 := by
      rw [← Int32.toInt_inj, Int64.toInt_toInt32, Int64.toInt_toInt32, hv]
    refine iff_of_true ?_ trivial
    rw [VMValue.writeLeaf, VMValue.writeLeaf, ← heq]
    rfl
  | int64 =>
    obtain ⟨n, hn, h⟩ := bind_eq_ok.1 h
    obtain ⟨v, hv, h⟩ := bind_eq_ok.1 h
    obtain rfl := Except.ok.inj h
    rw [← eq_asI64_iff_of_coerced hn hv]
    refine ⟨fun hw => write8_injective (Except.ok.inj hw), fun heq => ?_⟩
    rw [heq]
    rfl
  | int256 =>
    obtain ⟨n, hn, h⟩ := bind_eq_ok.1 h
    obtain ⟨_, -, h⟩ := bind_eq_ok.1 h
    obtain rfl := Except.ok.inj h
    refine iff_of_true ?_ trivial
    rw [VMValue.writeLeaf, VMValue.writeLeaf, asBigInt_of_metadataBigint hn]
    rfl
  | bytes16 =>
    obtain ⟨fixed, hfixed, h⟩ := bind_eq_ok.1 h
    obtain rfl := Except.ok.inj h
    cases value with
    | bytes16 own =>
      obtain rfl := Except.ok.inj hfixed
      exact iff_of_true rfl (by rintro raw ⟨⟩)
    | _ => exact writeFixed_iff_of_coerced rfl hfixed
  | bytes32 =>
    obtain ⟨fixed, hfixed, h⟩ := bind_eq_ok.1 h
    obtain rfl := Except.ok.inj h
    cases value with
    | bytes32 own =>
      obtain rfl := Except.ok.inj hfixed
      exact iff_of_true rfl (by rintro raw ⟨⟩)
    | _ => exact writeFixed_iff_of_coerced rfl hfixed
  | bytes64 =>
    obtain ⟨fixed, hfixed, h⟩ := bind_eq_ok.1 h
    obtain rfl := Except.ok.inj h
    cases value with
    | bytes64 own =>
      obtain rfl := Except.ok.inj hfixed
      exact iff_of_true rfl (by rintro raw ⟨⟩)
    | _ => exact writeFixed_iff_of_coerced rfl hfixed
  | _ =>
    obtain rfl := eq_of_coerceMetadataLeaf (by decide) h
    exact iff_of_true rfl trivial

theorem writeStatic_coerceMetadataLeaf_iff {name : String} {vmType : VMType}
    {value coerced : VMValue} (h : coerceMetadataLeaf name vmType value = .ok coerced)
    (schema : Option VMStructSchema) :
    coerced.writeStatic vmType schema = value.writeStatic vmType schema ↔ value.InForm vmType := by
  have hleaf := writeLeaf_coerceMetadataLeaf_iff h
  cases vmType with
  | struct | array | arrayStruct => cases h
  | dynamic | arrayDynamic =>
    obtain rfl := eq_of_coerceMetadataLeaf (by decide) h
    exact iff_of_true rfl trivial
  | _ =>
    rw [VMValue.writeStatic.eq_def, VMValue.writeStatic.eq_def]
    exact hleaf

/-- No struct is coerced to a type without structs. -/
theorem coerceMetadataLeaf_ne_ok {name : String} {vmType : VMType} {value coerced : VMValue}
    (hvalue : (∃ s, value = .struct s) ∨ ∃ a, value = .arrayStruct a) :
    coerceMetadataLeaf name vmType value ≠ .ok coerced := by
  rcases hvalue with ⟨s, rfl⟩ | ⟨a, rfl⟩ <;> cases vmType <;> exact nofun

/-! ## Values with structs -/

theorem SmallString.value_inj {a b : SmallString} : a.value = b.value ↔ a = b := by
  obtain ⟨a⟩ := a
  obtain ⟨b⟩ := b
  exact SmallString.mk.injEq a b ▸ Iff.rfl

theorem coerceMetadataValue_eq (name : String) {schema : VMVariableSchema}
    (ht : ¬schema.vmType.hasStruct) (value : VMValue) :
    coerceMetadataValue name schema value = coerceMetadataLeaf name schema.vmType value := by
  obtain ⟨vmType, structDef⟩ := schema
  rw [coerceMetadataValue.eq_def]
  cases vmType <;> first | rfl | exact absurd rfl ht

theorem coerceMetadataValue_struct_eq_ok {name : String} {structDef : Option VMStructSchema}
    {value coerced : VMValue} : coerceMetadataValue name ⟨.struct, structDef⟩ value = .ok coerced ↔
      ∃ nested s, structDef = some nested ∧ value = .struct s ∧ coerced = .struct s ∧
        validateMetadataStruct name nested s = .ok () := by
  rw [coerceMetadataValue.eq_def]
  simp only
  constructor
  · intro h
    split at h
    · cases h
    next nested =>
      split at h
      next s =>
        obtain ⟨⟨⟩, hs, h⟩ := bind_eq_ok.1 h
        exact ⟨nested, s, rfl, rfl, (Except.ok.inj h).symm, hs⟩
      · cases h
  · rintro ⟨nested, s, rfl, rfl, rfl, hs⟩
    exact bind_eq_ok.2 ⟨(), hs, rfl⟩

theorem of_coerceMetadataValue_arrayStruct {name : String} {structDef : Option VMStructSchema}
    {value coerced : VMValue}
    (h : coerceMetadataValue name ⟨.arrayStruct, structDef⟩ value = .ok coerced) :
    ∃ nested a, structDef = some nested ∧ value = .arrayStruct a ∧ coerced = .arrayStruct a ∧
      ∀ s ∈ a.structs, ∃ parentName, validateMetadataStruct parentName nested s = .ok () := by
  rw [coerceMetadataValue.eq_def] at h
  simp only at h
  split at h
  · cases h
  next nested =>
    split at h
    next a =>
      obtain ⟨units, hunits, h⟩ := bind_eq_ok.1 h
      refine ⟨nested, a, rfl, rfl, (Except.ok.inj h).symm, fun s hs => ?_⟩
      obtain ⟨index, hlt, rfl⟩ := List.getElem_of_mem hs
      have hmem : (a.structs[index], index) ∈ a.structs.zipIdx :=
        List.mem_zipIdx_iff_getElem?.2 (List.getElem?_eq_getElem hlt)
      obtain ⟨⟨⟩, -, hs⟩ := exists_of_forall₂_mem (mapM_eq_ok.1 hunits) hmem
      exact ⟨_, hs⟩
    · cases h

theorem validateMetadataField_eq_ok {field : VMNamedVariableSchema} {s : VMDynamicStruct} :
    validateMetadataField field s = .ok () ↔ ∃ f coerced,
      s.fields.find? (·.name = field.name) = some f ∧
        coerceMetadataValue field.name.value field.schema f.value.data = .ok coerced := by
  obtain ⟨name, schema⟩ := field
  rw [validateMetadataField, bind_eq_ok]
  simp only [← SmallString.value_inj]
  constructor
  · rintro ⟨found, hfound, h⟩
    cases found with
    | none => cases h
    | some found =>
      obtain ⟨f, hf, rfl⟩ := findStructField_eq_some.1 hfound
      obtain ⟨coerced, hcoerced, -⟩ := bind_eq_ok.1 h
      exact ⟨f, coerced, hf, hcoerced⟩
  · rintro ⟨f, coerced, hf, hcoerced⟩
    exact ⟨some f.value, findStructField_eq_some.2 ⟨f, hf, rfl⟩,
      bind_eq_ok.2 ⟨coerced, hcoerced, rfl⟩⟩

theorem validateMetadataFields_eq_ok {fields : List VMNamedVariableSchema} {s : VMDynamicStruct} :
    validateMetadataFields fields s = .ok () ↔
      ∀ field ∈ fields, validateMetadataField field s = .ok () := by
  induction fields with
  | nil => exact iff_of_true rfl nofun
  | cons field fields ih =>
    rw [validateMetadataFields, bind_eq_ok, List.forall_mem_cons, ← ih]
    exact ⟨fun ⟨⟨⟩, hhead, htail⟩ => ⟨hhead, htail⟩, fun ⟨hhead, htail⟩ => ⟨(), hhead, htail⟩⟩

/-- A struct is accepted where it has the fields of the schema, each with a value that can
    be coerced, and no others. -/
theorem validateMetadataStruct_eq_ok {parentName : String} {schema : VMStructSchema}
    {s : VMDynamicStruct} : validateMetadataStruct parentName schema s = .ok () ↔
      (∀ field ∈ schema.fields, validateMetadataField field s = .ok ()) ∧
        ∀ f ∈ s.fields, ∃ field ∈ schema.fields, field.name = f.name := by
  obtain ⟨fields, flags⟩ := schema
  rw [validateMetadataStruct, bind_eq_ok, ← validateMetadataFields_eq_ok]
  have hnone : (s.fields.find? fun field => ¬fields.any (·.name = field.name)) = none ↔
      ∀ f ∈ s.fields, ∃ field ∈ fields, field.name = f.name := by
    simp [List.find?_eq_none]
  rw [← hnone]
  constructor
  · rintro ⟨⟨⟩, hfields, h⟩
    refine ⟨hfields, ?_⟩
    split at h
    · cases h
    next hfind => exact hfind
  · rintro ⟨hfields, hfind⟩
    refine ⟨(), hfields, ?_⟩
    rw [hfind]
    rfl

/-- A value with structs is coerced to itself, whatever schema takes it. -/
theorem eq_of_coerceMetadataValue {name name' : String} {schema schema' : VMVariableSchema}
    {value coerced coerced' : VMValue} (ht : schema.vmType.hasStruct)
    (h : coerceMetadataValue name schema value = .ok coerced)
    (h' : coerceMetadataValue name' schema' value = .ok coerced') :
    schema'.vmType.hasStruct ∧ coerced' = value := by
  -- What the one schema takes is a struct or an array of structs, as which no leaf is taken.
  have hvalue : (∃ s, value = .struct s) ∨ ∃ a, value = .arrayStruct a := by
    obtain ⟨vmType, structDef⟩ := schema
    cases vmType with
    | struct =>
      obtain ⟨_, s, -, hs, -⟩ := coerceMetadataValue_struct_eq_ok.1 h
      exact .inl ⟨s, hs⟩
    | arrayStruct =>
      obtain ⟨_, a, -, ha, -⟩ := of_coerceMetadataValue_arrayStruct h
      exact .inr ⟨a, ha⟩
    | _ => cases ht
  by_cases ht' : schema'.vmType.hasStruct
  · refine ⟨ht', ?_⟩
    obtain ⟨vmType, structDef⟩ := schema'
    cases vmType with
    | struct =>
      obtain ⟨_, s, -, hs, hc, -⟩ := coerceMetadataValue_struct_eq_ok.1 h'
      rw [hs, hc]
    | arrayStruct =>
      obtain ⟨_, a, -, ha, hc, -⟩ := of_coerceMetadataValue_arrayStruct h'
      rw [ha, hc]
    | _ => cases ht'
  · rw [coerceMetadataValue_eq name' ht'] at h'
    exact absurd h' (coerceMetadataLeaf_ne_ok hvalue)

end PhantasmaSdk
