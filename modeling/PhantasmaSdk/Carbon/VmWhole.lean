import PhantasmaSdk.Carbon.VmRoundTrip

/-!
# Values that are written whole

A value is written at the type asked for, whatever it holds: what does not have the form
of the type is written as a default, and of a struct that is laid out by a schema only what
the schema has a place for. Bytes *hold* a value (`Held`) if all it is made of is
found in them: what holds no variables as it is written in the form of its type, a variable
after the code of its type, and each field of a struct in the chunk of its place or under its
name.

A value is *whole* at a type (`Whole`) if it has the form of the type, and so has all
that is in it. What is written of a value holds it iff the value is whole
(`held_iff_whole`).
-/

namespace PhantasmaSdk

open Codec Codec.Decoder CarbonWriter CarbonReader

/-! ## How structs and arrays are laid out -/

/-- How a struct is written by a schema: a chunk for each field of the schema, and what
    follows them. -/
structure VMDynamicStruct.LaidOut (s : VMDynamicStruct) (schema : VMStructSchema)
    (chunks : List Bytes) (tail bytes : Bytes) : Prop where
  chunks_eq : schema.fields.mapM (writeField s.fieldWriters) = .ok chunks
  bytes_eq : bytes = chunks.flatten ++ tail

theorem VMDynamicStruct.exists_laidOut {s : VMDynamicStruct} {schema : VMStructSchema}
    {bytes : Bytes} (hw : s.writeWithSchema schema = .ok bytes) :
    ∃ chunks tail, s.LaidOut schema chunks tail bytes := by
  rw [writeWithSchema, writeFieldsWithSchema_eq] at hw
  obtain ⟨chunks, hchunks, hw⟩ := bind_eq_ok.1 hw
  split at hw
  · obtain ⟨tail, -, hw⟩ := bind_eq_ok.1 hw
    exact ⟨chunks, tail, hchunks, (Except.ok.inj hw).symm⟩
  · exact ⟨chunks, [], hchunks, by rw [List.append_nil, ← Except.ok.inj hw]⟩

theorem VMStructArray.exists_chunks {a : VMStructArray} {schema : Option VMStructSchema}
    {bytes : Bytes} (hw : (VMValue.arrayStruct a).writeStatic .arrayStruct schema = .ok bytes) :
    ∃ chunks head, a.structs.mapM (fun s => s.writeWithSchema (schema.getD a.schema)) = .ok chunks ∧
      bytes = head ++ chunks.flatten := by
  obtain ⟨own, structs⟩ := a
  rw [VMValue.writeStatic.eq_def] at hw
  simp only at hw
  rw [VMStructArray.writeStatic.eq_def] at hw
  simp only at hw
  rw [structWriters_eq, List.mapM_map] at hw
  obtain ⟨len, -, hw⟩ := bind_eq_ok.1 hw
  obtain ⟨head, -, hw⟩ := bind_eq_ok.1 hw
  obtain ⟨chunks, hchunks, hw⟩ := bind_eq_ok.1 hw
  exact ⟨chunks, _, hchunks, (Except.ok.inj hw).symm⟩

/-- At a field of the schema is what is written of the first field of its name. -/
theorem VMDynamicStruct.writeField_eq {s : VMDynamicStruct} {field : VMNamedVariableSchema}
    {f : VMNamedDynamicVariable} (hf : s.fields.find? (·.name = field.name) = some f) :
    writeField s.fieldWriters field =
      f.value.data.writeStatic field.schema.vmType field.schema.structDef := by
  rw [writeField, fieldWriters_eq, find?_fieldWriter, hf, Option.map_some, f.fieldWriter_eq]

theorem VMDynamicStruct.LaidOut.writeField_eq {s : VMDynamicStruct} {schema : VMStructSchema}
    {chunks : List Bytes} {tail bytes : Bytes} (h : s.LaidOut schema chunks tail bytes)
    {field : VMNamedVariableSchema} {chunk : Bytes}
    (hp : (field, chunk) ∈ schema.fields.zip chunks) :
    writeField s.fieldWriters field = .ok chunk :=
  List.forall₂_zip (mapM_eq_ok.1 h.chunks_eq) hp

/-- An element of an array is written somewhere in it. -/
theorem exists_infix_of_writeArray {α : Type} {write : α → Result Bytes} {values : List α}
    {bytes : Bytes} (hw : writeArray write values = .ok bytes) {value : α} (h : value ∈ values) :
    ∃ enc, write value = .ok enc ∧ enc <:+: bytes := by
  obtain ⟨len, -, hw⟩ := bind_eq_ok.1 hw
  obtain ⟨encs, hencs, hw⟩ := bind_eq_ok.1 hw
  obtain ⟨enc, hmem, henc⟩ := exists_of_forall₂_mem (mapM_eq_ok.1 hencs) h
  refine ⟨enc, henc, ?_⟩
  rw [← Except.ok.inj hw]
  exact (List.infix_of_mem_flatten hmem).trans (List.suffix_append _ _).isInfix

theorem ne_nil_of_write {f : FieldWriter} {enc : Bytes} (hw : f.write = .ok enc) : enc ≠ [] := by
  obtain ⟨name, -, hw⟩ := bind_eq_ok.1 hw
  obtain ⟨body, -, hw⟩ := bind_eq_ok.1 hw
  rw [← Except.ok.inj hw]
  simp [write1]

theorem exists_mem_zip {α β : Type} {as : List α} {bs : List β} (h : as.length = bs.length) {a : α}
    (ha : a ∈ as) : ∃ b, (a, b) ∈ as.zip bs := by
  obtain ⟨index, hlt, rfl⟩ := List.getElem_of_mem ha
  refine ⟨bs[index], ?_⟩
  rw [← List.getElem_zip (h := by rw [List.length_zip]; omega)]
  exact List.getElem_mem _

theorem VMDynamicStruct.LaidOut.exists_mem {s : VMDynamicStruct} {schema : VMStructSchema}
    {chunks : List Bytes} {tail bytes : Bytes} (h : s.LaidOut schema chunks tail bytes)
    {field : VMNamedVariableSchema} (hf : field ∈ schema.fields) :
    ∃ chunk, (field, chunk) ∈ schema.fields.zip chunks ∧
      writeField s.fieldWriters field = .ok chunk := by
  obtain ⟨chunk, hp⟩ := exists_mem_zip (mapM_eq_ok.1 h.chunks_eq).length_eq hf
  exact ⟨chunk, hp, h.writeField_eq hp⟩

/-- What follows the chunks is written of the fields that the schema does not have. -/
theorem VMDynamicStruct.LaidOut.tail_eq {s : VMDynamicStruct} {schema : VMStructSchema}
    {chunks : List Bytes} {tail bytes : Bytes} (h : s.LaidOut schema chunks tail bytes)
    (hw : s.writeWithSchema schema = .ok bytes) :
    if schema.flags.contains .dynamicExtras then
      writeNamedDynamicVariables ((s.extras schema).map VMNamedDynamicVariable.fieldWriter) =
        .ok tail
    else tail = [] := by
  rw [writeWithSchema, writeFieldsWithSchema_eq, h.chunks_eq, ok_bind, s.fieldWriters_eq,
    filter_fieldWriter, h.bytes_eq] at hw
  split at hw
  next hflag =>
    obtain ⟨tail', htail, hw⟩ := bind_eq_ok.1 hw
    rw [if_pos hflag, htail, List.append_cancel_left (Except.ok.inj hw)]
  next hflag =>
    rw [if_neg hflag]
    exact (List.self_eq_append_right.1 (Except.ok.inj hw))

/-! ## Forms -/

/-- An integer of the signed or the unsigned range of a width. -/
def WithinWidth (width : ℕ) (n : ℤ) : Prop := -(2 ^ (width - 1)) ≤ n ∧ n < 2 ^ width

namespace VMValue

/-- The value has the form of a type whose values hold no variables: the writer looks for
    it there, and writes all of it. -/
def HasForm : VMValue → VMType → Prop
  | bytes _, .bytes => True
  | int value, .int8 => WithinWidth 8 value.toInt
  | int value, .int16 => WithinWidth 16 value.toInt
  | int value, .int32 => WithinWidth 32 value.toInt
  | int _, .int64 => True
  | int _, .int256 => True
  | int256 value, .int8 => WithinWidth 8 value
  | int256 value, .int16 => WithinWidth 16 value
  | int256 value, .int32 => WithinWidth 32 value
  | int256 value, .int64 => -(2 ^ 63) ≤ value ∧ value < 2 ^ 63
  | int256 _, .int256 => True
  | bytes16 _, .bytes16 => True
  | bytes32 _, .bytes32 => True
  | bytes64 _, .bytes64 => True
  | string _, .string => True
  | arrayBytes _, .arrayBytes => True
  | arrayInt8 _, .arrayInt8 => True
  | arrayInt16 _, .arrayInt16 => True
  | arrayInt32 _, .arrayInt32 => True
  | arrayInt64 _, .arrayInt64 => True
  | arrayInt256 _, .arrayInt256 => True
  | arrayBytes16 _, .arrayBytes16 => True
  | arrayBytes32 _, .arrayBytes32 => True
  | arrayBytes64 _, .arrayBytes64 => True
  | arrayString _, .arrayString => True
  | _, _ => False

end VMValue

/-! ## Holding and being whole -/

mutual

/-- The bytes hold the value at a type and a schema. -/
inductive Held : VMType → Option VMStructSchema → VMValue → Bytes → Prop
  | leaf {vmType : VMType} {schema : Option VMStructSchema} {data : VMValue} {bytes : Bytes} :
      data.HasForm vmType → data.writeLeaf vmType = .ok bytes → Held vmType schema data bytes
  | dynamic {schema : Option VMStructSchema} {v : VMDynamicVariable} {bytes : Bytes} :
      HeldVariable v bytes → Held .dynamic schema (.dynamic v) bytes
  | arrayDynamic {schema : Option VMStructSchema} {values : List VMDynamicVariable} {head : Bytes}
      {chunks : List Bytes} : values.length = chunks.length →
      (∀ p ∈ values.zip chunks, HeldVariable p.1 p.2) →
      Held .arrayDynamic schema (.arrayDynamic values) (head ++ chunks.flatten)
  | struct {s : VMDynamicStruct} {bytes : Bytes} :
      (∀ f ∈ s.fields, HeldNamed f bytes) → Held .struct none (.struct s) bytes
  | structAt {schema : VMStructSchema} {s : VMDynamicStruct} {chunks : List Bytes} {tail : Bytes} :
      schema.fields.length = chunks.length → (¬schema.flags.contains .dynamicExtras → tail = []) →
      (s.fields.map VMNamedDynamicVariable.name).Nodup →
      (∀ f ∈ s.fields, HeldAt (schema.fields.zip chunks) tail f) →
      Held .struct (some schema) (.struct s) (chunks.flatten ++ tail)
  | arrayStruct {schema : Option VMStructSchema} {a : VMStructArray} {head : Bytes}
      {chunks : List Bytes} : a.structs.length = chunks.length →
      (∀ p ∈ a.structs.zip chunks,
        Held .struct (some (schema.getD a.schema)) (.struct p.1) p.2) →
      Held .arrayStruct schema (.arrayStruct a) (head ++ chunks.flatten)

/-- A variable, under its own type. -/
inductive HeldVariable : VMDynamicVariable → Bytes → Prop
  | mk {v : VMDynamicVariable} {body : Bytes} : Held v.vmType none v.data body →
      HeldVariable v (write1 v.vmType.code ++ body)

/-- A variable somewhere among the bytes, after its name. -/
inductive HeldNamed : VMNamedDynamicVariable → Bytes → Prop
  | mk {f : VMNamedDynamicVariable} {name enc bytes : Bytes} : writeCarbon f.name = .ok name →
      HeldVariable f.value enc → name ++ enc <:+: bytes → HeldNamed f bytes

/-- A field of a struct laid out by a schema: at its place, or with those that have none. -/
inductive HeldAt :
    List (VMNamedVariableSchema × Bytes) → Bytes → VMNamedDynamicVariable → Prop
  | place {places : List (VMNamedVariableSchema × Bytes)} {tail : Bytes}
      {f : VMNamedDynamicVariable} {field : VMNamedVariableSchema} {chunk : Bytes} :
      (field, chunk) ∈ places → field.name = f.name →
      Held field.schema.vmType field.schema.structDef f.value.data chunk →
      HeldAt places tail f
  | extra {places : List (VMNamedVariableSchema × Bytes)} {tail : Bytes}
      {f : VMNamedDynamicVariable} : (∀ p ∈ places, p.1.name ≠ f.name) →
      HeldNamed f tail → HeldAt places tail f

end

mutual

/-- The value is of the type and the schema, with all that is in it. -/
inductive Whole : VMType → Option VMStructSchema → VMValue → Prop
  | leaf {vmType : VMType} {schema : Option VMStructSchema} {data : VMValue} :
      data.HasForm vmType → Whole vmType schema data
  | dynamic {schema : Option VMStructSchema} {v : VMDynamicVariable} :
      Whole v.vmType none v.data → Whole .dynamic schema (.dynamic v)
  | arrayDynamic {schema : Option VMStructSchema} {values : List VMDynamicVariable} :
      (∀ v ∈ values, Whole v.vmType none v.data) → Whole .arrayDynamic schema (.arrayDynamic values)
  | struct {s : VMDynamicStruct} : (∀ f ∈ s.fields, Whole f.value.vmType none f.value.data) →
      Whole .struct none (.struct s)
  | structAt {schema : VMStructSchema} {s : VMDynamicStruct} :
      (s.fields.map VMNamedDynamicVariable.name).Nodup →
      (∀ f ∈ s.fields, WholeAt schema f) →
      Whole .struct (some schema) (.struct s)
  | arrayStruct {schema : Option VMStructSchema} {a : VMStructArray} :
      (∀ s ∈ a.structs, Whole .struct (some (schema.getD a.schema)) (.struct s)) →
      Whole .arrayStruct schema (.arrayStruct a)

/-- The schema has a place for a field, or allows for others. -/
inductive WholeAt : VMStructSchema → VMNamedDynamicVariable → Prop
  | place {schema : VMStructSchema} {f : VMNamedDynamicVariable} {field : VMNamedVariableSchema} :
      field ∈ schema.fields → field.name = f.name →
      Whole field.schema.vmType field.schema.structDef f.value.data → WholeAt schema f
  | extra {schema : VMStructSchema} {f : VMNamedDynamicVariable} :
      (∀ field ∈ schema.fields, field.name ≠ f.name) → schema.flags.contains .dynamicExtras →
      Whole f.value.vmType none f.value.data → WholeAt schema f

end

/-! ## What is written of a value -/

theorem VMValue.writeStatic_of_hasForm {data : VMValue} {vmType : VMType} (h : data.HasForm vmType)
    (schema : Option VMStructSchema) : data.writeStatic vmType schema = data.writeLeaf vmType := by
  rw [writeStatic.eq_def]
  cases vmType with
  | dynamic | struct | arrayDynamic | arrayStruct => cases data <;> exact h.elim
  | _ => rfl

/-- Bytes that hold a value hold a whole one, and what is written of a whole value holds it. -/
def Tells (data : VMValue) : Prop :=
  ∀ (vmType : VMType) (schema : Option VMStructSchema) (bytes : Bytes),
    (Held vmType schema data bytes → Whole vmType schema data) ∧
      (data.writeStatic vmType schema = .ok bytes → Whole vmType schema data →
        Held vmType schema data bytes)

namespace Tells

/-! ### Variables and fields -/

theorem whole {v : VMDynamicVariable} (h : Tells v.data) {bytes : Bytes}
    (hheld : HeldVariable v bytes) : Whole v.vmType none v.data := by
  rcases hheld with ⟨hbody⟩
  exact (h _ _ _).1 hbody

theorem held {v : VMDynamicVariable} (h : Tells v.data) {bytes : Bytes}
    (hw : v.write = .ok bytes) (hwhole : Whole v.vmType none v.data) : HeldVariable v bytes := by
  rw [VMDynamicVariable.write_eq] at hw
  obtain ⟨body, hbody, hw⟩ := bind_eq_ok.1 hw
  obtain rfl := Except.ok.inj hw
  exact .mk ((h _ _ _).2 hbody hwhole)

theorem whole_named {f : VMNamedDynamicVariable} (h : Tells f.value.data) {bytes : Bytes}
    (hheld : HeldNamed f bytes) : Whole f.value.vmType none f.value.data := by
  rcases hheld with ⟨-, hvalue, -⟩
  exact h.whole hvalue

/-- A named variable is written with its name before it. -/
theorem held_named {f : VMNamedDynamicVariable} (h : Tells f.value.data) {enc bytes : Bytes}
    (hw : f.fieldWriter.write = .ok enc) (hin : enc <:+: bytes)
    (hwhole : Whole f.value.vmType none f.value.data) : HeldNamed f bytes := by
  rw [VMNamedDynamicVariable.fieldWriter_eq] at hw
  obtain ⟨name, hname, hw⟩ := bind_eq_ok.1 hw
  obtain ⟨body, hbody, hw⟩ := bind_eq_ok.1 hw
  obtain rfl := Except.ok.inj hw
  rw [List.append_assoc] at hin
  exact .mk hname (.mk ((h _ _ _).2 hbody hwhole)) hin

/-! ### Structs -/

theorem whole_structAt {s : VMDynamicStruct} (h : ∀ f ∈ s.fields, Tells f.value.data)
    {schema : VMStructSchema} {bytes : Bytes}
    (hheld : Held .struct (some schema) (.struct s) bytes) :
    Whole .struct (some schema) (.struct s) := by
  cases hheld with
  | leaf hform => exact hform.elim
  | structAt hlength htail hnodup hfields =>
    refine .structAt hnodup fun f hf => ?_
    rcases hfields f hf with ⟨hplace, hname, hvalue⟩ | ⟨hother, hextra⟩
    · exact .place (List.of_mem_zip hplace).1 hname ((h f hf _ _ _).1 hvalue)
    · refine .extra (fun field hmem => ?_) ?_ ((h f hf).whole_named hextra)
      · obtain ⟨chunk, hplace⟩ := exists_mem_zip hlength hmem
        exact hother _ hplace
      · -- Without the flag nothing follows the chunks.
        by_contra hflag
        rw [htail hflag] at hextra
        rcases hextra with ⟨-, ⟨-⟩, hin⟩
        simp [write1] at hin

theorem held_structAt {s : VMDynamicStruct} (h : ∀ f ∈ s.fields, Tells f.value.data)
    {schema : VMStructSchema} {bytes : Bytes} (hw : s.writeWithSchema schema = .ok bytes)
    (hwhole : Whole .struct (some schema) (.struct s)) :
    Held .struct (some schema) (.struct s) bytes := by
  cases hwhole with
  | leaf hform => exact hform.elim
  | structAt hnodup hfields =>
    obtain ⟨chunks, tail, hlaid⟩ := VMDynamicStruct.exists_laidOut hw
    have htail := hlaid.tail_eq hw
    rw [hlaid.bytes_eq]
    refine .structAt (mapM_eq_ok.1 hlaid.chunks_eq).length_eq (fun hflag => ?_) hnodup
      fun f hf => ?_
    · rwa [if_neg hflag] at htail
    rcases hfields f hf with ⟨hmem, hname, hvalue⟩ | ⟨hother, hflag, hvalue⟩
    · obtain ⟨chunk, hplace, hchunk⟩ := hlaid.exists_mem hmem
      -- Where no name is repeated, what the schema's field finds is the field itself.
      have hfind := find?_of_nodup hnodup hf
      rw [← hname] at hfind
      rw [VMDynamicStruct.writeField_eq hfind] at hchunk
      exact .place hplace hname ((h f hf _ _ _).2 hchunk hvalue)
    · rw [if_pos hflag] at htail
      have hextra : f ∈ s.extras schema := VMDynamicStruct.mem_extras_iff.2 ⟨hf, hother⟩
      obtain ⟨enc, henc, hin⟩ := exists_infix_of_writeArray htail (List.mem_map_of_mem hextra)
      exact .extra (fun p hplace => hother _ (List.of_mem_zip hplace).1)
        ((h f hf).held_named henc hin hvalue)

/-- A struct that is not laid out by a schema has all of its fields under their names. -/
theorem held_struct {s : VMDynamicStruct} (h : ∀ f ∈ s.fields, Tells f.value.data) {bytes : Bytes}
    (hw : (VMValue.struct s).writeStatic .struct none = .ok bytes)
    (hwhole : Whole .struct none (.struct s)) : Held .struct none (.struct s) bytes := by
  cases hwhole with
  | leaf hform => exact hform.elim
  | struct hfields =>
    rw [VMValue.writeStatic.eq_def] at hw
    simp only at hw
    rw [s.fieldWriters_eq] at hw
    refine .struct fun f hf => ?_
    have hmem : f.fieldWriter ∈ sortByName FieldWriter.name
        (s.fields.map VMNamedDynamicVariable.fieldWriter) :=
      (List.perm_insertionSort _ _).mem_iff.2 (List.mem_map_of_mem hf)
    obtain ⟨enc, henc, hin⟩ := exists_infix_of_writeArray hw hmem
    exact (h f hf).held_named henc hin (hfields f hf)

theorem struct {s : VMDynamicStruct} (h : ∀ f ∈ s.fields, Tells f.value.data) :
    Tells (.struct s) := by
  intro vmType schema bytes
  constructor
  · intro hheld
    cases hheld with
    | leaf hform => exact .leaf hform
    | struct hfields => exact .struct fun f hf => (h f hf).whole_named (hfields f hf)
    | structAt hlength htail hnodup hfields =>
      exact whole_structAt h (.structAt hlength htail hnodup hfields)
  · intro hw hwhole
    cases hwhole with
    | leaf hform =>
      rw [VMValue.writeStatic_of_hasForm hform] at hw
      exact .leaf hform hw
    | struct hfields => exact held_struct h hw (.struct hfields)
    | structAt hnodup hfields =>
      rw [VMValue.writeStatic.eq_def] at hw
      exact held_structAt h hw (.structAt hnodup hfields)

/-! ### Values of variables and of structs -/

theorem dynamic {v : VMDynamicVariable} (h : Tells v.data) : Tells (.dynamic v) := by
  intro vmType schema bytes
  constructor
  · intro hheld
    cases hheld with
    | leaf hform => exact .leaf hform
    | dynamic hv => exact .dynamic (h.whole hv)
  · intro hw hwhole
    cases hwhole with
    | leaf hform =>
      rw [VMValue.writeStatic_of_hasForm hform] at hw
      exact .leaf hform hw
    | dynamic hv =>
      rw [VMValue.writeStatic.eq_def] at hw
      exact .dynamic (h.held hw hv)

theorem arrayDynamic {values : List VMDynamicVariable} (h : ∀ v ∈ values, Tells v.data) :
    Tells (.arrayDynamic values) := by
  intro vmType schema bytes
  constructor
  · intro hheld
    cases hheld with
    | leaf hform => exact .leaf hform
    | arrayDynamic hlength hvalues =>
      refine .arrayDynamic fun v hv => ?_
      obtain ⟨chunk, hp⟩ := exists_mem_zip hlength hv
      exact (h v hv).whole (hvalues _ hp)
  · intro hw hwhole
    cases hwhole with
    | leaf hform =>
      rw [VMValue.writeStatic_of_hasForm hform] at hw
      exact .leaf hform hw
    | arrayDynamic hvalues =>
      rw [VMValue.writeStatic.eq_def] at hw
      simp only at hw
      rw [writeVariables_eq] at hw
      obtain ⟨len, -, hw⟩ := bind_eq_ok.1 hw
      obtain ⟨chunks, hchunks, hw⟩ := bind_eq_ok.1 hw
      obtain rfl := Except.ok.inj hw
      have hall := mapM_eq_ok.1 hchunks
      refine .arrayDynamic hall.length_eq fun p hp => ?_
      have hv := (List.of_mem_zip hp).1
      exact (h _ hv).held (List.forall₂_zip hall hp) (hvalues _ hv)

theorem arrayStruct {a : VMStructArray}
    (h : ∀ s ∈ a.structs, ∀ f ∈ s.fields, Tells f.value.data) : Tells (.arrayStruct a) := by
  intro vmType schema bytes
  constructor
  · intro hheld
    cases hheld with
    | leaf hform => exact .leaf hform
    | arrayStruct hlength hstructs =>
      refine .arrayStruct fun s hs => ?_
      obtain ⟨chunk, hp⟩ := exists_mem_zip hlength hs
      exact whole_structAt (h s hs) (hstructs _ hp)
  · intro hw hwhole
    cases hwhole with
    | leaf hform =>
      rw [VMValue.writeStatic_of_hasForm hform] at hw
      exact .leaf hform hw
    | arrayStruct hstructs =>
      obtain ⟨chunks, head, hchunks, rfl⟩ := VMStructArray.exists_chunks hw
      have hall := mapM_eq_ok.1 hchunks
      refine .arrayStruct hall.length_eq fun p hp => ?_
      have hs := (List.of_mem_zip hp).1
      exact held_structAt (h _ hs) (List.forall₂_zip hall hp) (hstructs _ hs)

end Tells

theorem tells (data : VMValue) : Tells data := by
  induction data using VMValue.induction with
  | dynamic v h => exact .dynamic h
  | struct s h => exact .struct h
  | arrayDynamic values h => exact .arrayDynamic h
  | arrayStruct a h => exact .arrayStruct h
  | leaf data hd hs ha hst =>
    intro vmType schema bytes
    constructor
    · intro hheld
      cases hheld with
      | leaf hform => exact .leaf hform
      | dynamic => exact absurd rfl (hd _)
      | struct | structAt => exact absurd rfl (hs _)
      | arrayDynamic => exact absurd rfl (ha _)
      | arrayStruct => exact absurd rfl (hst _)
    · intro hw hwhole
      cases hwhole with
      | leaf hform =>
        rw [VMValue.writeStatic_of_hasForm hform] at hw
        exact .leaf hform hw
      | dynamic => exact absurd rfl (hd _)
      | struct | structAt => exact absurd rfl (hs _)
      | arrayDynamic => exact absurd rfl (ha _)
      | arrayStruct => exact absurd rfl (hst _)

theorem Held.whole {vmType : VMType} {schema : Option VMStructSchema} {data : VMValue}
    {bytes : Bytes} (h : Held vmType schema data bytes) : Whole vmType schema data :=
  (tells data _ _ _).1 h

/-- What is written of a value holds all of it iff the value is whole. -/
theorem held_iff_whole {vmType : VMType} {schema : Option VMStructSchema} {data : VMValue}
    {bytes : Bytes} (hw : data.writeStatic vmType schema = .ok bytes) :
    Held vmType schema data bytes ↔ Whole vmType schema data :=
  ⟨Held.whole, (tells data _ _ _).2 hw⟩

end PhantasmaSdk
