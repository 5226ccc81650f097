import PhantasmaSdk.Carbon.Payload

/-!
# Schemas of VM values

The types of the VM's values, and the schemas that give the fields of a struct
their types. A schema is itself written to the wire, and nests: a field of a
struct type carries the schema of that struct.

A schema is read back when it is *normal*: it has a nested schema exactly where
one is written, and no field of the type `Array`, which shares the code of
another.
-/

namespace PhantasmaSdk

open Codec Codec.Decoder CarbonWriter CarbonReader

/-! ## Types -/

inductive VMType
  | dynamic
  | array
  | bytes
  | struct
  | int8
  | int16
  | int32
  | int64
  | int256
  | bytes16
  | bytes32
  | bytes64
  | string
  | arrayDynamic
  | arrayBytes
  | arrayStruct
  | arrayInt8
  | arrayInt16
  | arrayInt32
  | arrayInt64
  | arrayInt256
  | arrayBytes16
  | arrayBytes32
  | arrayBytes64
  | arrayString
  deriving DecidableEq, Repr

namespace VMType

def code : VMType → UInt8
  | dynamic => 0
  | array | arrayDynamic => 1
  | bytes => 2
  | struct => 4
  | int8 => 6
  | int16 => 8
  | int32 => 10
  | int64 => 12
  | int256 => 14
  | bytes16 => 16
  | bytes32 => 18
  | bytes64 => 20
  | string => 22
  | arrayBytes => 3
  | arrayStruct => 5
  | arrayInt8 => 7
  | arrayInt16 => 9
  | arrayInt32 => 11
  | arrayInt64 => 13
  | arrayInt256 => 15
  | arrayBytes16 => 17
  | arrayBytes32 => 19
  | arrayBytes64 => 21
  | arrayString => 23

def tryFrom (value : UInt8) : Result VMType :=
  match value.toNat with
  | 0 => pure dynamic
  | 1 => pure arrayDynamic
  | 2 => pure bytes
  | 4 => pure struct
  | 6 => pure int8
  | 8 => pure int16
  | 10 => pure int32
  | 12 => pure int64
  | 14 => pure int256
  | 16 => pure bytes16
  | 18 => pure bytes32
  | 20 => pure bytes64
  | 22 => pure string
  | 3 => pure arrayBytes
  | 5 => pure arrayStruct
  | 7 => pure arrayInt8
  | 9 => pure arrayInt16
  | 11 => pure arrayInt32
  | 13 => pure arrayInt64
  | 15 => pure arrayInt256
  | 17 => pure arrayBytes16
  | 19 => pure arrayBytes32
  | 21 => pure arrayBytes64
  | 23 => pure arrayString
  | _ => serialization s!"unsupported VM dynamic type: {value}"

/-- A value of the type is laid out by a schema of its own. -/
def hasStruct (vmType : VMType) : Bool := vmType == struct || vmType == arrayStruct

/-- A code gives back its type, but for `Array`, whose code is that of
    `ArrayDynamic`. -/
theorem tryFrom_code {vmType : VMType} (h : vmType ≠ array) : tryFrom vmType.code = .ok vmType := by
  cases vmType <;> first | rfl | exact absurd rfl h

theorem tryFrom_ne_array {value : UInt8} {vmType : VMType} (h : tryFrom value = .ok vmType) :
    vmType ≠ array := by
  rintro rfl
  rw [tryFrom] at h
  split at h <;> cases h

/-- What a type is read from is its code. -/
theorem code_of_tryFrom {value : UInt8} {vmType : VMType} (h : tryFrom value = .ok vmType) :
    vmType.code = value := by
  revert h
  rw [← UInt8.ofNat_toNat (x := value)]
  generalize hn : value.toNat = n
  have hlt : n < 256 := hn ▸ value.toNat_lt
  rw [tryFrom]
  rw [UInt8.toNat_ofNat_of_lt' hlt]
  split <;> intro h <;> first | (cases h; rfl) | cases h

/-- The reader of a type. -/
def read : Reader VMType := do
  let value ← read1
  lift (tryFrom value)

theorem reads_read {vmType : VMType} (h : vmType ≠ array) : read.Reads (write1 vmType.code) vmType :=
  ((reads_read1 vmType.code).bind (reads_lift (tryFrom_code h))).congr (List.append_nil _).symm rfl

theorem yields_read : read.Yields fun vmType used =>
    vmType ≠ array ∧ used = write1 vmType.code := by
  refine yields_read1.bind fun value used h => yields_lift fun vmType ht => ?_
  subst h
  exact ⟨tryFrom_ne_array ht, by rw [code_of_tryFrom ht, List.append_nil]⟩

end VMType

/-! ## Schemas -/

structure VMStructFlags where
  bits : UInt8
  deriving DecidableEq, Repr

namespace VMStructFlags

def none : VMStructFlags := ⟨0⟩
def dynamicExtras : VMStructFlags := ⟨1⟩
def isSorted : VMStructFlags := ⟨2⟩

def contains (flags other : VMStructFlags) : Bool := flags.bits &&& other.bits == other.bits

end VMStructFlags

mutual

structure VMVariableSchema where
  vmType : VMType
  structDef : Option VMStructSchema

structure VMNamedVariableSchema where
  name : SmallString
  schema : VMVariableSchema

structure VMStructSchema where
  fields : List VMNamedVariableSchema
  flags : VMStructFlags

end

namespace VMStructSchema

/-- `VMStructSchema::default`: no fields, no flags. -/
def empty : VMStructSchema := ⟨[], .none⟩

/-- The schema of a field is smaller than the schema it is a field of. -/
theorem sizeOf_structDef_lt {schema nested : VMStructSchema} {field : VMNamedVariableSchema}
    (hf : field ∈ schema.fields) (hn : field.schema.structDef = some nested) :
    sizeOf nested < sizeOf schema := by
  obtain ⟨fields, flags⟩ := schema
  obtain ⟨name, ⟨vmType, structDef⟩⟩ := field
  have h := List.sizeOf_lt_of_mem hf
  simp only at hn
  subst hn
  simp at h ⊢
  omega

/-- Induction on schemas: a property of every schema is shown of a schema having
    it of the schemas of its fields. -/
theorem induction {P : VMStructSchema → Prop}
    (step : ∀ schema, (∀ field ∈ schema.fields, ∀ nested,
      field.schema.structDef = some nested → P nested) → P schema) (schema : VMStructSchema) :
    P schema := by
  induction hn : sizeOf schema using Nat.strong_induction_on generalizing schema with
  | _ n ih =>
    refine step schema fun field hf nested hd => ih (sizeOf nested) ?_ nested rfl
    exact hn ▸ sizeOf_structDef_lt hf hd

end VMStructSchema

/-! ## Writing and reading -/

/-- A struct schema of `count` fields, given as they are written: their number,
    they, and the flags. -/
def writeSchemaFields (count : ℕ) (fields : Result (List Bytes)) (flags : VMStructFlags) :
    Result Bytes := do
  let len ← ensureU32Len count
  let body ← fields
  pure (write4 len.toInt32 ++ body.flatten ++ write1 flags.bits)

mutual

def VMVariableSchema.write : VMVariableSchema → Result Bytes
  | ⟨vmType, structDef⟩ => do
    -- `struct_def.unwrap_or_default()`
    let body ← (if vmType.hasStruct then writeStructDef structDef else pure [] : Result Bytes)
    pure (write1 vmType.code ++ body)

def writeStructDef : Option VMStructSchema → Result Bytes
  | some schema => schema.write
  | none => writeSchemaFields 0 (pure []) .none

def VMNamedVariableSchema.write : VMNamedVariableSchema → Result Bytes
  | ⟨name, schema⟩ => do
    let head ← writeCarbon name
    let body ← schema.write
    pure (head ++ body)

def VMStructSchema.write : VMStructSchema → Result Bytes
  | ⟨fields, flags⟩ => writeSchemaFields fields.length (writeNamedVariableSchemas fields) flags

def writeNamedVariableSchemas : List VMNamedVariableSchema → Result (List Bytes)
  | [] => pure []
  | field :: fields => do
    let head ← field.write
    let body ← writeNamedVariableSchemas fields
    pure (head :: body)

end

/-- A variable's schema, its nested schema read by `readStruct`. -/
def VMVariableSchema.readWith (readStruct : Reader VMStructSchema) : Reader VMVariableSchema := do
  let vmType ← VMType.read
  if vmType.hasStruct then do
    let schema ← readStruct
    pure ⟨vmType, some schema⟩
  else pure ⟨vmType, none⟩

def VMNamedVariableSchema.readWith (readStruct : Reader VMStructSchema) :
    Reader VMNamedVariableSchema := do
  let name ← readCarbon
  let schema ← VMVariableSchema.readWith readStruct
  pure ⟨name, schema⟩

/-- A struct schema, read on a stack that holds `depth` nested calls. -/
def VMStructSchema.readAt : ℕ → Reader VMStructSchema
  | 0 => fail (.panic .stackOverflow)
  | depth + 1 => do
    let fields ← readReserved 1 (VMNamedVariableSchema.readWith (readAt depth))
    let bits ← read1
    pure ⟨fields, ⟨bits⟩⟩

/-- The source's reader with as much stack as it needs: no schema nests deeper than it has
    bytes. (On a stack that holds so many calls and no more, it is `readAt`.) -/
instance : CarbonSerializable VMStructSchema where
  writeCarbon := VMStructSchema.write
  readCarbon input := VMStructSchema.readAt (input.length + 1) input

theorem VMStructSchema.readCarbon_apply (input : Bytes) :
    (readCarbon : Reader VMStructSchema) input = readAt (input.length + 1) input := rfl

theorem VMStructSchema.run_readCarbon (input : Bytes) :
    (readCarbon : Reader VMStructSchema).run input = (readAt (input.length + 1)).run input := by
  rw [run, run, readCarbon_apply]

theorem writeNamedVariableSchemas_eq (fields : List VMNamedVariableSchema) :
    writeNamedVariableSchemas fields = fields.mapM VMNamedVariableSchema.write := by
  induction fields with
  | nil => rfl
  | cons field fields ih => rw [List.mapM_cons, writeNamedVariableSchemas, ih]

/-- A struct schema is written as the array of its fields and its flags. -/
theorem VMStructSchema.write_eq_ok {schema : VMStructSchema} {enc : Bytes} :
    schema.write = .ok enc ↔ ∃ body, writeArray VMNamedVariableSchema.write schema.fields = .ok body ∧
      enc = body ++ write1 schema.flags.bits := by
  obtain ⟨fields, flags⟩ := schema
  rw [VMStructSchema.write, writeSchemaFields, writeNamedVariableSchemas_eq, writeArray]
  simp only [bind_eq_ok, pure_eq_ok, Except.ok.injEq]
  constructor
  · rintro ⟨len, hlen, body, hbody, rfl⟩
    exact ⟨_, ⟨len, hlen, body, hbody, rfl⟩, rfl⟩
  · rintro ⟨_, ⟨len, hlen, body, hbody, rfl⟩, rfl⟩
    exact ⟨len, hlen, body, hbody, rfl⟩

theorem VMVariableSchema.write_eq_ok {schema : VMVariableSchema} {enc : Bytes} :
    schema.write = .ok enc ↔ ∃ body,
      (if schema.vmType.hasStruct then writeStructDef schema.structDef else pure []) = .ok body ∧
        enc = write1 schema.vmType.code ++ body := by
  obtain ⟨vmType, structDef⟩ := schema
  rw [VMVariableSchema.write]
  simp only [bind_eq_ok, pure_eq_ok, Except.ok.injEq]
  exact exists_congr fun body => and_congr_right' eq_comm

theorem VMNamedVariableSchema.write_eq_ok {field : VMNamedVariableSchema} {enc : Bytes} :
    field.write = .ok enc ↔ ∃ head body, writeCarbon field.name = .ok head ∧
      field.schema.write = .ok body ∧ enc = head ++ body := by
  obtain ⟨name, schema⟩ := field
  rw [VMNamedVariableSchema.write]
  simp only [bind_eq_ok, pure_eq_ok, Except.ok.injEq]
  constructor
  · rintro ⟨head, hhead, body, hbody, rfl⟩
    exact ⟨head, body, hhead, hbody, rfl⟩
  · rintro ⟨head, body, hhead, hbody, rfl⟩
    exact ⟨head, hhead, body, hbody, rfl⟩

/-! ## Normal schemas -/

mutual

/-- A nested schema stands exactly where one is written, and the type is not one
    whose code is another's. -/
def VMVariableSchema.Normal : VMVariableSchema → Prop
  | ⟨vmType, structDef⟩ => vmType ≠ .array ∧
    match structDef with
    | some schema => vmType.hasStruct ∧ schema.Normal
    | none => ¬vmType.hasStruct

def VMNamedVariableSchema.Normal : VMNamedVariableSchema → Prop
  | ⟨_, schema⟩ => schema.Normal

/-- Normal at every depth, each struct with fewer fields than an `i32` counts. -/
def VMStructSchema.Normal : VMStructSchema → Prop
  | ⟨fields, _⟩ => fields.length < 2 ^ 31 ∧ normalFields fields

def normalFields : List VMNamedVariableSchema → Prop
  | [] => True
  | field :: fields => field.Normal ∧ normalFields fields

end

theorem normalFields_iff (fields : List VMNamedVariableSchema) :
    normalFields fields ↔ ∀ field ∈ fields, field.schema.Normal := by
  induction fields with
  | nil => simp [normalFields]
  | cons field fields ih =>
    obtain ⟨name, schema⟩ := field
    rw [normalFields, ih, VMNamedVariableSchema.Normal, List.forall_mem_cons]

theorem VMStructSchema.normal_iff {schema : VMStructSchema} : schema.Normal ↔
    schema.fields.length < 2 ^ 31 ∧ ∀ field ∈ schema.fields, field.schema.Normal := by
  obtain ⟨fields, flags⟩ := schema
  rw [VMStructSchema.Normal, normalFields_iff]

theorem VMVariableSchema.normal_iff {schema : VMVariableSchema} : schema.Normal ↔
    schema.vmType ≠ .array ∧ (schema.vmType.hasStruct ↔ schema.structDef.isSome) ∧
      ∀ nested, schema.structDef = some nested → nested.Normal := by
  obtain ⟨vmType, structDef⟩ := schema
  cases structDef with
  | none => simp [VMVariableSchema.Normal]
  | some nested => simp [VMVariableSchema.Normal]

mutual

/-- How deep schemas nest. -/
def VMVariableSchema.depth : VMVariableSchema → ℕ
  | ⟨_, structDef⟩ => depthOf structDef

def depthOf : Option VMStructSchema → ℕ
  | some schema => schema.depth
  | none => 0

def VMNamedVariableSchema.depth : VMNamedVariableSchema → ℕ
  | ⟨_, schema⟩ => schema.depth

def VMStructSchema.depth : VMStructSchema → ℕ
  | ⟨fields, _⟩ => depthFields fields + 1

def depthFields : List VMNamedVariableSchema → ℕ
  | [] => 0
  | field :: fields => max field.depth (depthFields fields)

end

theorem depth_le_depthFields {field : VMNamedVariableSchema} {fields : List VMNamedVariableSchema}
    (h : field ∈ fields) : depthOf field.schema.structDef ≤ depthFields fields := by
  induction fields with
  | nil => cases h
  | cons head fields ih =>
    rw [depthFields]
    rcases List.mem_cons.1 h with rfl | h
    · obtain ⟨name, ⟨vmType, structDef⟩⟩ := field
      exact le_max_left _ _
    · exact (ih h).trans (le_max_right _ _)

/-- The schema of a field nests less deep than the schema it is a field of. -/
theorem VMStructSchema.depth_lt {schema : VMStructSchema} {field : VMNamedVariableSchema}
    (h : field ∈ schema.fields) : depthOf field.schema.structDef < schema.depth := by
  obtain ⟨fields, flags⟩ := schema
  rw [VMStructSchema.depth]
  exact Nat.lt_succ_of_le (depth_le_depthFields h)

/-! ## Reading schemas back -/

theorem VMStructSchema.lt_length_write {schema : VMStructSchema} {enc : Bytes}
    (hw : schema.write = .ok enc) : 4 < enc.length := by
  obtain ⟨body, hbody, rfl⟩ := write_eq_ok.1 hw
  have := le_length_writeArray hbody
  rw [List.length_append, write1, List.length_singleton]
  omega

/-- A nested schema is written in fewer bytes than the schema it is nested in. -/
theorem VMStructSchema.length_nested_lt {schema nested : VMStructSchema} {enc : Bytes}
    (hw : schema.write = .ok enc) {field : VMNamedVariableSchema} (hf : field ∈ schema.fields)
    (hn : field.schema.structDef = some nested) (hs : field.schema.vmType.hasStruct) :
    ∃ e, nested.write = .ok e ∧ e.length < enc.length := by
  obtain ⟨body, hbody, rfl⟩ := write_eq_ok.1 hw
  obtain ⟨e, he, hle⟩ := length_le_writeArray hbody hf
  obtain ⟨head, tail, _, htail, rfl⟩ := VMNamedVariableSchema.write_eq_ok.1 he
  obtain ⟨e, hnest, rfl⟩ := VMVariableSchema.write_eq_ok.1 htail
  rw [if_pos hs, hn, writeStructDef] at hnest
  refine ⟨e, hnest, ?_⟩
  simp only [List.length_append] at hle ⊢
  omega

theorem VMVariableSchema.reads_readWith {schema : VMVariableSchema} {enc : Bytes}
    (readStruct : Reader VMStructSchema) (hn : schema.Normal) (hw : schema.write = .ok enc)
    (hread : ∀ nested e, schema.structDef = some nested → schema.vmType.hasStruct →
      nested.write = .ok e → readStruct.Reads e nested) :
    (readWith readStruct).Reads enc schema := by
  obtain ⟨body, hbody, rfl⟩ := write_eq_ok.1 hw
  obtain ⟨harray, hdef, -⟩ := normal_iff.1 hn
  obtain ⟨vmType, structDef⟩ := schema
  refine (VMType.reads_read harray).bind ?_
  cases structDef with
  | none =>
    rw [if_neg (by simp [hdef])] at hbody ⊢
    obtain rfl := Except.ok.inj hbody
    exact reads_pure _
  | some nested =>
    have hs : vmType.hasStruct := by simp [hdef]
    rw [if_pos hs] at hbody ⊢
    exact (hread nested body rfl hs hbody).map fun schema => VMVariableSchema.mk vmType (some schema)

/-- A normal schema is read back, by a stack that holds as many calls as it has
    bytes. -/
theorem VMStructSchema.reads_readAt (schema : VMStructSchema) : ∀ {enc : Bytes} {depth : ℕ},
    schema.Normal → schema.write = .ok enc → enc.length < depth →
      (readAt depth).Reads enc schema := by
  induction schema using VMStructSchema.induction with
  | step schema ih =>
    intro enc depth hn hw hd
    obtain ⟨depth, rfl⟩ := Nat.exists_eq_succ_of_ne_zero (Nat.ne_of_gt (Nat.zero_lt_of_lt hd))
    obtain ⟨hl, hfields⟩ := normal_iff.1 hn
    -- the fields are an array, read with the schemas nested in them one call deeper
    have helement : ∀ field ∈ schema.fields, ∀ e, field.write = .ok e →
        (VMNamedVariableSchema.readWith (readAt depth)).Reads e field ∧ 1 ≤ e.length := by
      intro field hf e he
      obtain ⟨head, tail, hhead, htail, rfl⟩ := VMNamedVariableSchema.write_eq_ok.1 he
      have hname := SmallString.lawful.reads _ _ trivial hhead
      have hpos := SmallString.lawful.length_le _ _ hhead
      have hschema := VMVariableSchema.reads_readWith (readAt depth)
        (hfields field hf) htail fun nested e hnest hs hwn => by
          obtain ⟨e', hwn', hlt⟩ := length_nested_lt hw hf hnest hs
          obtain rfl := Except.ok.inj (hwn.symm.trans hwn')
          exact ih field hf nested hnest ((VMVariableSchema.normal_iff.1 (hfields field hf)).2.2
            nested hnest) hwn (by omega)
      refine ⟨(hname.bind (hschema.map (VMNamedVariableSchema.mk field.name))).congr rfl
        (by cases field; rfl), ?_⟩
      rw [List.length_append]
      omega
    obtain ⟨body, hbody, rfl⟩ := write_eq_ok.1 hw
    have hbits := (reads_read1 schema.flags.bits).map fun bits =>
      VMStructSchema.mk schema.fields ⟨bits⟩
    exact ((reads_readReserved one_pos (by norm_num) hl helement hbody).bind hbits).congr rfl
      (by cases schema; rfl)

theorem VMStructSchema.reads_readCarbon {schema : VMStructSchema} {enc : Bytes}
    (hn : schema.Normal) (hw : schema.write = .ok enc) :
    (readCarbon : Reader VMStructSchema).Reads enc schema := by
  intro suffix
  rw [run_readCarbon]
  exact schema.reads_readAt hn hw (by rw [List.length_append]; omega) suffix

/-! ## What is read is normal -/

theorem VMVariableSchema.yields_readWith {readStruct : Reader VMStructSchema}
    (h : readStruct.Yields fun schema used => schema.Normal ∧ schema.write = .ok used) :
    (readWith readStruct).Yields fun schema used => schema.Normal ∧ schema.write = .ok used := by
  refine VMType.yields_read.bind fun vmType used ht => ?_
  obtain ⟨harray, rfl⟩ := ht
  split
  next hs =>
    refine h.bind fun nested used hn => yields_pure ?_
    obtain ⟨hn, hw⟩ := hn
    refine ⟨normal_iff.2 ⟨harray, by simp [hs], fun _ h => Option.some.inj h ▸ hn⟩,
      write_eq_ok.2 ⟨used, ?_, by rw [List.append_nil]⟩⟩
    rw [if_pos hs, writeStructDef, hw]
  next hs =>
    refine yields_pure ⟨normal_iff.2 ⟨harray, by simp [hs], by simp⟩, write_eq_ok.2 ⟨[], ?_, rfl⟩⟩
    rw [if_neg hs, pure_eq_ok]

/-- A schema that is read is normal, and was written so. -/
theorem VMStructSchema.yields_readAt (depth : ℕ) :
    (readAt depth).Yields fun schema used => schema.Normal ∧ schema.write = .ok used := by
  induction depth with
  | zero => exact yields_fail _ _
  | succ depth ih =>
    have hfield : (VMNamedVariableSchema.readWith (readAt depth)).Yields fun field used =>
        field.schema.Normal ∧ field.write = .ok used := by
      refine SmallString.lawful.yields.bind fun name used hname =>
        (VMVariableSchema.yields_readWith ih).bind fun schema used' hschema => yields_pure ?_
      obtain ⟨-, enc, henc, hused⟩ := hname
      obtain rfl := hused trivial
      refine ⟨hschema.1, VMNamedVariableSchema.write_eq_ok.2 ⟨enc, used', henc, hschema.2, ?_⟩⟩
      rw [List.append_nil]
    refine (yields_readReserved hfield 1).bind fun fields used hf => yields_read1.bind
      fun bits used' hb => yields_pure ?_
    obtain ⟨hl, useds, rfl, hall⟩ := hf
    subst hb
    refine ⟨normal_iff.2 ⟨hl, fun field hmem => ?_⟩, write_eq_ok.2
      ⟨_, writeArray_of_forall₂ (by simp only; omega) (hall.imp fun _ _ h => h.2), by simp⟩⟩
    obtain ⟨_, _, hn, _⟩ := exists_of_forall₂_mem hall hmem
    exact hn

theorem VMStructSchema.yields_readCarbon : (readCarbon : Reader VMStructSchema).Yields
    fun schema used => schema.Normal ∧ schema.write = .ok used := by
  intro input schema rest hrun
  rw [run_readCarbon] at hrun
  exact yields_readAt _ input schema rest hrun

/-- A schema nests less deep than it has bytes. -/
theorem VMStructSchema.depth_lt_length (schema : VMStructSchema) : ∀ {enc : Bytes},
    schema.Normal → schema.write = .ok enc → schema.depth < enc.length := by
  induction schema using VMStructSchema.induction with
  | step schema ih =>
    intro enc hn hw
    obtain ⟨hl, hfields⟩ := normal_iff.1 hn
    have hnested : ∀ field ∈ schema.fields, depthOf field.schema.structDef + 1 < enc.length := by
      intro field hf
      obtain ⟨-, hdef, hnormal⟩ := VMVariableSchema.normal_iff.1 (hfields field hf)
      cases hd : field.schema.structDef with
      | none =>
        have := lt_length_write hw
        rw [depthOf]
        omega
      | some nested =>
        obtain ⟨e, hwn, hlt⟩ := length_nested_lt hw hf hd (hdef.2 (by simp [hd]))
        have := ih field hf nested hd (hnormal nested hd) hwn
        rw [depthOf]
        omega
    have := lt_length_write hw
    obtain ⟨fields, flags⟩ := schema
    rw [depth]
    clear hw hn hl hfields ih
    induction fields with
    | nil => rw [depthFields]; omega
    | cons field fields ih =>
      have hhead := hnested field List.mem_cons_self
      have htail := ih fun f hf => hnested f (List.mem_cons_of_mem _ hf)
      obtain ⟨name, ⟨vmType, structDef⟩⟩ := field
      rw [depthFields, VMNamedVariableSchema.depth, VMVariableSchema.depth]
      simp only at hhead
      omega

end PhantasmaSdk
