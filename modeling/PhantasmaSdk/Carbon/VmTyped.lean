import PhantasmaSdk.Carbon.VmLeaf
import PhantasmaSdk.Codec.Extent

/-!
# Well-typed VM values

A value is well typed at a type, and at the schema that lays out its structs if
one is given (`VMValue.Fits`): it has the form of the type, its structs are sorted
by name, and a struct laid out by a schema has one value for each field of the
schema, of the type the schema gives it, and others only where the schema allows
for them (`VMDynamicStruct.Conforms`).

An array of structs is read only where as many bytes follow its count as it has
structs, although a struct may be written in none. `VMValue.extent` says how many
bytes must follow what is written of a value for it to be read.
-/

namespace PhantasmaSdk

open Codec CarbonWriter

/-! ## Well-typed values -/

namespace VMStructSchema

/-- The schema gives its field of that name the definition, if any. -/
def defOf (schema : VMStructSchema) (name : SmallString) : Option VMStructSchema :=
  (schema.fields.find? (·.name = name)).bind fun field => field.schema.structDef

/-- The names of the fields, at every depth, fit a `SmallString`. -/
inductive Named : VMStructSchema → Prop
  | mk {schema : VMStructSchema} (names : ∀ field ∈ schema.fields, (utf8 field.name.value).length < 256)
      (nested : ∀ field ∈ schema.fields, ∀ d, field.schema.structDef = some d → Named d) :
      Named schema

/-- Every struct takes at least one byte to write by the schema. -/
def Solid (schema : VMStructSchema) : Prop :=
  ∀ (s : VMDynamicStruct) (enc : Bytes), s.writeWithSchema schema = .ok enc → 1 ≤ enc.length

end VMStructSchema

namespace VMDynamicStruct

/-- Sorted by name. -/
def Sorted (s : VMDynamicStruct) : Prop :=
  s.fields.Pairwise fun f g => utf8 f.name.value ≤ utf8 g.name.value

/-- The fields the schema does not name. -/
def extras (s : VMDynamicStruct) (schema : VMStructSchema) : List VMNamedDynamicVariable :=
  s.fields.filter fun f => ¬schema.fields.any (·.name = f.name)

/-- The struct has one field for each of the schema, of its type, and others only
    where the schema allows for them. -/
structure Conforms (s : VMDynamicStruct) (schema : VMStructSchema) : Prop where
  nodup_schema : (schema.fields.map VMNamedVariableSchema.name).Nodup
  nodup : (s.fields.map VMNamedDynamicVariable.name).Nodup
  present : ∀ field ∈ schema.fields, ∃ f ∈ s.fields, f.name = field.name ∧
    f.value.vmType = field.schema.vmType
  allowed : s.extras schema ≠ [] → schema.flags.contains .dynamicExtras
  names : ∀ f ∈ s.extras schema, (utf8 f.name.value).length < 256
  length_extras : (s.extras schema).length < 2 ^ 31

end VMDynamicStruct

/-- The values well typed at a type and a schema, where the schema an array of
    structs carries itself is `own`. -/
inductive VMValue.Fits (own : VMStructSchema → Prop) :
    VMValue → VMType → Option VMStructSchema → Prop
  | leaf {data : VMValue} {vmType : VMType} {schema : Option VMStructSchema}
      (h : data.FitsLeaf vmType) : Fits own data vmType schema
  | dynamic {value : VMDynamicVariable} {schema : Option VMStructSchema}
      (h : Fits own value.data value.vmType .none) : Fits own (.dynamic value) .dynamic schema
  | struct {value : VMDynamicStruct} (hs : value.Sorted) (hl : value.fields.length < 2 ^ 31)
      (names : ∀ f ∈ value.fields, (utf8 f.name.value).length < 256)
      (h : ∀ f ∈ value.fields, Fits own f.value.data f.value.vmType .none) :
      Fits own (.struct value) .struct .none
  | structAt {value : VMDynamicStruct} {schema : VMStructSchema} (hs : value.Sorted)
      (hc : value.Conforms schema)
      (h : ∀ f ∈ value.fields, Fits own f.value.data f.value.vmType (schema.defOf f.name)) :
      Fits own (.struct value) .struct (some schema)
  | arrayDynamic {values : List VMDynamicVariable} {schema : Option VMStructSchema}
      (hl : values.length < 2 ^ 31) (h : ∀ v ∈ values, Fits own v.data v.vmType .none) :
      Fits own (.arrayDynamic values) .arrayDynamic schema
  | arrayStruct {value : VMStructArray} {schema : Option VMStructSchema}
      (hl : value.structs.length < 2 ^ 31) (hown : schema = .none → own value.schema ∧ value.schema.Named)
      (hat : ∀ given, schema = some given → value.schema = given)
      (hs : ∀ s ∈ value.structs, s.Sorted) (hc : ∀ s ∈ value.structs, s.Conforms value.schema)
      (h : ∀ s ∈ value.structs, ∀ f ∈ s.fields,
        Fits own f.value.data f.value.vmType (value.schema.defOf f.name)) :
      Fits own (.arrayStruct value) .arrayStruct schema

/-- A variable whose value is well typed at its own type, with any schemas. -/
def VMDynamicVariable.WellTyped (v : VMDynamicVariable) : Prop :=
  v.data.Fits (fun _ => True) v.vmType none

/-- `P` holds of the schema of every array of structs, at any depth. -/
inductive VMValue.Schemas (P : VMStructSchema → Prop) : VMValue → Prop
  | dynamic {value : VMDynamicVariable} (h : Schemas P value.data) : Schemas P (.dynamic value)
  | struct {value : VMDynamicStruct} (h : ∀ f ∈ value.fields, Schemas P f.value.data) :
      Schemas P (.struct value)
  | arrayDynamic {values : List VMDynamicVariable} (h : ∀ v ∈ values, Schemas P v.data) :
      Schemas P (.arrayDynamic values)
  | arrayStruct {value : VMStructArray} (hp : P value.schema)
      (h : ∀ s ∈ value.structs, ∀ f ∈ s.fields, Schemas P f.value.data) :
      Schemas P (.arrayStruct value)
  | leaf {data : VMValue} (hd : ∀ v, data ≠ .dynamic v) (hs : ∀ v, data ≠ .struct v)
      (ha : ∀ v, data ≠ .arrayDynamic v) (hst : ∀ v, data ≠ .arrayStruct v) : Schemas P data

/-! ## Extents -/

/-- How many bytes are written, if any. -/
def lengthOf (written : Result Bytes) : ℕ :=
  match written with
  | .ok enc => enc.length
  | .error _ => 0

@[simp] theorem lengthOf_ok (enc : Bytes) : lengthOf (.ok enc) = enc.length := rfl

/-- Of a list after its count, which is checked against the bytes that follow it. -/
def countedExtent (items : List Extent) : Extent := ⟨4, items.length⟩ ++ .concat items

/-- The extents of the variable of a field, at any type and schema. -/
structure FieldExtent where
  name : SmallString
  vmType : VMType
  extent : VMType → Option VMStructSchema → Extent

/-- Of a named variable, under its own type. -/
def FieldExtent.named (field : FieldExtent) : Extent :=
  .plain (lengthOf (writeCarbon field.name)) ++ (.plain 1 ++ field.extent field.vmType none)

/-- Of a field a schema asks for. -/
def extentOfField (fields : List FieldExtent) (field : VMNamedVariableSchema) : Extent :=
  match fields.find? (·.name = field.name) with
  | some f => f.extent field.schema.vmType field.schema.structDef
  | none => .plain (lengthOf (writeDefault field.schema.vmType field.schema.structDef))

/-- Of a struct by a schema: its fields in the order of the schema, then the others. -/
def extentWithSchema (fields : List FieldExtent) (schema : VMStructSchema) : Extent :=
  let body := schema.fields.map (extentOfField fields)
  let extras := fields.filter fun f => ¬schema.fields.any (·.name = f.name)
  if schema.flags.contains .dynamicExtras then
    .concat body ++ countedExtent (extras.map FieldExtent.named)
  else .concat body

mutual

/-- Of what is written of a value at a type and a schema. -/
def VMValue.extent (data : VMValue) (vmType : VMType) (schema : Option VMStructSchema) : Extent :=
  match data with
  | .dynamic value => value.extent
  | .struct value =>
    match schema with
    | some schema => extentWithSchema value.fieldExtents schema
    | none => countedExtent (value.fieldExtents.map FieldExtent.named)
  | .arrayDynamic values => countedExtent (variableExtents values)
  | .arrayStruct value => value.extent schema
  | data => .plain (lengthOf (data.writeLeaf vmType))

def VMDynamicVariable.extent (value : VMDynamicVariable) : Extent :=
  match value with
  | ⟨vmType, data⟩ => .plain 1 ++ data.extent vmType none

def variableExtents (values : List VMDynamicVariable) : List Extent :=
  match values with
  | [] => []
  | value :: values => value.extent :: variableExtents values

def VMNamedDynamicVariable.fieldExtent (field : VMNamedDynamicVariable) : FieldExtent :=
  match field with
  | ⟨name, ⟨vmType, data⟩⟩ => ⟨name, vmType, fun vmType schema => data.extent vmType schema⟩

def fieldExtents (fields : List VMNamedDynamicVariable) : List FieldExtent :=
  match fields with
  | [] => []
  | field :: fields => field.fieldExtent :: fieldExtents fields

def VMDynamicStruct.fieldExtents (value : VMDynamicStruct) : List FieldExtent :=
  match value with
  | ⟨fields⟩ => PhantasmaSdk.fieldExtents fields

def structExtents (structs : List VMDynamicStruct) (schema : VMStructSchema) : List Extent :=
  match structs with
  | [] => []
  | value :: structs => extentWithSchema value.fieldExtents schema :: structExtents structs schema

/-- Of an array of structs: the count, the array's own schema unless one is given,
    and the structs. -/
def VMStructArray.extent (value : VMStructArray) (schema : Option VMStructSchema) : Extent :=
  match value with
  | ⟨own, structs⟩ =>
    let head := match schema with
      | some _ => 0
      | none => lengthOf own.write
    ⟨4, structs.length⟩ ++ (.plain head ++ .concat (structExtents structs (schema.getD own)))

end

end PhantasmaSdk
