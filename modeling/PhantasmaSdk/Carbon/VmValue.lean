import PhantasmaSdk.Carbon.VmSchema

/-!
# VM values

The values of VM variables, how they are written at a type and a schema, and how
they are read. A value is written at the type asked for, whatever it holds: what
does not hold a value of that type is written as the type's default.

A struct looks its fields up by name and writes each at the type its schema
gives it, so that a variable cannot be written before its type is known: writing
goes over a value once, giving for each field its writer (`FieldWriter`), and
the struct's schema is what calls them.
-/

namespace PhantasmaSdk

open Codec Codec.Decoder CarbonWriter CarbonReader

/-! ## Values -/

mutual

inductive VMValue
  | none
  | dynamic (value : VMDynamicVariable)
  | bytes (value : Bytes)
  | struct (value : VMDynamicStruct)
  | int (value : Int64)
  | int256 (value : ℤ)
  | bytes16 (value : Bytes16)
  | bytes32 (value : Bytes32)
  | bytes64 (value : Bytes64)
  | string (value : String)
  | arrayDynamic (values : List VMDynamicVariable)
  | arrayBytes (values : List Bytes)
  | arrayStruct (value : VMStructArray)
  | arrayInt8 (values : List Int8)
  | arrayInt16 (values : List Int16)
  | arrayInt32 (values : List Int32)
  | arrayInt64 (values : List Int64)
  | arrayInt256 (values : List ℤ)
  | arrayBytes16 (values : List Bytes16)
  | arrayBytes32 (values : List Bytes32)
  | arrayBytes64 (values : List Bytes64)
  | arrayString (values : List String)

structure VMDynamicVariable where
  vmType : VMType
  data : VMValue

structure VMNamedDynamicVariable where
  name : SmallString
  value : VMDynamicVariable

structure VMDynamicStruct where
  fields : List VMNamedDynamicVariable

structure VMStructArray where
  schema : VMStructSchema
  structs : List VMDynamicStruct

end

/-- Sorted by name, in the order of the UTF-8 bytes; those of one name keep their
    order. -/
def sortByName {α : Type} (name : α → SmallString) (values : List α) : List α :=
  values.insertionSort fun a b => utf8 (name a).value ≤ utf8 (name b).value

namespace VMDynamicStruct

def sort (s : VMDynamicStruct) : VMDynamicStruct :=
  ⟨sortByName VMNamedDynamicVariable.name s.fields⟩

def new (fields : List VMNamedDynamicVariable) : VMDynamicStruct := sort ⟨fields⟩

def get (s : VMDynamicStruct) (name : SmallString) : Option VMDynamicVariable :=
  (s.fields.find? (·.name = name)).map VMNamedDynamicVariable.value

end VMDynamicStruct

namespace VMValue

/-- Induction on values: a property of every value is shown of a value having it
    of the values it holds. -/
theorem induction {P : VMValue → Prop}
    (dynamic : ∀ value, P value.data → P (.dynamic value))
    (struct : ∀ value, (∀ f ∈ value.fields, P f.value.data) → P (.struct value))
    (arrayDynamic : ∀ values, (∀ v ∈ values, P v.data) → P (.arrayDynamic values))
    (arrayStruct : ∀ value, (∀ s ∈ value.structs, ∀ f ∈ s.fields, P f.value.data) →
      P (.arrayStruct value))
    (leaf : ∀ data, (∀ v, data ≠ .dynamic v) → (∀ v, data ≠ .struct v) →
      (∀ v, data ≠ .arrayDynamic v) → (∀ v, data ≠ .arrayStruct v) → P data)
    (data : VMValue) : P data := by
  induction hn : sizeOf data using Nat.strong_induction_on generalizing data with
  | _ n ih =>
    subst hn
    cases data with
    | dynamic value =>
      refine dynamic value (ih _ ?_ _ rfl)
      cases value; simp; omega
    | struct value =>
      refine struct value fun f hf => ih _ ?_ _ rfl
      obtain ⟨fields⟩ := value
      have := List.sizeOf_lt_of_mem hf
      obtain ⟨name, ⟨vmType, data⟩⟩ := f
      simp at this ⊢
      omega
    | arrayDynamic values =>
      refine arrayDynamic values fun v hv => ih _ ?_ _ rfl
      have := List.sizeOf_lt_of_mem hv
      cases v
      simp at this ⊢
      omega
    | arrayStruct value =>
      refine arrayStruct value fun s hs f hf => ih _ ?_ _ rfl
      obtain ⟨schema, structs⟩ := value
      have := List.sizeOf_lt_of_mem hs
      obtain ⟨fields⟩ := s
      have := List.sizeOf_lt_of_mem hf
      obtain ⟨name, ⟨vmType, data⟩⟩ := f
      simp at *
      omega
    | _ => exact leaf _ (by simp) (by simp) (by simp) (by simp)

def asI64 : VMValue → Int64
  | int value => value
  -- `to_i64().unwrap_or(0)`
  | int256 value => if -(2 ^ 63) ≤ value ∧ value < 2 ^ 63 then Int64.ofInt value else 0
  | _ => 0

def asBigInt : VMValue → ℤ
  | int value => value.toInt
  | int256 value => value
  | _ => 0

end VMValue

/-! ## Writing -/

/-- What is written of a value at a type whose values hold no variables. (Those
    that do are `VMValue.writeStatic`'s.) -/
def VMValue.writeLeaf (data : VMValue) (vmType : VMType) : Result Bytes :=
  match vmType with
  | .bytes => writeByteArray (match data with | .bytes value => value | _ => [])
  | .int8 => pure (write1 data.asI64.toInt8.toUInt8)
  | .int16 => pure (write2 data.asI64.toInt16)
  | .int32 => pure (write4 data.asI64.toInt32)
  | .int64 => pure (write8 data.asI64)
  | .int256 => writeBigInt data.asBigInt
  | .bytes16 => pure (write16 (match data with | .bytes16 value => value | _ => emptyBytes16))
  | .bytes32 => pure (write32 (match data with | .bytes32 value => value | _ => emptyBytes32))
  | .bytes64 => pure (write64 (match data with | .bytes64 value => value | _ => emptyBytes64))
  | .string => writeStringZ (match data with | .string value => value | _ => "")
  | .arrayBytes => writeByteArrays (match data with | .arrayBytes values => values | _ => [])
  | .arrayInt8 => writeI8Array (match data with | .arrayInt8 values => values | _ => [])
  | .arrayInt16 => writeI16Array (match data with | .arrayInt16 values => values | _ => [])
  | .arrayInt32 => writeI32Array (match data with | .arrayInt32 values => values | _ => [])
  | .arrayInt64 => writeI64Array (match data with | .arrayInt64 values => values | _ => [])
  | .arrayInt256 => writeBigIntArray (match data with | .arrayInt256 values => values | _ => [])
  | .arrayBytes16 => writeArray (fun value => pure (write16 value))
      (match data with | .arrayBytes16 values => values | _ => [])
  | .arrayBytes32 => writeArray (fun value => pure (write32 value))
      (match data with | .arrayBytes32 values => values | _ => [])
  | .arrayBytes64 => writeArray (fun value => pure (write64 value))
      (match data with | .arrayBytes64 values => values | _ => [])
  | .arrayString => writeStringZArray (match data with | .arrayString values => values | _ => [])
  | _ => serialization "unsupported VM dynamic type: Array"

/-- How the variable of a field is written: under its own type, and at any type
    and schema. -/
structure FieldWriter where
  name : SmallString
  vmType : VMType
  writeStatic : VMType → Option VMStructSchema → Result Bytes

/-- A named variable: its name, its own type, and its value at that type. -/
def FieldWriter.write (field : FieldWriter) : Result Bytes := do
  let name ← writeCarbon field.name
  let body ← field.writeStatic field.vmType none
  pure (name ++ write1 field.vmType.code ++ body)

def writeNamedDynamicVariables (fields : List FieldWriter) : Result Bytes :=
  writeArray FieldWriter.write fields

def writeDynamicVariables (count : ℕ) (values : Result (List Bytes)) : Result Bytes := do
  let len ← ensureU32Len count
  let body ← values
  pure (write4 len.toInt32 ++ body.flatten)

mutual

/-- What is written at a type and a schema of a value that is not of the type, be
    it the default one (`defaultDynamicVariable`) or any other. -/
def writeDefault (vmType : VMType) (schema : Option VMStructSchema) : Result Bytes :=
  match vmType with
  -- an empty `ArrayDynamic`
  | .dynamic => pure (write1 VMType.arrayDynamic.code ++ write4 0)
  | .struct =>
    match schema with
    | some schema => schema.writeDefault
    | none => pure (write4 0)
  | .arrayDynamic => pure (write4 0)
  | .arrayStruct =>
    match schema with
    | some _ => pure (write4 0)
    | none => do
      let own ← VMStructSchema.empty.write
      pure (write4 0 ++ own)
  | vmType => VMValue.none.writeLeaf vmType

/-- The struct of no fields, each field of the schema by its default. -/
def VMStructSchema.writeDefault (schema : VMStructSchema) : Result Bytes :=
  match schema with
  | ⟨fields, flags⟩ => do
    let body ← writeDefaults fields
    pure (body.flatten ++ if flags.contains .dynamicExtras then write4u 0 else [])

def VMVariableSchema.writeDefault (schema : VMVariableSchema) : Result Bytes :=
  match schema with
  | ⟨vmType, structDef⟩ => PhantasmaSdk.writeDefault vmType structDef

def VMNamedVariableSchema.writeDefault (field : VMNamedVariableSchema) : Result Bytes :=
  match field with
  | ⟨_, schema⟩ => schema.writeDefault

def writeDefaults (fields : List VMNamedVariableSchema) : Result (List Bytes) :=
  match fields with
  | [] => pure []
  | field :: fields => do
    let head ← field.writeDefault
    let body ← writeDefaults fields
    pure (head :: body)

end

/-- The fields a schema asks for, each at the type it gives them, and, where the
    schema allows for others, the others under their own types. (It answers
    `true` whatever it writes; the answer is left out.) -/
def writeFieldsWithSchema (fields : List FieldWriter) (schema : VMStructSchema) : Result Bytes := do
  let get (field : VMNamedVariableSchema) := fields.find? (·.name = field.name)
  let body ← schema.fields.mapM fun field =>
    match get field with
    | some writer => writer.writeStatic field.schema.vmType field.schema.structDef
    | none => writeDefault field.schema.vmType field.schema.structDef
  if ¬schema.flags.contains .dynamicExtras then pure body.flatten
  else
    let found := schema.fields.countP fun field => (get field).isSome
    let extras := fields.filter fun field => ¬schema.fields.any (·.name = field.name)
    if found = schema.fields.length ∧ extras = [] then pure (body.flatten ++ write4u 0)
    else do
      let tail ← writeNamedDynamicVariables extras
      pure (body.flatten ++ tail)

mutual

def VMValue.writeStatic (data : VMValue) (vmType : VMType) (schema : Option VMStructSchema) :
    Result Bytes :=
  match vmType with
  | .dynamic =>
    match data with
    | .dynamic value => value.write
    | _ => writeDefault .dynamic schema
  | .struct =>
    let fields := match data with | .struct value => value.fieldWriters | _ => []
    match schema with
    | some schema => writeFieldsWithSchema fields schema
    | none => writeNamedDynamicVariables (sortByName FieldWriter.name fields)
  | .arrayDynamic =>
    match data with
    | .arrayDynamic values => writeDynamicVariables values.length (writeVariables values)
    | _ => writeDefault .arrayDynamic schema
  | .arrayStruct =>
    match data with
    | .arrayStruct value => value.writeStatic schema
    | _ => writeDefault .arrayStruct schema
  | vmType => data.writeLeaf vmType

/-- A variable under its own type. -/
def VMDynamicVariable.write (value : VMDynamicVariable) : Result Bytes :=
  match value with
  | ⟨vmType, data⟩ => do
    let body ← data.writeStatic vmType none
    pure (write1 vmType.code ++ body)

def writeVariables (values : List VMDynamicVariable) : Result (List Bytes) :=
  match values with
  | [] => pure []
  | value :: values => do
    let head ← value.write
    let body ← writeVariables values
    pure (head :: body)

def VMNamedDynamicVariable.fieldWriter (field : VMNamedDynamicVariable) : FieldWriter :=
  match field with
  | ⟨name, ⟨vmType, data⟩⟩ => ⟨name, vmType, fun vmType schema => data.writeStatic vmType schema⟩

def fieldWriters (fields : List VMNamedDynamicVariable) : List FieldWriter :=
  match fields with
  | [] => []
  | field :: fields => field.fieldWriter :: fieldWriters fields

def VMDynamicStruct.fieldWriters (value : VMDynamicStruct) : List FieldWriter :=
  match value with
  | ⟨fields⟩ => PhantasmaSdk.fieldWriters fields

def structWriters (structs : List VMDynamicStruct) : List (List FieldWriter) :=
  match structs with
  | [] => []
  | value :: structs => value.fieldWriters :: structWriters structs

/-- The structs at the schema given or, after it, at the array's own. -/
def VMStructArray.writeStatic (value : VMStructArray) (schema : Option VMStructSchema) :
    Result Bytes :=
  match value with
  | ⟨own, structs⟩ => do
    let len ← ensureU32Len structs.length
    let head ← (match schema with | some _ => pure [] | none => own.write : Result Bytes)
    let body ← (structWriters structs).mapM fun fields =>
      writeFieldsWithSchema fields (schema.getD own)
    pure (write4 len.toInt32 ++ head ++ body.flatten)

end

namespace VMDynamicStruct

def writeWithSchema (value : VMDynamicStruct) (schema : VMStructSchema) : Result Bytes :=
  writeFieldsWithSchema value.fieldWriters schema

def write (value : VMDynamicStruct) : Result Bytes :=
  writeNamedDynamicVariables (sortByName FieldWriter.name value.fieldWriters)

end VMDynamicStruct

/-! ## Reading -/

/-- A value of a type whose values hold no variables. (Those that do are
    `readStatic`'s.) -/
def readLeaf (vmType : VMType) : Reader VMValue :=
  match vmType with
  | .bytes => do let value ← readByteArray; pure (.bytes value)
  | .int8 => do let value ← read1; pure (.int value.toInt8.toInt64)
  | .int16 => do let value ← read2; pure (.int value.toInt64)
  | .int32 => do let value ← read4; pure (.int value.toInt64)
  | .int64 => do let value ← read8; pure (.int value)
  | .int256 => do let value ← readBigInt; pure (.int256 value)
  | .bytes16 => do let value ← read16; pure (.bytes16 value)
  | .bytes32 => do let value ← read32; pure (.bytes32 value)
  | .bytes64 => do let value ← read64; pure (.bytes64 value)
  | .string => do let value ← readStringZ; pure (.string value)
  | .arrayBytes => do let values ← readByteArrays; pure (.arrayBytes values)
  | .arrayInt8 => do let values ← readI8Array; pure (.arrayInt8 values)
  | .arrayInt16 => do let values ← readI16Array; pure (.arrayInt16 values)
  | .arrayInt32 => do let values ← readI32Array; pure (.arrayInt32 values)
  | .arrayInt64 => do let values ← readI64Array; pure (.arrayInt64 values)
  | .arrayInt256 => do let values ← readBigIntArray; pure (.arrayInt256 values)
  | .arrayBytes16 => do let values ← readReserved 16 read16; pure (.arrayBytes16 values)
  | .arrayBytes32 => do let values ← readReserved 32 read32; pure (.arrayBytes32 values)
  | .arrayBytes64 => do let values ← readReserved 64 read64; pure (.arrayBytes64 values)
  | .arrayString => do let values ← readStringZArray; pure (.arrayString values)
  | _ => refuse "unsupported VM dynamic type: Array"

/-- The readers of the variables and the structs a value holds, given the reader
    of values at a type and a schema. -/
abbrev StaticReader := VMType → Option VMStructSchema → Reader VMValue

namespace StaticReader

variable (readStatic : StaticReader) (readSchema : Reader VMStructSchema)

def readVariable : Reader VMDynamicVariable := do
  let vmType ← VMType.read
  let data ← readStatic vmType none
  pure ⟨vmType, data⟩

def readNamedVariable : Reader VMNamedDynamicVariable := do
  let name ← readCarbon
  let value ← readVariable readStatic
  pure ⟨name, value⟩

def readDynamicVariables : Reader (List VMDynamicVariable) := do
  let count ← readLength
  (readVariable readStatic).replicate count

def readNamedDynamicVariables : Reader (List VMNamedDynamicVariable) := do
  let count ← readLength
  (readNamedVariable readStatic).replicate count

def readField (field : VMNamedVariableSchema) : Reader VMNamedDynamicVariable := do
  let data ← readStatic field.schema.vmType field.schema.structDef
  pure ⟨field.name, ⟨field.schema.vmType, data⟩⟩

def readWithSchema (schema : VMStructSchema) : Reader VMDynamicStruct := do
  let fields ← schema.fields.mapM (readField readStatic)
  let extras ← if schema.flags.contains .dynamicExtras then readNamedDynamicVariables readStatic
    else pure []
  pure (.new (fields ++ extras))

def readStruct : Reader VMDynamicStruct := do
  let fields ← readNamedDynamicVariables readStatic
  pure (.new fields)

def readStructArray (schema : Option VMStructSchema) : Reader VMStructArray := do
  let count ← readLength
  let used ← match schema with
    | some schema => pure schema
    | none => readSchema
  reserve count
  let structs ← (readWithSchema readStatic used).replicate count
  pure ⟨used, structs⟩

end StaticReader

/-- A value at a type and a schema, read on a stack that holds `depth` nested calls. -/
def readStatic (depth : ℕ) (vmType : VMType) (schema : Option VMStructSchema) : Reader VMValue :=
  match depth with
  | 0 => fail (.panic .stackOverflow)
  | depth + 1 =>
    match vmType with
    | .dynamic => do
      let value ← StaticReader.readVariable (readStatic depth)
      pure (.dynamic value)
    | .struct => do
      let value ← match schema with
        | some schema => StaticReader.readWithSchema (readStatic depth) schema
        | none => StaticReader.readStruct (readStatic depth)
      pure (.struct value)
    | .arrayDynamic => do
      let values ← StaticReader.readDynamicVariables (readStatic depth)
      pure (.arrayDynamic values)
    | .arrayStruct => do
      let value ← StaticReader.readStructArray (readStatic depth) (VMStructSchema.readAt depth) schema
      pure (.arrayStruct value)
    | vmType => readLeaf vmType

/-- As much stack as the source's reader needs: any input makes fewer calls than it has
    bytes and the schema nests. (On a stack that holds so many calls and no more, it is
    `readOn`.) -/
def stackFor (input : Bytes) (schema : Option VMStructSchema) : ℕ := input.length + depthOf schema + 1

namespace VMDynamicStruct

def readWithSchema (schema : VMStructSchema) : Reader VMDynamicStruct := fun input =>
  StaticReader.readWithSchema (readStatic (stackFor input (some schema))) schema input

def readOn (stack : ℕ) : Reader VMDynamicStruct := StaticReader.readStruct (readStatic stack)

instance : CarbonSerializable VMDynamicStruct where
  writeCarbon := write
  readCarbon input := readOn (stackFor input none) input

end VMDynamicStruct

namespace VMDynamicVariable

def readOn (stack : ℕ) : Reader VMDynamicVariable := StaticReader.readVariable (readStatic stack)

instance : CarbonSerializable VMDynamicVariable where
  writeCarbon := write
  readCarbon input := readOn (stackFor input none) input

end VMDynamicVariable

end PhantasmaSdk
