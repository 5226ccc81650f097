import PhantasmaSdk.Carbon.TokenSchemas
import PhantasmaSdk.Carbon.VmValue

/-!
# Metadata

The builders of the metadata of a series and of the ROM of an NFT. They are given pairs of
a name and a value, and a schema: each field of the schema but the standard ones is looked
up among the pairs, and its value is coerced to the field's type. The struct of these and
of the standard fields is then written by the schema.

Values are coerced where they are of a type without variables (`coerceMetadataLeaf`). A
struct is only validated: its fields are coerced, and what is returned is the struct as it
was given.
-/

namespace PhantasmaSdk

open Codec Codec.Decoder CarbonWriter CarbonReader

variable {α : Type}

def metadataError (name message : String) : Result α :=
  builder s!"metadata field \"{name}\" {message}"

/-- The first entry of a name, which is an error where there is one but in another case
    only. -/
def findInCase (key : α → String) (entries : List α) (name : String) : Result (Option α) :=
  match entries.find? (key · = name) with
  | some entry => pure (some entry)
  | none =>
    match entries.find? fun entry => eqIgnoreAsciiCase (key entry) name with
    | some entry => metadataError name s!"provided in incorrect case as \"{key entry}\""
    | none => pure none

def findMetadataValue (metadata : List (String × VMValue)) (name : String) :
    Result (Option VMValue) := do
  let pair ← findInCase Prod.fst metadata name
  pure (pair.map Prod.snd)

def findStructField (value : VMDynamicStruct) (name : String) :
    Result (Option VMDynamicVariable) := do
  let field ← findInCase (fun field => field.name.value) value.fields name
  pure (field.map VMNamedDynamicVariable.value)

/-! ## Coercion -/

def decodeMetadataHex (name value : String) : Result Bytes :=
  let text := utf8 (trim value)
  if text = [] then metadataError name "must be a byte array or hex string"
  else
    let digits := match text with
      | 48 :: 120 :: digits => digits -- `0x`
      | 48 :: 88 :: digits => digits -- `0X`
      | digits => digits
    match hexDecode (if digits.length % 2 = 0 then digits else 48 :: digits) with
    | some raw => pure raw
    | none => metadataError name "must be a byte array or hex string"

def coerceMetadataBytes (name : String) (value : VMValue) : Result Bytes :=
  match value with
  | .bytes value => pure value
  | .string value => decodeMetadataHex name value
  | _ => metadataError name "must be a byte array or hex string"

def coerceMetadataString (name : String) (value : VMValue) : Result String :=
  match value with
  | .string value => if trim value = "" then metadataError name "is mandatory" else pure value
  | _ => metadataError name "must be a string"

/-- Bytes of a fixed size, made of bytes of any. -/
def coerceMetadataFixedBytes (size : ℕ) (name : String) (value : VMValue) :
    Result (FixedBytes size) := do
  let raw ← coerceMetadataBytes name value
  if h : raw.length = size then pure ⟨raw, h⟩
  else metadataError name s!"must be exactly {size} bytes"

def coerceMetadataFixedBytes16 (name : String) (value : VMValue) : Result Bytes16 :=
  match value with
  | .bytes16 value => pure value
  | value => coerceMetadataFixedBytes 16 name value

def coerceMetadataFixedBytes32 (name : String) (value : VMValue) : Result Bytes32 :=
  match value with
  | .bytes32 value => pure value
  | value => coerceMetadataFixedBytes 32 name value

def coerceMetadataFixedBytes64 (name : String) (value : VMValue) : Result Bytes64 :=
  match value with
  | .bytes64 value => pure value
  | value => coerceMetadataFixedBytes 64 name value

/-- An integer of 128 bits. -/
def metadataInteger (name : String) (value : VMValue) : Result ℤ :=
  match value with
  | .int value => pure value.toInt
  | .int256 value =>
    if -(2 ^ 127) ≤ value ∧ value < 2 ^ 127 then pure value
    else metadataError name "must be an integer"
  | _ => metadataError name "must be an integer"

def metadataBigint (name : String) (value : VMValue) : Result ℤ :=
  match value with
  | .int value => pure value.toInt
  | .int256 value => pure value
  | _ => metadataError name "must be an integer"

/-- `i64::try_from`. -/
def metadataInt64 (name : String) (value : ℤ) : Result Int64 :=
  if -(2 ^ 63) ≤ value ∧ value < 2 ^ 63 then pure (.ofInt value)
  else metadataError name "must be an integer"

/-- In the signed or the unsigned range of a width. -/
def validateIntWidth (name : String) (width : ℕ) (value : ℤ) : Result Unit :=
  let signedMin : ℤ := -(2 ^ (width - 1))
  let signedMax : ℤ := 2 ^ (width - 1) - 1
  let unsignedMax : ℤ := 2 ^ width - 1
  if (signedMin ≤ value ∧ value ≤ signedMax) ∨ (0 ≤ value ∧ value ≤ unsignedMax) then pure ()
  else metadataError name
    s!"must be between {signedMin} and {signedMax} or between 0 and {unsignedMax}"

def coerceMetadataIntegerForType (name : String) (vmType : VMType) (value : ℤ) :
    Result Int64 := do
  let width ← match vmType with
    | .int8 => pure 8
    | .int16 => pure 16
    | .int32 => pure 32
    | .int64 => pure 64
    | _ => .error (.panic (.expect "integer VM type"))
  validateIntWidth name width value
  if width = 8 ∨ value ≤ 2 ^ (width - 1) - 1 then metadataInt64 name value
  else metadataInt64 name (value - 2 ^ width)

def validateInt256 (name : String) (value : ℤ) : Result Unit := validateIntWidth name 256 value

/-- A value at a type whose values hold no structs. (Those that do are
    `coerceMetadataValue`'s.) -/
def coerceMetadataLeaf (name : String) (vmType : VMType) (value : VMValue) : Result VMValue :=
  match vmType with
  | .bytes => do
    let value ← coerceMetadataBytes name value
    pure (.bytes value)
  | .string => do
    let value ← coerceMetadataString name value
    pure (.string value)
  | .int8 | .int16 | .int32 | .int64 => do
    let value ← metadataInteger name value
    let value ← coerceMetadataIntegerForType name vmType value
    pure (.int value)
  | .int256 => do
    let value ← metadataBigint name value
    validateInt256 name value
    pure (.int256 value)
  | .bytes16 => do
    let value ← coerceMetadataFixedBytes16 name value
    pure (.bytes16 value)
  | .bytes32 => do
    let value ← coerceMetadataFixedBytes32 name value
    pure (.bytes32 value)
  | .bytes64 => do
    let value ← coerceMetadataFixedBytes64 name value
    pure (.bytes64 value)
  | .arrayDynamic =>
    match value with
    | .arrayDynamic values => pure (.arrayDynamic values)
    | _ => metadataError name "must contain dynamic VM variables"
  | .arrayBytes =>
    match value with
    | .arrayBytes values => pure (.arrayBytes values)
    | _ => metadataError name "must be a byte array array"
  | .arrayInt8 =>
    match value with
    | .arrayInt8 values => pure (.arrayInt8 values)
    | _ => metadataError name "must be an int8 array"
  | .arrayInt16 =>
    match value with
    | .arrayInt16 values => pure (.arrayInt16 values)
    | _ => metadataError name "must be an int16 array"
  | .arrayInt32 =>
    match value with
    | .arrayInt32 values => pure (.arrayInt32 values)
    | _ => metadataError name "must be an int32 array"
  | .arrayInt64 =>
    match value with
    | .arrayInt64 values => pure (.arrayInt64 values)
    | _ => metadataError name "must be an int64 array"
  | .arrayInt256 =>
    match value with
    | .arrayInt256 values => do
      let _ ← values.mapM (validateInt256 name)
      pure (.arrayInt256 values)
    | _ => metadataError name "must be an int256 array"
  | .arrayBytes16 =>
    match value with
    | .arrayBytes16 values => pure (.arrayBytes16 values)
    | _ => metadataError name "must be a bytes16 array"
  | .arrayBytes32 =>
    match value with
    | .arrayBytes32 values => pure (.arrayBytes32 values)
    | _ => metadataError name "must be a bytes32 array"
  | .arrayBytes64 =>
    match value with
    | .arrayBytes64 values => pure (.arrayBytes64 values)
    | _ => metadataError name "must be a bytes64 array"
  | .arrayString =>
    match value with
    | .arrayString values =>
      match values.zipIdx.find? fun (item, _) => trim item = "" with
      | some (_, index) => metadataError s!"{name}[{index}]" "is mandatory"
      | none => pure (.arrayString values)
    | _ => metadataError name "must be a string array"
  | .dynamic =>
    match value with
    | .dynamic value => pure (.dynamic value)
    | _ => metadataError name "must be a dynamic VM variable"
  | _ => serialization "unsupported VM dynamic type: Array"

mutual

def coerceMetadataValue (name : String) (schema : VMVariableSchema) (value : VMValue) :
    Result VMValue :=
  match schema with
  | ⟨vmType, structDef⟩ =>
    match vmType with
    | .struct =>
      match structDef with
      | none => metadataError name "is missing struct schema"
      | some nested =>
        match value with
        | .struct value => do
          validateMetadataStruct name nested value
          pure (.struct value)
        | _ => metadataError name "must be a struct"
    | .arrayStruct =>
      match structDef with
      | none => metadataError name "is missing a struct schema"
      | some nested =>
        match value with
        | .arrayStruct value => do
          let _ ← value.structs.zipIdx.mapM fun (item, index) =>
            validateMetadataStruct s!"{name}[{index}]" nested item
          pure (.arrayStruct value)
        | _ => metadataError name "must be provided as a struct array"
    | vmType => coerceMetadataLeaf name vmType value

def validateMetadataStruct (parentName : String) (schema : VMStructSchema)
    (value : VMDynamicStruct) : Result Unit :=
  match schema with
  | ⟨fields, _⟩ => do
    validateMetadataFields fields value
    match value.fields.find? fun field => ¬fields.any (·.name = field.name) with
    | some field =>
      metadataError parentName s!"received unknown property \"{field.name.value}\""
    | none => pure ()

def validateMetadataField (field : VMNamedVariableSchema) (value : VMDynamicStruct) :
    Result Unit :=
  match field with
  | ⟨name, schema⟩ => do
    match ← findStructField value name.value with
    | none => metadataError name.value "is mandatory"
    | some found => do
      -- what it is coerced to is left aside
      let _ ← coerceMetadataValue name.value schema found.data
      pure ()

def validateMetadataFields (fields : List VMNamedVariableSchema) (value : VMDynamicStruct) :
    Result Unit :=
  match fields with
  | [] => pure ()
  | field :: fields => do
    validateMetadataField field value
    validateMetadataFields fields value

end

/-! ## Builders -/

def isPhantasmaNftReservedField (name : String) : Bool :=
  eqIgnoreAsciiCase name standardMetaId || eqIgnoreAsciiCase name "rom"

def metadataBytes (metadata : List (String × VMValue)) (name : String) : Result Bytes := do
  match ← findMetadataValue metadata name with
  | some value => coerceMetadataBytes name value
  | none => pure []

def metadataDynamicField (metadata : List (String × VMValue)) (field : VMNamedVariableSchema) :
    Result VMNamedDynamicVariable := do
  match ← findMetadataValue metadata field.name.value with
  | none => metadataError field.name.value "is mandatory"
  | some value => do
    let data ← coerceMetadataValue field.name.value field.schema value
    pure ⟨field.name, ⟨field.schema.vmType, data⟩⟩

/-- The fields of a schema that no default stands for. -/
def VMStructSchema.taken (schema : VMStructSchema) (defaults : List VMNamedVariableSchema) :
    List VMNamedVariableSchema :=
  schema.fields.filter fun field => ¬defaults.any (·.name = field.name)

def metadataDynamicFieldsForSchema (schema : VMStructSchema)
    (defaults : List VMNamedVariableSchema) (metadata : List (String × VMValue)) :
    Result (List VMNamedDynamicVariable) :=
  (schema.taken defaults).mapM (metadataDynamicField metadata)

/-- (It is never that the metadata does not match its schema.) -/
def writeDynamicStructWithSchema (value : VMDynamicStruct) (schema : VMStructSchema) :
    Result Bytes :=
  value.writeWithSchema schema

def idField (id : ℤ) : VMNamedDynamicVariable := ⟨⟨standardMetaId⟩, ⟨.int256, .int256 id⟩⟩

def modeField (rom : Bytes) : VMNamedDynamicVariable :=
  ⟨⟨"mode"⟩, ⟨.int8, .int (if rom = [] then 0 else 1)⟩⟩

def romField (rom : Bytes) : VMNamedDynamicVariable := ⟨⟨"rom"⟩, ⟨.bytes, .bytes rom⟩⟩

def buildTokenSeriesMetadata (schema : VMStructSchema) (phantasmaSeriesId : ℤ)
    (metadata : List (String × VMValue)) : Result Bytes := do
  let rom ← metadataBytes metadata "rom"
  let fields ← metadataDynamicFieldsForSchema schema standardSeriesFields metadata
  writeDynamicStructWithSchema
    (.new ([idField phantasmaSeriesId, modeField rom, romField rom] ++ fields)) schema

def buildNftRom (schema : VMStructSchema) (phantasmaNftId : ℤ)
    (metadata : List (String × VMValue)) : Result Bytes := do
  let rom ← metadataBytes metadata "rom"
  let fields ← metadataDynamicFieldsForSchema schema standardNftFields metadata
  writeDynamicStructWithSchema (.new ([idField phantasmaNftId, romField rom] ++ fields)) schema

def buildPhantasmaNftPublicMintSchema (nftRomSchema : VMStructSchema) : VMStructSchema :=
  ⟨nftRomSchema.fields.filter fun field => ¬isPhantasmaNftReservedField field.name.value,
    nftRomSchema.flags⟩

def buildPhantasmaNftRom (nftRomSchema : VMStructSchema) (metadata : List (String × VMValue)) :
    Result Bytes :=
  if metadata = [] then builder "metadata is required"
  else
    match metadata.find? fun (name, _) => isPhantasmaNftReservedField name with
    | some (name, _) =>
      metadataError name "is reserved for chain-owned deterministic mint fields"
    | none => do
      let publicSchema := buildPhantasmaNftPublicMintSchema nftRomSchema
      let fields ← metadataDynamicFieldsForSchema publicSchema [] metadata
      writeDynamicStructWithSchema (.new fields) publicSchema

end PhantasmaSdk
