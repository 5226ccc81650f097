import PhantasmaSdk.Carbon.VmSchema
import PhantasmaSdk.Serde.Derive
import PhantasmaSdk.Text

/-!
# Token schemas

The schemas of a token: of the metadata of its series, and of the ROM and the RAM of its
NFTs. They are built from lists of named types, to which standard fields are added, and
the lists are taken from a JSON text that names each type.

Every name of a type is taken, and not every type is carried by the wire: that of `Array`
is read as `ArrayDynamic`, and that of a struct is written with an empty definition, where
the schema has none. The schemas built from a text are read back as they are iff it names
none of these (`roundTrips_tokenSchemas_iff`).
-/

namespace PhantasmaSdk

open Codec Codec.Decoder CarbonWriter CarbonReader
open Serde (Json)

structure TokenSchemas where
  seriesMetadata : VMStructSchema
  rom : VMStructSchema
  ram : VMStructSchema

namespace TokenSchemas

instance : CarbonSerializable TokenSchemas where
  writeCarbon v := do
    let seriesMetadata ← writeCarbon v.seriesMetadata
    let rom ← writeCarbon v.rom
    let ram ← writeCarbon v.ram
    pure (seriesMetadata ++ rom ++ ram)
  readCarbon := do
    let seriesMetadata ← readCarbon
    let rom ← readCarbon
    let ram ← readCarbon
    pure { seriesMetadata, rom, ram }

end TokenSchemas

def serializeTokenSchemas (schemas : TokenSchemas) : Result Bytes := serialize schemas

/-! ## Building -/

structure TokenSchemaField where
  name : String
  vmType : VMType
  deriving DecidableEq, Repr

structure TokenSchemasJson where
  seriesMetadata : List TokenSchemaField
  rom : List TokenSchemaField
  ram : List TokenSchemaField
  deriving DecidableEq, Repr

/-- A short text is made from a longer one in a panic. -/
def SmallString.fromText (value : String) : Result SmallString :=
  if 255 < (utf8 value).length then .error (.panic (.expect "static SmallString fits"))
  else pure ⟨value⟩

/-- `VMNamedVariableSchema::new`: a field without a definition. -/
def VMNamedVariableSchema.new (name : String) (vmType : VMType) : Result VMNamedVariableSchema := do
  let name ← SmallString.fromText name
  pure ⟨name, ⟨vmType, none⟩⟩

def standardMetaId : String := "_i"

/-- A standard field, by its name and its type. -/
def standardField (name : String) (vmType : VMType) : VMNamedVariableSchema :=
  ⟨⟨name⟩, ⟨vmType, none⟩⟩

def standardSeriesFields : List VMNamedVariableSchema :=
  [standardField standardMetaId .int256, standardField "mode" .int8, standardField "rom" .bytes]

def standardNftFields : List VMNamedVariableSchema :=
  [standardField standardMetaId .int256, standardField "rom" .bytes]

def standardMetadataFields : List VMNamedVariableSchema :=
  [standardField "name" .string, standardField "description" .string,
    standardField "imageURL" .string, standardField "infoURL" .string,
    standardField "royalties" .int32]

/-- Whether a field is found among some, and whether one was seen that differs from it in
    its case only. -/
def findMetadataField (expected : VMNamedVariableSchema) :
    Bool → List VMNamedVariableSchema → Result (Bool × Bool)
  | caseMismatch, [] => pure (false, caseMismatch)
  | caseMismatch, actual :: fields =>
    if actual.name = expected.name then
      if actual.schema.vmType ≠ expected.schema.vmType then
        builder s!"type mismatch for {expected.name.value} field"
      else pure (true, false)
    else findMetadataField expected
      (caseMismatch || eqIgnoreAsciiCase actual.name.value expected.name.value) fields

/-- The schemas are searched in turn. -/
def findMetadataFieldIn (expected : VMNamedVariableSchema) :
    Bool → List VMStructSchema → Result (Bool × Bool)
  | caseMismatch, [] => pure (false, caseMismatch)
  | caseMismatch, schema :: schemas => do
    let (found, caseMismatch) ← findMetadataField expected caseMismatch schema.fields
    if found then pure (true, caseMismatch)
    else findMetadataFieldIn expected caseMismatch schemas

def assertMetadataFields (schemas : List VMStructSchema) :
    List VMNamedVariableSchema → Result Unit
  | [] => pure ()
  | expected :: fields => do
    let (found, caseMismatch) ← findMetadataFieldIn expected false schemas
    if ¬found then
      if caseMismatch then builder s!"case mismatch for {expected.name.value} field"
      else builder s!"mandatory metadata field not found: {expected.name.value}"
    else assertMetadataFields schemas fields

def verifyTokenSchemas (schemas : TokenSchemas) : Result Unit := do
  assertMetadataFields [schemas.seriesMetadata, schemas.rom] standardMetadataFields
  assertMetadataFields [schemas.seriesMetadata] standardSeriesFields
  assertMetadataFields [schemas.rom] standardNftFields

def buildTokenSchemasFromFields (seriesMetadata rom ram : List TokenSchemaField) :
    Result TokenSchemas := do
  let series ← seriesMetadata.mapM fun field => VMNamedVariableSchema.new field.name field.vmType
  let romFields ← rom.mapM fun field => VMNamedVariableSchema.new field.name field.vmType
  let ramFields ← ram.mapM fun field => VMNamedVariableSchema.new field.name field.vmType
  let schemas : TokenSchemas := {
    seriesMetadata := ⟨standardSeriesFields ++ series, .none⟩
    rom := ⟨standardNftFields ++ romFields, .none⟩
    ram := ⟨ramFields, if ram.isEmpty then .dynamicExtras else .none⟩ }
  verifyTokenSchemas schemas
  pure schemas

/-! ## From JSON -/

def vmTypeFromString (value : String) : Result VMType :=
  match trim value with
  | "Dynamic" => pure .dynamic
  | "Array" => pure .array
  | "Bytes" => pure .bytes
  | "Struct" => pure .struct
  | "Int8" => pure .int8
  | "Int16" => pure .int16
  | "Int32" => pure .int32
  | "Int64" => pure .int64
  | "Int256" => pure .int256
  | "Bytes16" => pure .bytes16
  | "Bytes32" => pure .bytes32
  | "Bytes64" => pure .bytes64
  | "String" => pure .string
  | "Array_Dynamic" | "ArrayDynamic" => pure .arrayDynamic
  | "Array_Bytes" | "ArrayBytes" => pure .arrayBytes
  | "Array_Struct" | "ArrayStruct" => pure .arrayStruct
  | "Array_Int8" | "ArrayInt8" => pure .arrayInt8
  | "Array_Int16" | "ArrayInt16" => pure .arrayInt16
  | "Array_Int32" | "ArrayInt32" => pure .arrayInt32
  | "Array_Int64" | "ArrayInt64" => pure .arrayInt64
  | "Array_Int256" | "ArrayInt256" => pure .arrayInt256
  | "Array_Bytes16" | "ArrayBytes16" => pure .arrayBytes16
  | "Array_Bytes32" | "ArrayBytes32" => pure .arrayBytes32
  | "Array_Bytes64" | "ArrayBytes64" => pure .arrayBytes64
  | "Array_String" | "ArrayString" => pure .arrayString
  | other => builder s!"unknown VM type: {other}"

def parseTokenSchemaField (key : String) (index : ℕ) (item : Json) : Result TokenSchemaField :=
  match item.asObject with
  | none => builder s!"{key} field {index} invalid"
  | some object =>
    match (object.lookup "name").bind Json.asStr with
    | none => builder s!"{key} field name must be string"
    | some name =>
      match (object.lookup "type").bind Json.asStr with
      | none => builder s!"{key} field type must be string"
      | some rawType => do
        let vmType ← vmTypeFromString rawType
        pure { name, vmType }

def parseTokenSchemaFieldArray (raw : List (String × Json)) (key : String) :
    Result (List TokenSchemaField) :=
  match (raw.lookup key).bind Json.asArray with
  | none => builder s!"{key} must be an array"
  | some items => items.zipIdx.mapM fun (item, index) => parseTokenSchemaField key index item

/-- The fields of a text, which is read by a library of its own. -/
def parseTokenSchemasJson (fromStr : String → Except String Json) (data : String) :
    Result TokenSchemasJson :=
  match fromStr data with
  | .error err => builder s!"invalid token schema JSON: {err}"
  | .ok raw =>
    match raw.asObject with
    | none => builder "token schema JSON must be an object"
    | some object => do
      let seriesMetadata ← parseTokenSchemaFieldArray object "seriesMetadata"
      let rom ← parseTokenSchemaFieldArray object "rom"
      let ram ← parseTokenSchemaFieldArray object "ram"
      pure { seriesMetadata, rom, ram }

def tokenSchemasFromJson (fromStr : String → Except String Json) (data : String) :
    Result TokenSchemas := do
  let parsed ← parseTokenSchemasJson fromStr data
  buildTokenSchemasFromFields parsed.seriesMetadata parsed.rom parsed.ram

/-! ## Reading schemas back -/

namespace TokenSchemas

/-- Each of the three is normal. -/
structure Normal (v : TokenSchemas) : Prop where
  seriesMetadata : v.seriesMetadata.Normal
  rom : v.rom.Normal
  ram : v.ram.Normal

theorem writeCarbon_eq_ok {v : TokenSchemas} {enc : Bytes} : writeCarbon v = .ok enc ↔
    ∃ seriesMetadata rom ram, v.seriesMetadata.write = .ok seriesMetadata ∧
      v.rom.write = .ok rom ∧ v.ram.write = .ok ram ∧ enc = seriesMetadata ++ rom ++ ram := by
  constructor
  · intro h
    obtain ⟨seriesMetadata, hseries, h⟩ := bind_eq_ok.1 h
    obtain ⟨rom, hrom, h⟩ := bind_eq_ok.1 h
    obtain ⟨ram, hram, h⟩ := bind_eq_ok.1 h
    exact ⟨seriesMetadata, rom, ram, hseries, hrom, hram, (Except.ok.inj h).symm⟩
  · rintro ⟨seriesMetadata, rom, ram, hseries, hrom, hram, rfl⟩
    exact bind_eq_ok.2 ⟨seriesMetadata, hseries, bind_eq_ok.2 ⟨rom, hrom,
      bind_eq_ok.2 ⟨ram, hram, rfl⟩⟩⟩

theorem reads_readCarbon {v : TokenSchemas} {enc : Bytes} (hn : v.Normal)
    (hw : writeCarbon v = .ok enc) : (readCarbon : Reader TokenSchemas).Reads enc v := by
  obtain ⟨seriesMetadata, rom, ram, hseries, hrom, hram, rfl⟩ := writeCarbon_eq_ok.1 hw
  rw [List.append_assoc]
  exact (VMStructSchema.reads_readCarbon hn.seriesMetadata hseries).bind <|
    (VMStructSchema.reads_readCarbon hn.rom hrom).bind <|
      (VMStructSchema.reads_readCarbon hn.ram hram).map fun ram =>
        (⟨v.seriesMetadata, v.rom, ram⟩ : TokenSchemas)

theorem yields_readCarbon : (readCarbon : Reader TokenSchemas).Yields fun v _ => v.Normal := by
  have hstruct : (readCarbon : Reader VMStructSchema).Yields fun v _ => v.Normal :=
    VMStructSchema.yields_readCarbon.mono fun _ _ h => h.1
  exact hstruct.bind fun seriesMetadata _ hseries => hstruct.bind fun rom _ hrom =>
    hstruct.bind fun ram _ hram => yields_pure ⟨hseries, hrom, hram⟩

/-- Schemas that are written are read back iff they are normal. -/
theorem deserialize_iff {v : TokenSchemas} {enc : Bytes} (hw : serialize v = .ok enc) :
    deserialize TokenSchemas enc = .ok v ↔ v.Normal := by
  rw [deserialize_eq_ok]
  constructor
  · intro hrun
    obtain ⟨_, -, hn⟩ := yields_readCarbon _ _ _ hrun
    exact hn
  · exact fun hn => (reads_readCarbon hn hw).run_self

end TokenSchemas

/-! ## Schemas without definitions -/

/-- A value of the type is read by its type alone, and its type by its code. -/
def VMType.Carried (vmType : VMType) : Prop := vmType ≠ .array ∧ ¬vmType.hasStruct

instance (vmType : VMType) : Decidable vmType.Carried := inferInstanceAs (Decidable (_ ∧ _))

/-- A field without a definition, whose name fits. -/
structure VMNamedVariableSchema.Flat (field : VMNamedVariableSchema) : Prop where
  structDef : field.schema.structDef = none
  name : (utf8 field.name.value).length < 256

theorem VMStructSchema.normal_iff_of_flat {schema : VMStructSchema}
    (h : ∀ field ∈ schema.fields, field.Flat) : schema.Normal ↔
      schema.fields.length < 2 ^ 31 ∧ ∀ field ∈ schema.fields, field.schema.vmType.Carried := by
  rw [normal_iff]
  refine and_congr_right' (forall₂_congr fun field hfield => ?_)
  rw [VMVariableSchema.normal_iff, (h field hfield).structDef]
  simp [VMType.Carried]

theorem VMStructSchema.exists_write_of_flat {schema : VMStructSchema}
    (h : ∀ field ∈ schema.fields, field.Flat) (hn : schema.Normal) :
    ∃ enc, schema.write = .ok enc := by
  obtain ⟨hlength, hcarried⟩ := (normal_iff_of_flat h).1 hn
  have hfield : ∀ field ∈ schema.fields, ∃ enc, field.write = .ok enc := by
    intro field hfield
    have hname := SmallString.writeCarbon_eq_ok.2 ⟨(h field hfield).name, rfl⟩
    have hbody : field.schema.write = .ok (write1 field.schema.vmType.code ++ []) :=
      VMVariableSchema.write_eq_ok.2 ⟨[], if_neg (hcarried field hfield).2, rfl⟩
    exact ⟨_, VMNamedVariableSchema.write_eq_ok.2 ⟨_, _, hname, hbody, rfl⟩⟩
  obtain ⟨encs, hencs⟩ := forall₂_of_isOk hfield
  exact ⟨_, write_eq_ok.2 ⟨_, writeArray_of_forall₂ (by omega) hencs, rfl⟩⟩

theorem TokenSchemas.roundTrips_iff_of_flat {v : TokenSchemas}
    (hseries : ∀ field ∈ v.seriesMetadata.fields, field.Flat)
    (hrom : ∀ field ∈ v.rom.fields, field.Flat) (hram : ∀ field ∈ v.ram.fields, field.Flat) :
    (∃ enc, serializeTokenSchemas v = .ok enc ∧ deserialize TokenSchemas enc = .ok v) ↔
      v.Normal := by
  constructor
  · rintro ⟨enc, hw, hd⟩
    exact (deserialize_iff hw).1 hd
  · intro hn
    obtain ⟨seriesMetadata, hs⟩ := VMStructSchema.exists_write_of_flat hseries hn.seriesMetadata
    obtain ⟨rom, hr⟩ := VMStructSchema.exists_write_of_flat hrom hn.rom
    obtain ⟨ram, hm⟩ := VMStructSchema.exists_write_of_flat hram hn.ram
    have hw : serialize v = .ok _ := writeCarbon_eq_ok.2 ⟨_, _, _, hs, hr, hm, rfl⟩
    exact ⟨_, hw, (deserialize_iff hw).2 hn⟩

/-! ## Types by name -/

/-- The names of the types that are not carried. -/
def uncarriedTypes : List String := ["Array", "Struct", "Array_Struct", "ArrayStruct"]

theorem carried_iff_of_vmTypeFromString {value : String} {vmType : VMType}
    (h : vmTypeFromString value = .ok vmType) : vmType.Carried ↔ trim value ∉ uncarriedTypes := by
  rw [vmTypeFromString] at h
  split at h <;> rename_i hvalue <;>
    first
    | (rw [hvalue]; cases h; decide)
    | cases h

/-- The items of the array under a key of an object. -/
def fieldItems (raw : Json) (key : String) : List Json :=
  ((raw.asObject.bind (·.lookup key)).bind Json.asArray).getD []

/-- The type an item names. -/
def typeName (item : Json) : Option String :=
  (item.asObject.bind (·.lookup "type")).bind Json.asStr

/-- Every type named under the key is carried, and the fields are as many as can be
    counted, with the standard ones before them. -/
structure CarriedFields (raw : Json) (key : String) (standard : ℕ) : Prop where
  length_lt : standard + (fieldItems raw key).length < 2 ^ 31
  types : ∀ item ∈ fieldItems raw key, ∀ name, typeName item = some name →
    trim name ∉ uncarriedTypes

structure CarriedSchemas (raw : Json) : Prop where
  seriesMetadata : CarriedFields raw "seriesMetadata" 3
  rom : CarriedFields raw "rom" 2
  ram : CarriedFields raw "ram" 0

/-- The field is that of the item. -/
def FieldOf (item : Json) (field : VMNamedVariableSchema) : Prop :=
  field.Flat ∧ ∃ name, typeName item = some name ∧
    vmTypeFromString name = .ok field.schema.vmType

theorem parseTokenSchemaField_eq_ok {key : String} {index : ℕ} {item : Json}
    {field : TokenSchemaField} (h : parseTokenSchemaField key index item = .ok field) :
    ∃ name, typeName item = some name ∧ vmTypeFromString name = .ok field.vmType := by
  rw [parseTokenSchemaField] at h
  rw [typeName]
  split at h
  next => cases h
  next object hobject =>
  split at h
  next => cases h
  next name hname =>
  split at h
  next => cases h
  next rawType hrawType =>
    obtain ⟨vmType, hvmType, h⟩ := bind_eq_ok.1 h
    rw [hobject, Option.bind_some, hrawType, ← Except.ok.inj h]
    exact ⟨rawType, rfl, hvmType⟩

theorem flat_of_new {name : String} {vmType : VMType} {field : VMNamedVariableSchema}
    (h : VMNamedVariableSchema.new name vmType = .ok field) :
    field.Flat ∧ field.schema.vmType = vmType := by
  obtain ⟨small, hsmall, h⟩ := bind_eq_ok.1 h
  obtain ⟨-, hsmall⟩ | ⟨hlt, hsmall⟩ := ite_eq_iff.1 hsmall
  · cases hsmall
  · rw [← Except.ok.inj h, ← Except.ok.inj hsmall]
    exact ⟨⟨rfl, by simp only; omega⟩, rfl⟩

/-- The fields of a schema under a key are those of its items. -/
theorem fieldOf_of_parse {raw : Json} {object : List (String × Json)} {key : String}
    {fields : List TokenSchemaField} {named : List VMNamedVariableSchema}
    (hobject : raw.asObject = some object) (h : parseTokenSchemaFieldArray object key = .ok fields)
    (hnamed : (fields.mapM fun field => VMNamedVariableSchema.new field.name field.vmType) =
      .ok named) : List.Forall₂ FieldOf (fieldItems raw key) named := by
  rw [parseTokenSchemaFieldArray] at h
  rw [fieldItems]
  rw [hobject, Option.bind_some]
  split at h
  next => cases h
  next items hitems =>
    rw [hitems, Option.getD_some]
    have hfields : List.Forall₂ (fun item field => ∃ name, typeName item = some name ∧
        vmTypeFromString name = .ok field.vmType) items fields := by
      rw [← List.zipIdx_map_fst 0 items, List.forall₂_map_left_iff]
      exact (mapM_eq_ok.1 h).imp fun _ _ h => parseTokenSchemaField_eq_ok h
    -- The items and the fields built from them go along each other.
    have hnew := mapM_eq_ok.1 hnamed
    clear h hitems hnamed
    induction hfields generalizing named with
    | nil =>
      cases hnew
      exact .nil
    | cons hfield _ ih =>
      cases hnew with
      | cons hhead htail =>
        obtain ⟨hflat, htype⟩ := flat_of_new hhead
        exact .cons ⟨hflat, htype ▸ hfield⟩ (ih htail)

/-- Standard fields and those of some items make a normal schema iff the items name
    carried types, and there are not too many of them. -/
theorem normal_iff_carriedFields {raw : Json} {key : String}
    (standard : List VMNamedVariableSchema) {fields : List VMNamedVariableSchema}
    (flags : VMStructFlags) (hfields : List.Forall₂ FieldOf (fieldItems raw key) fields)
    (hflat : ∀ field ∈ standard, field.Flat)
    (hcarried : ∀ field ∈ standard, field.schema.vmType.Carried) :
    (∀ field ∈ standard ++ fields, field.Flat) ∧
      ((⟨standard ++ fields, flags⟩ : VMStructSchema).Normal ↔
        CarriedFields raw key standard.length) := by
  have hall : ∀ field ∈ standard ++ fields, field.Flat := by
    intro field hfield
    rcases List.mem_append.1 hfield with h | h
    · exact hflat field h
    · obtain ⟨item, -, hof, -⟩ := exists_of_forall₂_mem hfields.flip h
      exact hof
  refine ⟨hall, ?_⟩
  rw [VMStructSchema.normal_iff_of_flat hall]
  simp only [List.length_append, ← hfields.length_eq]
  constructor
  · rintro ⟨hlength, htypes⟩
    refine ⟨hlength, fun item hitem name hname => ?_⟩
    obtain ⟨field, hfield, -, name', hname', htype⟩ := exists_of_forall₂_mem hfields hitem
    obtain rfl := Option.some.inj (hname.symm.trans hname')
    exact (carried_iff_of_vmTypeFromString htype).1
      (htypes field (List.mem_append_right _ hfield))
  · rintro ⟨hlength, htypes⟩
    refine ⟨hlength, fun field hfield => ?_⟩
    -- A field is standard or is that of an item.
    rcases List.mem_append.1 hfield with h | h
    · exact hcarried field h
    · obtain ⟨item, hitem, -, name, hname, htype⟩ := exists_of_forall₂_mem hfields.flip h
      exact (carried_iff_of_vmTypeFromString htype).2 (htypes item hitem name hname)

theorem flat_of_standard {field : VMNamedVariableSchema}
    (h : field ∈ standardSeriesFields ∨ field ∈ standardNftFields) :
    field.Flat ∧ field.schema.vmType.Carried := by
  simp only [standardSeriesFields, standardNftFields, List.mem_cons, List.not_mem_nil,
    or_false] at h
  rcases h with (rfl | rfl | rfl) | rfl | rfl <;> exact ⟨⟨rfl, by decide +kernel⟩, by decide⟩

/-- The schemas of a text are read back as they are iff the types it names are carried. -/
theorem roundTrips_tokenSchemas_iff (fromStr : String → Except String Json) (data : String)
    (raw : Json) (hraw : fromStr data = .ok raw) (schemas : TokenSchemas)
    (h : tokenSchemasFromJson fromStr data = .ok schemas) :
    (∃ enc, serializeTokenSchemas schemas = .ok enc ∧
      deserialize TokenSchemas enc = .ok schemas) ↔ CarriedSchemas raw := by
  obtain ⟨parsed, hparsed, h⟩ := bind_eq_ok.1 h
  rw [parseTokenSchemasJson] at hparsed
  simp only [hraw] at hparsed
  split at hparsed
  next => cases hparsed
  next object hobject =>
    obtain ⟨seriesFields, hseriesFields, hparsed⟩ := bind_eq_ok.1 hparsed
    obtain ⟨romFields, hromFields, hparsed⟩ := bind_eq_ok.1 hparsed
    obtain ⟨ramFields, hramFields, hparsed⟩ := bind_eq_ok.1 hparsed
    obtain rfl := Except.ok.inj hparsed
    obtain ⟨series, hseries, h⟩ := bind_eq_ok.1 h
    obtain ⟨rom, hrom, h⟩ := bind_eq_ok.1 h
    obtain ⟨ram, hram, h⟩ := bind_eq_ok.1 h
    obtain ⟨-, -, h⟩ := bind_eq_ok.1 h
    obtain rfl := Except.ok.inj h
    obtain ⟨hflatSeries, hnormalSeries⟩ := normal_iff_carriedFields standardSeriesFields .none
      (fieldOf_of_parse hobject hseriesFields hseries)
      (fun field hfield => (flat_of_standard (Or.inl hfield)).1)
      fun field hfield => (flat_of_standard (Or.inl hfield)).2
    obtain ⟨hflatRom, hnormalRom⟩ := normal_iff_carriedFields standardNftFields .none
      (fieldOf_of_parse hobject hromFields hrom)
      (fun field hfield => (flat_of_standard (Or.inr hfield)).1)
      fun field hfield => (flat_of_standard (Or.inr hfield)).2
    obtain ⟨hflatRam, hnormalRam⟩ := normal_iff_carriedFields []
      (if ramFields.isEmpty then .dynamicExtras else .none)
      (fieldOf_of_parse hobject hramFields hram) nofun nofun
    rw [TokenSchemas.roundTrips_iff_of_flat hflatSeries hflatRom hflatRam]
    constructor
    · rintro ⟨hs, hr, hm⟩
      exact ⟨hnormalSeries.1 hs, hnormalRom.1 hr, hnormalRam.1 hm⟩
    · rintro ⟨hs, hr, hm⟩
      exact ⟨hnormalSeries.2 hs, hnormalRom.2 hr, hnormalRam.2 hm⟩

/-- A text with the standard metadata in the ROM, and a field of some type in the RAM. -/
def schemasText (type : String) : String :=
  "\x7b\"seriesMetadata\":[],\"rom\":[\x7b\"name\":\"name\",\"type\":\"String\"\x7d," ++
    "\x7b\"name\":\"description\",\"type\":\"String\"\x7d," ++
    "\x7b\"name\":\"imageURL\",\"type\":\"String\"\x7d," ++
    "\x7b\"name\":\"infoURL\",\"type\":\"String\"\x7d," ++
    "\x7b\"name\":\"royalties\",\"type\":\"Int32\"\x7d]," ++
    "\"ram\":[\x7b\"name\":\"tags\",\"type\":\"" ++ type ++ "\"\x7d]\x7d"

def fieldJson (name type : String) : Json :=
  .object [("name", .string name), ("type", .string type)]

def schemasJson (type : String) : Json :=
  .object [("seriesMetadata", .array []),
    ("rom", .array [fieldJson "name" "String", fieldJson "description" "String",
      fieldJson "imageURL" "String", fieldJson "infoURL" "String",
      fieldJson "royalties" "Int32"]),
    ("ram", .array [fieldJson "tags" type])]

/-- The library on texts of this form. -/
def schemasFromStr (type data : String) : Except String Json :=
  if data = schemasText type then .ok (schemasJson type) else .error "expected value"

theorem schemasFromStr_eq (type : String) :
    schemasFromStr type (schemasText type) = .ok (schemasJson type) := if_pos rfl

/-- The types of the RAM of the schemas built from such a text. -/
theorem ram_of_schemasJson (type : String) (types : List VMType)
    (h : (tokenSchemasFromJson (fun _ => .ok (schemasJson type)) "").toOption.map
      (fun schemas => schemas.ram.fields.map (·.schema.vmType)) = some types) :
    ∃ schemas, tokenSchemasFromJson (schemasFromStr type) (schemasText type) = .ok schemas ∧
      schemas.ram.fields.map (·.schema.vmType) = types := by
  refine exists_ok_of_map ?_
  rw [tokenSchemasFromJson, parseTokenSchemasJson, schemasFromStr_eq]
  exact h

theorem carriedFields_of_all {raw : Json} {key : String} {standard : ℕ}
    (h : standard + (fieldItems raw key).length < 2 ^ 31)
    (hall : (fieldItems raw key).all fun item => (typeName item).all (trim · ∉ uncarriedTypes)) :
    CarriedFields raw key standard := by
  refine ⟨h, fun item hitem name hname => ?_⟩
  have hitem := List.all_eq_true.1 hall item hitem
  rw [hname, Option.all_some] at hitem
  exact of_decide_eq_true hitem

theorem roundTrips_tokenSchemas_dynamic : ∃ schemas enc,
    tokenSchemasFromJson (schemasFromStr "ArrayDynamic") (schemasText "ArrayDynamic") =
      .ok schemas ∧ serializeTokenSchemas schemas = .ok enc ∧
        deserialize TokenSchemas enc = .ok schemas := by
  obtain ⟨schemas, hschemas, -⟩ := ram_of_schemasJson "ArrayDynamic" [.arrayDynamic]
    (by decide +kernel)
  have hcarried : CarriedSchemas (schemasJson "ArrayDynamic") :=
    ⟨carriedFields_of_all (by decide +kernel) (by decide +kernel),
      carriedFields_of_all (by decide +kernel) (by decide +kernel),
      carriedFields_of_all (by decide +kernel) (by decide +kernel)⟩
  obtain ⟨enc, hw, hd⟩ := (roundTrips_tokenSchemas_iff _ _ _ (schemasFromStr_eq "ArrayDynamic")
    schemas hschemas).2 hcarried
  exact ⟨schemas, enc, hschemas, hw, hd⟩

/-- A field of the type `Array` is read as one of the type `ArrayDynamic`. -/
theorem not_roundTrips_tokenSchemas :
    ¬∀ (fromStr : String → Except String Json) (data : String) (schemas : TokenSchemas),
      tokenSchemasFromJson fromStr data = .ok schemas →
        ∃ enc, serializeTokenSchemas schemas = .ok enc ∧
          deserialize TokenSchemas enc = .ok schemas := by
  intro h
  obtain ⟨schemas, hschemas, hram⟩ := ram_of_schemasJson "Array" [.array]
    (by decide +kernel)
  obtain ⟨enc, hw, hd⟩ := h _ _ schemas hschemas
  have hnormal := ((TokenSchemas.deserialize_iff hw).1 hd).ram
  obtain ⟨field, hfields, htype⟩ := List.map_eq_singleton_iff.1 hram
  have hfield := (VMStructSchema.normal_iff.1 hnormal).2 field (by rw [hfields]; exact List.mem_cons_self)
  exact (VMVariableSchema.normal_iff.1 hfield).1 htype

end PhantasmaSdk
