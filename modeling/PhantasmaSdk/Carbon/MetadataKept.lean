import PhantasmaSdk.Carbon.Coercion
import PhantasmaSdk.Carbon.VmWhole

/-!
# What metadata is kept

The output of a builder has a chunk for each field of its schema. It *holds* a value at a
field (`Holds`) if the chunk holds all of what the value is coerced to at the type of the
field (`Held`), and, where the value is a struct, if the chunk so holds each of its fields,
of which no two share a name.

A struct is written as it was given, not as its fields were coerced, and of the fields of
one name only the first is. A variable is taken with whatever is in it, which is written as
a default where it is not of the type the variable says. What is written of a struct that
was accepted thus holds it iff no name is repeated in it, each value is in form, and the
variables in it are whole (`VMStructSchema.decides`).
-/

namespace PhantasmaSdk

open Codec Codec.Decoder CarbonWriter CarbonReader

/-! ## Holding a value -/

mutual

/-- The bytes written at a schema hold a value with all that is in it. -/
inductive Holds : VMVariableSchema → VMValue → Bytes → Prop
  | leaf {schema : VMVariableSchema} {name : String} {value coerced : VMValue} {bytes : Bytes} :
    ¬schema.vmType.hasStruct → coerceMetadataValue name schema value = .ok coerced →
      Held schema.vmType schema.structDef coerced bytes → Holds schema value bytes
  | struct {nested : VMStructSchema} {s : VMDynamicStruct} {chunks : List Bytes}
    {tail bytes : Bytes} : s.LaidOut nested chunks tail bytes →
      (s.fields.map VMNamedDynamicVariable.name).Nodup →
      (∀ f ∈ s.fields, HoldsAt (nested.fields.zip chunks) f.name f.value.data) →
      Holds ⟨.struct, some nested⟩ (.struct s) bytes
  | arrayStruct {nested : VMStructSchema} {a : VMStructArray} {chunks : List Bytes}
    {head : Bytes} : a.structs.mapM (fun s => s.writeWithSchema nested) = .ok chunks →
      (∀ p ∈ a.structs.zip chunks, Holds ⟨.struct, some nested⟩ (.struct p.1) p.2) →
      Holds ⟨.arrayStruct, some nested⟩ (.arrayStruct a) (head ++ chunks.flatten)

/-- Among the chunks of some fields, one of a name holds a value. -/
inductive HoldsAt : List (VMNamedVariableSchema × Bytes) → SmallString → VMValue → Prop
  | mk {places : List (VMNamedVariableSchema × Bytes)} {field : VMNamedVariableSchema}
    {chunk : Bytes} {value : VMValue} : (field, chunk) ∈ places →
      Holds field.schema value chunk → HoldsAt places field.name value

end

/-- The variables that a value is made of hold values of their own types, all the way down. -/
def VMValue.VariablesWhole : VMValue → Prop
  | dynamic v => Whole v.vmType .none v.data
  | arrayDynamic values => ∀ v ∈ values, Whole v.vmType .none v.data
  | _ => True

mutual

/-- The value loses nothing where it is written as it is: each value in it is in form, no
    two fields of a struct share a name, and the variables in it are whole. -/
inductive Lossless : VMVariableSchema → VMValue → Prop
  | leaf {schema : VMVariableSchema} {value : VMValue} : ¬schema.vmType.hasStruct →
      value.InForm schema.vmType → value.VariablesWhole → Lossless schema value
  | struct {nested : VMStructSchema} {s : VMDynamicStruct} :
      (s.fields.map VMNamedDynamicVariable.name).Nodup →
      (∀ f ∈ s.fields, LosslessAt nested.fields f.name f.value.data) →
      Lossless ⟨.struct, some nested⟩ (.struct s)
  | arrayStruct {nested : VMStructSchema} {a : VMStructArray} :
      (∀ s ∈ a.structs, Lossless ⟨.struct, some nested⟩ (.struct s)) →
      Lossless ⟨.arrayStruct, some nested⟩ (.arrayStruct a)

/-- Among some fields, one of a name loses nothing of a value. -/
inductive LosslessAt : List VMNamedVariableSchema → SmallString → VMValue → Prop
  | mk {fields : List VMNamedVariableSchema} {field : VMNamedVariableSchema} {value : VMValue} :
      field ∈ fields → Lossless field.schema value → LosslessAt fields field.name value

end

theorem holdsAt_iff {places : List (VMNamedVariableSchema × Bytes)} {name : SmallString}
    {value : VMValue} : HoldsAt places name value ↔ ∃ field chunk, (field, chunk) ∈ places ∧
      field.name = name ∧ Holds field.schema value chunk := by
  constructor
  · rintro ⟨hp, h⟩
    exact ⟨_, _, hp, rfl, h⟩
  · rintro ⟨field, chunk, hp, rfl, h⟩
    exact .mk hp h

theorem losslessAt_iff {fields : List VMNamedVariableSchema} {name : SmallString}
    {value : VMValue} : LosslessAt fields name value ↔ ∃ field ∈ fields,
      field.name = name ∧ Lossless field.schema value := by
  constructor
  · rintro ⟨hf, h⟩
    exact ⟨_, hf, rfl, h⟩
  · rintro ⟨field, hf, rfl, h⟩
    exact .mk hf h

/-! ## Values without structs -/

theorem withinWidth_of_coerced {name : String} {vmType : VMType} {width : ℕ}
    (hwidth : (vmType, width) ∈ [(.int8, 8), (.int16, 16), (.int32, 32)]) {n : ℤ}
    {coerced : Int64} (h : coerceMetadataIntegerForType name vmType n = .ok coerced) :
    WithinWidth width coerced.toInt := by
  obtain ⟨hrange, hcoerced⟩ :=
    toInt_of_coerceMetadataIntegerForType (List.mem_append_left [(.int64, 64)] hwidth) h
  simp only [List.mem_cons, Prod.mk.injEq, List.not_mem_nil, or_false] at hwidth
  rcases hwidth with ⟨rfl, rfl⟩ | ⟨rfl, rfl⟩ | ⟨rfl, rfl⟩ <;>
    exact ⟨by norm_num at *; omega, by norm_num at *; omega⟩

/-- What a value is coerced to has the form of the type, if the type has no variables. -/
theorem hasForm_of_coerced {name : String} {vmType : VMType} {value coerced : VMValue}
    (h : coerceMetadataLeaf name vmType value = .ok coerced)
    (ht : vmType ≠ .dynamic ∧ vmType ≠ .arrayDynamic) : coerced.HasForm vmType := by
  cases vmType with
  | dynamic => exact absurd rfl ht.1
  | arrayDynamic => exact absurd rfl ht.2
  | struct | array | arrayStruct => cases h
  | int8 | int16 | int32 =>
    obtain ⟨n, -, h⟩ := bind_eq_ok.1 h
    obtain ⟨v, hv, h⟩ := bind_eq_ok.1 h
    obtain rfl := Except.ok.inj h
    exact withinWidth_of_coerced (by decide) hv
  | int64 | int256 =>
    obtain ⟨n, -, h⟩ := bind_eq_ok.1 h
    obtain ⟨v, -, h⟩ := bind_eq_ok.1 h
    exact Except.ok.inj h ▸ trivial
  | bytes | string | bytes16 | bytes32 | bytes64 =>
    obtain ⟨v, -, h⟩ := bind_eq_ok.1 h
    exact Except.ok.inj h ▸ trivial
  | _ =>
    obtain rfl := eq_of_coerceMetadataLeaf (by decide) h
    rw [coerceMetadataLeaf.eq_def] at h
    simp only at h
    split at h
    · exact trivial
    · cases h

/-- What a value is coerced to is whole iff the variables that the value is made of are. -/
theorem whole_coerced_iff {name : String} {vmType : VMType} {value coerced : VMValue}
    (h : coerceMetadataLeaf name vmType value = .ok coerced) (schema : Option VMStructSchema) :
    Whole vmType schema coerced ↔ value.VariablesWhole := by
  by_cases ht : vmType ≠ .dynamic ∧ vmType ≠ .arrayDynamic
  · refine iff_of_true (.leaf (hasForm_of_coerced h ht)) ?_
    -- No variables are coerced to a type without them.
    cases value with
    | dynamic | arrayDynamic =>
      cases vmType with
      | dynamic => exact absurd rfl ht.1
      | arrayDynamic => exact absurd rfl ht.2
      | _ => cases h
    | _ => exact trivial
  · have hvmType : vmType = .dynamic ∨ vmType = .arrayDynamic := by tauto
    rcases hvmType with rfl | rfl
    all_goals
      obtain rfl := eq_of_coerceMetadataLeaf (by decide) h
      rw [coerceMetadataLeaf.eq_def] at h
      simp only at h
      split at h
    · exact ⟨fun hwhole => by cases hwhole with
        | leaf hform => exact hform.elim
        | dynamic hv => exact hv, .dynamic⟩
    · cases h
    · exact ⟨fun hwhole => by cases hwhole with
        | leaf hform => exact hform.elim
        | arrayDynamic hvalues => exact hvalues, .arrayDynamic⟩
    · cases h

/-- A value that is written as it is, where the bytes hold what it is coerced to, is in form. -/
theorem inForm_of_held {name : String} {vmType : VMType} {value coerced : VMValue}
    {schema : Option VMStructSchema} {bytes : Bytes}
    (h : coerceMetadataLeaf name vmType value = .ok coerced)
    (hheld : Held vmType schema coerced bytes)
    (hw : value.writeStatic vmType schema = .ok bytes) : value.InForm vmType := by
  cases hheld with
  | leaf hform hbytes =>
    rw [← VMValue.writeStatic_of_hasForm hform schema] at hbytes
    exact (writeStatic_coerceMetadataLeaf_iff h schema).1 (hbytes.trans hw.symm)
  | dynamic | arrayDynamic => exact trivial
  | struct | structAt | arrayStruct => cases h

theorem Holds.variablesWhole {schema : VMVariableSchema} {value : VMValue} {bytes : Bytes}
    (h : Holds schema value bytes) (ht : ¬schema.vmType.hasStruct) : value.VariablesWhole := by
  cases h with
  | leaf _ hcoerced hbytes =>
    rw [coerceMetadataValue_eq _ ht] at hcoerced
    exact (whole_coerced_iff hcoerced _).1 hbytes.whole
  | _ => exact absurd rfl ht

/-- What is written of a struct by the schema that accepted it holds it iff nothing in it
    is lost. -/
def VMStructSchema.Decides (schema : VMStructSchema) : Prop :=
  ∀ parentName s bytes, validateMetadataStruct parentName schema s = .ok () →
    s.writeWithSchema schema = .ok bytes →
    (Holds ⟨.struct, some schema⟩ (.struct s) bytes ↔ Lossless ⟨.struct, some schema⟩ (.struct s))

theorem holds_iff {schema : VMVariableSchema} {name : String}
    {value coerced : VMValue} {bytes : Bytes}
    (hnested : ∀ nested, schema.structDef = some nested → nested.Decides)
    (h : coerceMetadataValue name schema value = .ok coerced)
    (hw : value.writeStatic schema.vmType schema.structDef = .ok bytes) :
    Holds schema value bytes ↔ Lossless schema value := by
  obtain ⟨vmType, structDef⟩ := schema
  by_cases ht : vmType.hasStruct
  swap
  · rw [coerceMetadataValue_eq name ht] at h
    constructor
    · intro hholds
      have hvariables := hholds.variablesWhole ht
      cases hholds with
      | leaf _ hcoerced hbytes =>
        rw [coerceMetadataValue_eq _ ht] at hcoerced
        exact .leaf ht (inForm_of_held hcoerced hbytes hw) hvariables
      | _ => exact absurd rfl ht
    · intro hless
      cases hless with
      | leaf _ hin hvariables =>
        have hbytes := ((writeStatic_coerceMetadataLeaf_iff h structDef).2 hin).trans hw
        exact .leaf ht ((coerceMetadataValue_eq name ht value).trans h)
          ((held_iff_whole hbytes).2 ((whole_coerced_iff h structDef).2 hvariables))
      | _ => exact absurd rfl ht
  cases vmType with
  | struct =>
    obtain ⟨nested, s, rfl, rfl, rfl, hs⟩ := coerceMetadataValue_struct_eq_ok.1 h
    -- A struct has a schema of its own, which decides it.
    exact hnested nested rfl name s bytes hs hw
  | arrayStruct =>
    obtain ⟨nested, a, rfl, rfl, rfl, hs⟩ := of_coerceMetadataValue_arrayStruct h
    have hitem : ∀ chunks, a.structs.mapM (fun s => s.writeWithSchema nested) = .ok chunks →
        ∀ p ∈ a.structs.zip chunks, (Holds ⟨.struct, some nested⟩ (.struct p.1) p.2 ↔
          Lossless ⟨.struct, some nested⟩ (.struct p.1)) := by
      intro chunks hchunks p hp
      obtain ⟨parentName, hparent⟩ := hs p.1 (List.of_mem_zip hp).1
      exact hnested nested rfl parentName p.1 p.2 hparent
        (List.forall₂_zip (mapM_eq_ok.1 hchunks) hp)
    constructor
    · intro hholds
      cases hholds with
      | leaf ht => exact absurd rfl ht
      | arrayStruct hchunks hheld =>
        refine .arrayStruct fun s hmem => ?_
        obtain ⟨chunk, hp⟩ := exists_mem_zip (mapM_eq_ok.1 hchunks).length_eq hmem
        exact (hitem _ hchunks _ hp).1 (hheld _ hp)
    · intro hless
      cases hless with
      | leaf ht => exact absurd rfl ht
      | arrayStruct hless =>
        obtain ⟨chunks, head, hchunks, rfl⟩ := VMStructArray.exists_chunks hw
        exact .arrayStruct hchunks fun p hp =>
          (hitem _ hchunks p hp).2 (hless p.1 (List.of_mem_zip hp).1)
  | _ => cases ht

theorem VMStructSchema.decides (schema : VMStructSchema) : schema.Decides := by
  induction schema using VMStructSchema.induction with
  | step schema ih =>
  intro parentName s bytes hs hw
  obtain ⟨hfields, hdeclared⟩ := validateMetadataStruct_eq_ok.1 hs
  have hfield : ∀ field ∈ schema.fields, ∀ f ∈ s.fields, f.name = field.name →
      (s.fields.map VMNamedDynamicVariable.name).Nodup → ∀ chunk,
      writeField s.fieldWriters field = .ok chunk →
      (Holds field.schema f.value.data chunk ↔ Lossless field.schema f.value.data) := by
    intro field hmem f hf hname hnodup chunk hchunk
    -- Where no name is repeated, what the schema's field finds is the field itself.
    have hfind := find?_of_nodup hnodup hf
    rw [hname] at hfind
    obtain ⟨f', coerced, hfind', hcoerced⟩ := validateMetadataField_eq_ok.1 (hfields field hmem)
    obtain rfl := Option.some.inj (hfind.symm.trans hfind')
    rw [VMDynamicStruct.writeField_eq hfind] at hchunk
    exact holds_iff (ih field hmem) hcoerced hchunk
  constructor
  · intro h
    cases h with
    | leaf ht => exact absurd rfl ht
    | struct hlaid hnodup hheld =>
      refine .struct hnodup fun f hf => ?_
      obtain ⟨field, chunk, hp, hname, h⟩ := holdsAt_iff.1 (hheld f hf)
      have hmem := (List.of_mem_zip hp).1
      exact losslessAt_iff.2 ⟨field, hmem, hname,
        (hfield field hmem f hf hname.symm hnodup chunk (hlaid.writeField_eq hp)).1 h⟩
  · intro h
    cases h with
    | leaf ht => exact absurd rfl ht
    | struct hnodup hless =>
      obtain ⟨chunks, tail, hlaid⟩ := VMDynamicStruct.exists_laidOut hw
      refine .struct hlaid hnodup fun f hf => ?_
      obtain ⟨field, hmem, hname, h⟩ := losslessAt_iff.1 (hless f hf)
      obtain ⟨chunk, hp, hchunk⟩ := hlaid.exists_mem hmem
      exact holdsAt_iff.2 ⟨field, chunk, hp, hname,
        (hfield field hmem f hf hname.symm hnodup chunk hchunk).2 h⟩

/-! ## What a builder writes -/

/-- The builders, with the identifier they are given. -/
inductive MetadataBuilder
  | tokenSeries (phantasmaSeriesId : ℤ)
  | nft (phantasmaNftId : ℤ)
  | phantasmaNft

namespace MetadataBuilder

def build (b : MetadataBuilder) (schema : VMStructSchema) (metadata : List (String × VMValue)) :
    Result Bytes :=
  match b with
  | tokenSeries id => buildTokenSeriesMetadata schema id metadata
  | nft id => buildNftRom schema id metadata
  | phantasmaNft => buildPhantasmaNftRom schema metadata

/-- The schema the output is written by. -/
def written (b : MetadataBuilder) (schema : VMStructSchema) : VMStructSchema :=
  match b with
  | phantasmaNft => buildPhantasmaNftPublicMintSchema schema
  | _ => schema

def defaults (b : MetadataBuilder) : List VMNamedVariableSchema :=
  match b with
  | tokenSeries _ => standardSeriesFields
  | nft _ => standardNftFields
  | phantasmaNft => []

/-- The builder's own input among the metadata. -/
def rom (b : MetadataBuilder) (metadata : List (String × VMValue)) : Result Bytes :=
  match b with
  | phantasmaNft => pure []
  | _ => metadataBytes metadata "rom"

/-- The fields the builder gives values itself. -/
def own (b : MetadataBuilder) (rom : Bytes) : List VMNamedDynamicVariable :=
  match b with
  | tokenSeries id => [idField id, modeField rom, romField rom]
  | nft id => [idField id, romField rom]
  | phantasmaNft => []

/-- The struct that is written. -/
def assemble (b : MetadataBuilder) (schema : VMStructSchema)
    (metadata : List (String × VMValue)) : Result VMDynamicStruct := do
  let rom ← b.rom metadata
  let fields ← metadataDynamicFieldsForSchema (b.written schema) b.defaults metadata
  pure (.new (b.own rom ++ fields))

/-- A field of the name is taken from the metadata. -/
def Takes (b : MetadataBuilder) (name : String) : Prop :=
  ∀ field ∈ b.defaults, field.name.value ≠ name

variable {b : MetadataBuilder} {schema : VMStructSchema} {metadata : List (String × VMValue)}

theorem exists_assemble {bytes : Bytes} (h : b.build schema metadata = .ok bytes) :
    ∃ s, b.assemble schema metadata = .ok s ∧ s.writeWithSchema (b.written schema) = .ok bytes := by
  cases b with
  | tokenSeries id =>
    obtain ⟨rom, hrom, h⟩ := bind_eq_ok.1 h
    obtain ⟨fields, hfields, h⟩ := bind_eq_ok.1 h
    exact ⟨_, bind_eq_ok.2 ⟨rom, hrom, bind_eq_ok.2 ⟨fields, hfields, rfl⟩⟩, h⟩
  | nft id =>
    obtain ⟨rom, hrom, h⟩ := bind_eq_ok.1 h
    obtain ⟨fields, hfields, h⟩ := bind_eq_ok.1 h
    exact ⟨_, bind_eq_ok.2 ⟨rom, hrom, bind_eq_ok.2 ⟨fields, hfields, rfl⟩⟩, h⟩
  | phantasmaNft =>
    change buildPhantasmaNftRom schema metadata = .ok bytes at h
    rw [buildPhantasmaNftRom] at h
    split at h
    · cases h
    · split at h
      · cases h
      · obtain ⟨fields, hfields, h⟩ := bind_eq_ok.1 h
        exact ⟨_, bind_eq_ok.2 ⟨[], rfl, bind_eq_ok.2 ⟨fields, hfields, rfl⟩⟩, h⟩

theorem exists_default_of_mem_own {rom : Bytes} {f : VMNamedDynamicVariable} (hf : f ∈ b.own rom) :
    ∃ field ∈ b.defaults, field.name = f.name := by
  cases b with
  | tokenSeries id =>
    simp only [own, List.mem_cons, List.not_mem_nil, or_false] at hf
    rcases hf with rfl | rfl | rfl
    · exact ⟨_, List.mem_cons_self, rfl⟩
    · exact ⟨_, List.mem_cons_of_mem _ List.mem_cons_self, rfl⟩
    · exact ⟨_, List.mem_cons_of_mem _ (List.mem_cons_of_mem _ List.mem_cons_self), rfl⟩
  | nft id =>
    simp only [own, List.mem_cons, List.not_mem_nil, or_false] at hf
    rcases hf with rfl | rfl
    · exact ⟨_, List.mem_cons_self, rfl⟩
    · exact ⟨_, List.mem_cons_of_mem _ List.mem_cons_self, rfl⟩
  | phantasmaNft => cases hf

/-! ### The fields taken from the metadata -/

theorem metadataDynamicField_eq_ok {field : VMNamedVariableSchema} {f : VMNamedDynamicVariable}
    (h : metadataDynamicField metadata field = .ok f) :
    ∃ pair data, metadata.find? (·.1 = field.name.value) = some pair ∧
      coerceMetadataValue field.name.value field.schema pair.2 = .ok data ∧
        f = ⟨field.name, ⟨field.schema.vmType, data⟩⟩ := by
  obtain ⟨found, hfound, h⟩ := bind_eq_ok.1 h
  cases found with
  | none => cases h
  | some value =>
    obtain ⟨pair, hpair, rfl⟩ := findMetadataValue_eq_some.1 hfound
    obtain ⟨data, hdata, h⟩ := bind_eq_ok.1 h
    exact ⟨pair, data, hpair, hdata, (Except.ok.inj h).symm⟩

theorem find?_of_forall₂ {fields : List VMNamedVariableSchema} {taken : List VMNamedDynamicVariable}
    (h : List.Forall₂ (fun field f => metadataDynamicField metadata field = .ok f) fields taken)
    {field : VMNamedVariableSchema} (hf : field ∈ fields) :
    ∃ first ∈ fields, first.name = field.name ∧ ∃ f,
      taken.find? (·.name = field.name) = some f ∧ metadataDynamicField metadata first = .ok f := by
  induction h with
  | nil => cases hf
  | @cons head f fields taken hhead _ ih =>
    have hname : f.name = head.name := by
      obtain ⟨_, _, -, -, rfl⟩ := metadataDynamicField_eq_ok hhead
      rfl
    by_cases heq : head.name = field.name
    · exact ⟨head, List.mem_cons_self, heq, f,
        List.find?_cons_of_pos (by simpa using hname.trans heq), hhead⟩
    · have hmem : field ∈ fields := (List.mem_cons.1 hf).resolve_left fun h => heq (h ▸ rfl)
      obtain ⟨first, hfirst, hfirstName, g, hg, hok⟩ := ih hmem
      refine ⟨first, List.mem_cons_of_mem _ hfirst, hfirstName, g, ?_, hok⟩
      rw [List.find?_cons_of_neg (by simpa [hname] using heq), hg]

theorem mem_taken_iff {field : VMNamedVariableSchema} :
    field ∈ schema.taken b.defaults ↔ field ∈ schema.fields ∧ b.Takes field.name.value := by
  rw [VMStructSchema.taken, List.mem_filter, Takes]
  simp [SmallString.value_inj]

/-- A pair that is alone of its name is coerced to the type of each field of the name, and
    at each is what is written of what the first makes of it. -/
theorem exists_coerced {s : VMDynamicStruct} (hs : b.assemble schema metadata = .ok s)
    (hnodup : (metadata.map Prod.fst).Nodup) {pair : String × VMValue} (hp : pair ∈ metadata)
    {field : VMNamedVariableSchema} (hf : field ∈ (b.written schema).fields)
    (hname : field.name.value = pair.1) (htakes : b.Takes pair.1) :
    ∃ first ∈ (b.written schema).fields, first.name = field.name ∧ ∃ coerced data,
      coerceMetadataValue first.name.value first.schema pair.2 = .ok data ∧
      coerceMetadataValue field.name.value field.schema pair.2 = .ok coerced ∧
      ∀ place, place.name = field.name → writeField s.fieldWriters place =
        data.writeStatic place.schema.vmType place.schema.structDef := by
  obtain ⟨rom, -, hs⟩ := bind_eq_ok.1 hs
  obtain ⟨taken, htaken, hs⟩ := bind_eq_ok.1 hs
  obtain rfl := Except.ok.inj hs
  have hforall := mapM_eq_ok.1 htaken
  have hpair : metadata.find? (·.1 = field.name.value) = some pair := by
    rw [hname]
    exact find?_of_nodup hnodup hp
  have hmem : field ∈ (b.written schema).taken b.defaults := mem_taken_iff.2 ⟨hf, hname ▸ htakes⟩
  obtain ⟨g, -, hg⟩ := exists_of_forall₂_mem hforall hmem
  obtain ⟨pair', coerced, hpair', hcoerced, -⟩ := metadataDynamicField_eq_ok hg
  obtain rfl := Option.some.inj (hpair.symm.trans hpair')
  obtain ⟨first, hfirst, hfirstName, f, hfind, hok⟩ := find?_of_forall₂ hforall hmem
  obtain ⟨pair', data, hpair', hdata, rfl⟩ := metadataDynamicField_eq_ok hok
  rw [hfirstName] at hpair'
  obtain rfl := Option.some.inj (hpair.symm.trans hpair')
  refine ⟨first, (mem_taken_iff.1 hfirst).1, hfirstName, coerced, data, hdata, hcoerced,
    fun place hat => ?_⟩
  refine VMDynamicStruct.writeField_eq (f := ⟨first.name, ⟨first.schema.vmType, data⟩⟩) ?_
  -- The builder's own fields come first, and none of them has the name.
  have hown : (b.own rom).find? (·.name = field.name) = none := by
    rw [List.find?_eq_none]
    intro f hf heq
    obtain ⟨d, hdefault, hdefaultName⟩ := exists_default_of_mem_own hf
    exact htakes d hdefault (by rw [hdefaultName, of_decide_eq_true heq, hname])
  rw [hat, VMDynamicStruct.new, VMDynamicStruct.sort, find?_sortByName, List.find?_append, hown,
    Option.none_or, hfind]

/-! ### The builder's own bytes -/

theorem rom_eq_of_mem (hnodup : (metadata.map Prod.fst).Nodup) {value : VMValue}
    (hp : ("rom", value) ∈ metadata) (hb : ¬b.Takes "rom") {rom : Bytes}
    (hrom : b.rom metadata = .ok rom) : coerceMetadataBytes "rom" value = .ok rom := by
  have hbytes : metadataBytes metadata "rom" = .ok rom := by
    cases b with
    | phantasmaNft => exact absurd (fun _ => nofun) hb
    | _ => exact hrom
  obtain ⟨found, hfound, h⟩ := bind_eq_ok.1 hbytes
  have hfind : findMetadataValue metadata "rom" = .ok (some value) :=
    findMetadataValue_eq_some.2 ⟨_, find?_of_nodup hnodup hp, rfl⟩
  obtain rfl := Except.ok.inj (hfind.symm.trans hfound)
  exact h

theorem find?_rom (hb : ¬b.Takes "rom") (rom : Bytes) (fields : List VMNamedDynamicVariable) :
    (VMDynamicStruct.new (b.own rom ++ fields)).fields.find? (·.name = ⟨"rom"⟩) =
      some (romField rom) := by
  rw [VMDynamicStruct.new, VMDynamicStruct.sort, find?_sortByName]
  cases b with
  | phantasmaNft => exact absurd (fun _ h => absurd h List.not_mem_nil) hb
  | _ => rfl

/-! ## The metadata that is kept -/

/-- The output holds what is supplied for the builder's own `rom`: at a field of the schema
    that has bytes, or, where the schema has no field of the name, among the others. -/
inductive HoldsRom (places : List (VMNamedVariableSchema × Bytes)) (tail : Bytes)
    (value : VMValue) : Prop
  | field {field : VMNamedVariableSchema} {chunk : Bytes} : (field, chunk) ∈ places →
      field.name = ⟨"rom"⟩ → field.schema.vmType = .bytes → Holds field.schema value chunk →
      HoldsRom places tail value
  | extra {rom enc : Bytes} : (∀ p ∈ places, p.1.name ≠ ⟨"rom"⟩) →
      coerceMetadataBytes "rom" value = .ok rom → (romField rom).fieldWriter.write = .ok enc →
      enc <:+: tail → HoldsRom places tail value

/-- Nothing of the metadata is dropped: no key is repeated, and each pair is held by the
    output, at a field the schema declares under the very name, or as the builder's `rom`. -/
structure Keeps (b : MetadataBuilder) (schema : VMStructSchema)
    (metadata : List (String × VMValue)) (bytes : Bytes) : Prop where
  nodup : (metadata.map Prod.fst).Nodup
  held : ∃ s chunks tail, b.assemble schema metadata = .ok s ∧
    s.LaidOut (b.written schema) chunks tail bytes ∧
    ∀ pair ∈ metadata,
      (b.Takes pair.1 ∧ HoldsAt ((b.written schema).fields.zip chunks) ⟨pair.1⟩ pair.2) ∨
        (¬b.Takes pair.1 ∧ pair.1 = "rom" ∧
          HoldsRom ((b.written schema).fields.zip chunks) tail pair.2)

/-- The schema has a place for the bytes of the builder's `rom`. -/
def PlacesRom (b : MetadataBuilder) (schema : VMStructSchema) : Prop :=
  (∃ field ∈ (b.written schema).fields, field.name = ⟨"rom"⟩ ∧ field.schema.vmType = .bytes) ∨
    ((∀ field ∈ (b.written schema).fields, field.name ≠ ⟨"rom"⟩) ∧
      (b.written schema).flags.contains .dynamicExtras)

/-- No key is repeated, each is that of a field taken from the metadata or of the builder's
    `rom`, no struct among the values loses anything, and the variables among them are
    whole. -/
structure Accounts (b : MetadataBuilder) (schema : VMStructSchema)
    (metadata : List (String × VMValue)) : Prop where
  nodup : (metadata.map Prod.fst).Nodup
  pairs : ∀ pair ∈ metadata,
    (b.Takes pair.1 ∧ ∃ field ∈ (b.written schema).fields, field.name = ⟨pair.1⟩ ∧
        (field.schema.vmType.hasStruct → Lossless field.schema pair.2) ∧
        (¬field.schema.vmType.hasStruct → pair.2.VariablesWhole)) ∨
      (¬b.Takes pair.1 ∧ pair.1 = "rom" ∧ b.PlacesRom schema)

theorem holdsAt_iff_of_laidOut {s : VMDynamicStruct} (hs : b.assemble schema metadata = .ok s)
    {chunks : List Bytes} {tail bytes : Bytes}
    (hlaid : s.LaidOut (b.written schema) chunks tail bytes)
    (hnodup : (metadata.map Prod.fst).Nodup) {pair : String × VMValue} (hp : pair ∈ metadata)
    (htakes : b.Takes pair.1) :
    HoldsAt ((b.written schema).fields.zip chunks) ⟨pair.1⟩ pair.2 ↔
      ∃ field ∈ (b.written schema).fields, field.name = ⟨pair.1⟩ ∧
        (field.schema.vmType.hasStruct → Lossless field.schema pair.2) ∧
        (¬field.schema.vmType.hasStruct → pair.2.VariablesWhole) := by
  constructor
  · intro hholds
    obtain ⟨field, chunk, hplace, hname, hholds⟩ := holdsAt_iff.1 hholds
    have hf := (List.of_mem_zip hplace).1
    refine ⟨field, hf, hname, fun hstruct => ?_, fun hleaf => hholds.variablesWhole hleaf⟩
    obtain ⟨first, -, -, coerced, data, hdata, hcoerced, hwritten⟩ :=
      exists_coerced hs hnodup hp hf (congrArg SmallString.value hname) htakes
    obtain ⟨-, rfl⟩ := eq_of_coerceMetadataValue hstruct hcoerced hdata
    have hw := (hwritten field rfl).symm.trans (hlaid.writeField_eq hplace)
    exact (holds_iff (fun nested _ => nested.decides) hcoerced hw).1 hholds
  · rintro ⟨field, hf, hname, hless, hvariables⟩
    obtain ⟨first, hfirst, hfirstName, coerced, data, hdata, hcoerced, hwritten⟩ :=
      exists_coerced hs hnodup hp hf (congrArg SmallString.value hname) htakes
    by_cases hstruct : field.schema.vmType.hasStruct
    · obtain ⟨-, rfl⟩ := eq_of_coerceMetadataValue hstruct hcoerced hdata
      obtain ⟨chunk, hplace, hchunk⟩ := hlaid.exists_mem hf
      have hw := (hwritten field rfl).symm.trans hchunk
      exact holdsAt_iff.2 ⟨field, chunk, hplace, hname,
        (holds_iff (fun nested _ => nested.decides) hcoerced hw).2 (hless hstruct)⟩
    · -- what is written at the first field of the name is coerced to its type
      have hleaf : ¬first.schema.vmType.hasStruct := fun hfirstStruct =>
        hstruct (eq_of_coerceMetadataValue hfirstStruct hdata hcoerced).1
      obtain ⟨chunk, hplace, hchunk⟩ := hlaid.exists_mem hfirst
      have hbytes := (hwritten first hfirstName).symm.trans hchunk
      have hwhole := (whole_coerced_iff ((coerceMetadataValue_eq _ hleaf pair.2).symm.trans hdata)
        first.schema.structDef).2 (hvariables hstruct)
      exact holdsAt_iff.2 ⟨first, chunk, hplace, hfirstName.trans hname,
        .leaf hleaf hdata ((held_iff_whole hbytes).2 hwhole)⟩

theorem holdsRom_iff_of_laidOut {s : VMDynamicStruct} (hs : b.assemble schema metadata = .ok s)
    {chunks : List Bytes} {tail bytes : Bytes}
    (hlaid : s.LaidOut (b.written schema) chunks tail bytes)
    (hw : s.writeWithSchema (b.written schema) = .ok bytes)
    (hnodup : (metadata.map Prod.fst).Nodup) {value : VMValue} (hp : ("rom", value) ∈ metadata)
    (hb : ¬b.Takes "rom") :
    HoldsRom ((b.written schema).fields.zip chunks) tail value ↔ b.PlacesRom schema := by
  have htail := hlaid.tail_eq hw
  obtain ⟨rom, hrom, hs⟩ := bind_eq_ok.1 hs
  obtain ⟨taken, -, hs⟩ := bind_eq_ok.1 hs
  have hraw := rom_eq_of_mem hnodup hp hb hrom
  have hfind : s.fields.find? (·.name = ⟨"rom"⟩) = some (romField rom) :=
    Except.ok.inj hs ▸ find?_rom hb rom taken
  constructor
  · rintro (⟨hplace, hname, htype, -⟩ | ⟨hother, -, henc, hin⟩)
    · exact .inl ⟨_, (List.of_mem_zip hplace).1, hname, htype⟩
    · refine .inr ⟨fun field hf => ?_, ?_⟩
      · obtain ⟨chunk, hplace, -⟩ := hlaid.exists_mem hf
        exact hother _ hplace
      · -- Without the flag nothing follows the chunks.
        by_contra hflag
        rw [if_neg hflag] at htail
        rw [htail, List.infix_nil] at hin
        exact ne_nil_of_write henc hin
  · rintro (⟨field, hf, hname, htype⟩ | ⟨hother, hflag⟩)
    · obtain ⟨chunk, hplace, hchunk⟩ := hlaid.exists_mem hf
      rw [VMDynamicStruct.writeField_eq (hname ▸ hfind)] at hchunk
      refine .field hplace hname htype ?_
      obtain ⟨name, ⟨vmType, structDef⟩⟩ := field
      obtain rfl : vmType = .bytes := htype
      have hcoerced : coerceMetadataValue "rom" ⟨.bytes, structDef⟩ value = .ok (.bytes rom) :=
        bind_eq_ok.2 ⟨rom, hraw, rfl⟩
      exact .leaf (show ¬VMType.bytes.hasStruct by decide) hcoerced (.leaf trivial hchunk)
    · rw [if_pos hflag] at htail
      -- Not declared, it is written with the other fields the schema does not have.
      have hmem : romField rom ∈ s.extras (b.written schema) :=
        VMDynamicStruct.mem_extras_iff.2 ⟨List.mem_of_find?_eq_some hfind, hother⟩
      obtain ⟨enc, henc, hin⟩ := exists_infix_of_writeArray htail (List.mem_map_of_mem hmem)
      exact .extra (fun p hplace => hother _ (List.of_mem_zip hplace).1) hraw henc hin

/-- A builder that succeeds has dropped nothing of the metadata iff the metadata has no key
    but once, none that the schema does not declare, and no struct that loses anything. -/
theorem keeps_iff {bytes : Bytes} (h : b.build schema metadata = .ok bytes) :
    b.Keeps schema metadata bytes ↔ b.Accounts schema metadata := by
  obtain ⟨s, hs, hw⟩ := exists_assemble h
  constructor
  · rintro ⟨hnodup, s', chunks, tail, hs', hlaid, hheld⟩
    obtain rfl := Except.ok.inj (hs.symm.trans hs')
    refine ⟨hnodup, fun pair hp => ?_⟩
    obtain ⟨name, value⟩ := pair
    rcases hheld _ hp with ⟨htakes, hholds⟩ | ⟨hb, rfl, hholds⟩
    · exact .inl ⟨htakes, (holdsAt_iff_of_laidOut hs hlaid hnodup hp htakes).1 hholds⟩
    · exact .inr ⟨hb, rfl, (holdsRom_iff_of_laidOut hs hlaid hw hnodup hp hb).1 hholds⟩
  · rintro ⟨hnodup, hpairs⟩
    obtain ⟨chunks, tail, hlaid⟩ := VMDynamicStruct.exists_laidOut hw
    refine ⟨hnodup, s, chunks, tail, hs, hlaid, fun pair hp => ?_⟩
    obtain ⟨name, value⟩ := pair
    rcases hpairs _ hp with ⟨htakes, hfield⟩ | ⟨hb, rfl, hplaces⟩
    · exact .inl ⟨htakes, (holdsAt_iff_of_laidOut hs hlaid hnodup hp htakes).2 hfield⟩
    · exact .inr ⟨hb, rfl, (holdsRom_iff_of_laidOut hs hlaid hw hnodup hp hb).2 hplaces⟩

/-- The standard fields of an NFT, and a name. -/
def namedSchema : VMStructSchema := ⟨standardNftFields ++ [standardField "name" .string], .none⟩

/-- A pair for each field that is not the builder's, and one for its `rom`. -/
theorem keeps_named : (nft 5).build namedSchema [("name", .string "A"), ("rom", .string "0xAb1")] =
      .ok [1, 5, 2, 0, 0, 0, 10, 177, 65, 0] ∧
    (nft 5).Keeps namedSchema [("name", .string "A"), ("rom", .string "0xAb1")]
      [1, 5, 2, 0, 0, 0, 10, 177, 65, 0] := by
  have hbuild : (nft 5).build namedSchema [("name", .string "A"), ("rom", .string "0xAb1")] =
      .ok [1, 5, 2, 0, 0, 0, 10, 177, 65, 0] := by rfl
  have hname : (nft 5).Takes "name" := show ∀ field ∈ standardNftFields, _ by decide
  have hrom : ¬(nft 5).Takes "rom" := fun h =>
    h (standardField "rom" .bytes) (List.mem_cons_of_mem _ List.mem_cons_self) rfl
  refine ⟨hbuild, (keeps_iff hbuild).2 ⟨by decide, List.forall_mem_cons.2 ⟨.inl ⟨hname, ?_⟩,
    List.forall_mem_cons.2 ⟨.inr ⟨hrom, rfl, .inl ?_⟩, nofun⟩⟩⟩⟩
  · exact ⟨standardField "name" .string, List.mem_append_right _ List.mem_cons_self, rfl, nofun,
      fun _ => trivial⟩
  · exact ⟨standardField "rom" .bytes, List.mem_cons_of_mem _ List.mem_cons_self, rfl, rfl⟩

/-- A key that the schema does not declare is passed over. -/
theorem not_keeps : ∃ bytes,
    (nft 5).build namedSchema [("name", .string "A"), ("color", .string "red")] = .ok bytes ∧
      ¬(nft 5).Keeps namedSchema [("name", .string "A"), ("color", .string "red")] bytes := by
  refine ⟨[1, 5, 0, 0, 0, 0, 65, 0], by rfl, ?_⟩
  rintro ⟨-, s, chunks, tail, -, -, hheld⟩
  rcases hheld ("color", .string "red") (List.mem_cons_of_mem _ List.mem_cons_self) with
    ⟨-, hholds⟩ | ⟨-, hrom, -⟩
  · obtain ⟨field, chunk, hplace, hname, -⟩ := holdsAt_iff.1 hholds
    have hne : ∀ field ∈ namedSchema.fields, field.name ≠ ⟨"color"⟩ := by
      simp [namedSchema, standardNftFields, standardField, standardMetaId]
    exact hne field (List.of_mem_zip hplace).1 hname
  · exact absurd hrom (by decide)

end MetadataBuilder

end PhantasmaSdk
