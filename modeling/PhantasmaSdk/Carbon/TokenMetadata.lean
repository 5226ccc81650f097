import PhantasmaSdk.Carbon.TokenSchemas
import PhantasmaSdk.Carbon.VmRoundTrip

/-!
# Token metadata

The metadata of a token is a dynamic struct of strings, with a name, an icon, a URL and a
description that are not blank, and with an icon that is an image in a data URI. What
decodes Base64 is taken from elsewhere.

The builders of schemas and of metadata take the names of fields as they are given, and
make short texts of them in a panic where they are longer than one can be
(`noPanic_builders_iff`).
-/

namespace PhantasmaSdk

open Codec CarbonWriter
open Serde (Json)

/-! ## Building -/

def requiredTokenMetadata : List String := ["name", "icon", "url", "description"]

/-- Each of the names has a value that is not blank. -/
def requireTokenMetadata (fields : List (String × String)) : List String → Result Unit
  | [] => pure ()
  | required :: names =>
    match fields.lookup required with
    | none => builder s!"token metadata is missing required field: {required}"
    | some value =>
      if trim value = "" then builder s!"token metadata is missing required field: {required}"
      else requireTokenMetadata fields names

def iconPrefixes : List String :=
  ["data:image/png;base64,", "data:image/jpeg;base64,", "data:image/webp;base64,"]

variable (base64 : String → Except String Bytes)

def validateIconDataUri (value : String) : Result Unit :=
  let lower := value.toList.map Char.toLower
  if ¬iconPrefixes.any (·.toList.isPrefixOf lower) then
    builder "token icon must be a png/jpeg/webp data URI"
  else
    -- after the first comma
    match (value.toList.dropWhile (· ≠ ',')).tail? with
    | none => builder "token icon data URI must include a non-empty base64 payload"
    | some payload =>
      if payload = [] then builder "token icon data URI must include a non-empty base64 payload"
      else
        match base64 (String.ofList payload) with
        | .ok _ => pure ()
        | .error err => builder s!"token icon data URI contains invalid base64: {err}"

/-- `VMNamedDynamicVariable::new` of a string. -/
def VMNamedDynamicVariable.newString (name value : String) : Result VMNamedDynamicVariable := do
  let name ← SmallString.fromText name
  pure ⟨name, ⟨.string, .string value⟩⟩

def buildTokenMetadata (fields : List (String × String)) : Result Bytes := do
  requireTokenMetadata fields requiredTokenMetadata
  let icon := (fields.lookup "icon").getD ""
  validateIconDataUri base64 icon
  let named ← fields.mapM fun (name, value) => VMNamedDynamicVariable.newString name value
  serialize (VMDynamicStruct.new named)

/-! ## Names of fields -/

/-- The name fits a `SmallString`. -/
def ShortName (name : String) : Prop := (utf8 name).length ≤ 255

instance (name : String) : Decidable (ShortName name) := inferInstanceAs (Decidable (_ ≤ _))

theorem noPanic_smallString_iff {name : String} :
    NoPanic (SmallString.fromText name) ↔ ShortName name := by
  rw [SmallString.fromText, ShortName, ← not_lt]
  split
  next h => exact iff_of_false (fun hn => hn _ rfl trivial) (not_not.2 h)
  next h => exact iff_of_true (noPanic_ok _) h

theorem isPanic_of_fromText {name : String} {e : Fault}
    (h : SmallString.fromText name = .error e) : e.IsPanic := by
  obtain ⟨-, h⟩ | ⟨-, h⟩ := ite_eq_iff.1 h
  · exact Except.error.inj h ▸ trivial
  · cases h

/-- Elements made of short texts are so, unless a name is too long. -/
theorem noPanic_mapM_fromText_iff {α β : Type} {name : α → String} {build : α → SmallString → β}
    {f : α → Result β}
    (hf : ∀ a, f a = do pure (build a (← SmallString.fromText (name a)))) {as : List α} :
    NoPanic (as.mapM f) ↔ ∀ a ∈ as, ShortName (name a) := by
  rw [noPanic_mapM_iff]
  · refine forall₂_congr fun a _ => ?_
    rw [hf, noPanic_bind_iff, noPanic_smallString_iff]
    exact ⟨fun h => h.1, fun h => ⟨h, fun _ _ => noPanic_ok _⟩⟩
  · intro a _ e he
    rw [hf] at he
    match hn : SmallString.fromText (name a) with
    | .ok small =>
      rw [hn] at he
      cases he
    | .error e' =>
      rw [hn] at he
      exact Except.error.inj he ▸ isPanic_of_fromText hn

/-- Elements made of short texts are made, where the names are short. -/
theorem exists_mapM_fromText {α β : Type} {name : α → String} {build : α → SmallString → β}
    {f : α → Result β}
    (hf : ∀ a, f a = do pure (build a (← SmallString.fromText (name a)))) {as : List α}
    (h : ∀ a ∈ as, ShortName (name a)) : ∃ bs, as.mapM f = .ok bs := by
  have hok : ∀ a ∈ as, ∃ b, f a = .ok b := by
    intro a ha
    rw [hf, SmallString.fromText, if_neg (not_lt.2 (h a ha))]
    exact ⟨_, rfl⟩
  obtain ⟨bs, hbs⟩ := forall₂_of_isOk hok
  exact ⟨bs, mapM_eq_ok.2 hbs⟩

/-! ## Schemas -/

theorem noPanic_findMetadataField (expected : VMNamedVariableSchema) (caseMismatch : Bool)
    (fields : List VMNamedVariableSchema) :
    NoPanic (findMetadataField expected caseMismatch fields) := by
  induction fields generalizing caseMismatch with
  | nil => exact noPanic_ok _
  | cons actual fields ih =>
    rw [findMetadataField]
    split
    next =>
      split
      next => exact noPanic_builder _
      next => exact noPanic_ok _
    next => exact ih _

theorem noPanic_findMetadataFieldIn (expected : VMNamedVariableSchema) (caseMismatch : Bool)
    (schemas : List VMStructSchema) :
    NoPanic (findMetadataFieldIn expected caseMismatch schemas) := by
  induction schemas generalizing caseMismatch with
  | nil => exact noPanic_ok _
  | cons schema schemas ih =>
    refine (noPanic_findMetadataField _ _ _).bind fun ⟨found, caseMismatch⟩ => ?_
    cases found with
    | true => exact noPanic_ok _
    | false => exact ih _

theorem noPanic_assertMetadataFields (schemas : List VMStructSchema)
    (fields : List VMNamedVariableSchema) : NoPanic (assertMetadataFields schemas fields) := by
  induction fields with
  | nil => exact noPanic_ok _
  | cons expected fields ih =>
    refine (noPanic_findMetadataFieldIn _ _ _).bind fun ⟨found, caseMismatch⟩ => ?_
    cases found with
    | true => exact ih
    | false => cases caseMismatch <;> exact noPanic_builder _

theorem noPanic_verifyTokenSchemas (schemas : TokenSchemas) :
    NoPanic (verifyTokenSchemas schemas) :=
  (noPanic_assertMetadataFields _ _).bind fun _ =>
    (noPanic_assertMetadataFields _ _).bind fun _ => noPanic_assertMetadataFields _ _

theorem noPanic_buildTokenSchemas_iff (seriesMetadata rom ram : List TokenSchemaField) :
    NoPanic (buildTokenSchemasFromFields seriesMetadata rom ram) ↔
      ∀ field ∈ seriesMetadata ++ rom ++ ram, ShortName field.name := by
  have hnames (fields : List TokenSchemaField) :
      NoPanic (fields.mapM fun field => VMNamedVariableSchema.new field.name field.vmType) ↔
        ∀ field ∈ fields, ShortName field.name := noPanic_mapM_fromText_iff fun _ => rfl
  have hmade (fields : List TokenSchemaField) (h : ∀ field ∈ fields, ShortName field.name) :
      ∃ named, (fields.mapM fun field => VMNamedVariableSchema.new field.name field.vmType) =
        .ok named := exists_mapM_fromText (fun _ => rfl) h
  rw [buildTokenSchemasFromFields, List.forall_mem_append, List.forall_mem_append]
  constructor
  · intro h
    -- Each list is reached once the names of those before it are short.
    obtain ⟨hn, h⟩ := noPanic_bind_iff.1 h
    have hseries := (hnames _).1 hn
    obtain ⟨series, hs⟩ := hmade _ hseries
    obtain ⟨hn, h⟩ := noPanic_bind_iff.1 (h series hs)
    have hrom := (hnames _).1 hn
    obtain ⟨romFields, hr⟩ := hmade _ hrom
    obtain ⟨hn, -⟩ := noPanic_bind_iff.1 (h romFields hr)
    exact ⟨⟨hseries, hrom⟩, (hnames _).1 hn⟩
  · rintro ⟨⟨hseries, hrom⟩, hram⟩
    exact ((hnames _).2 hseries).bind fun _ => ((hnames _).2 hrom).bind fun _ =>
      ((hnames _).2 hram).bind fun _ => (noPanic_verifyTokenSchemas _).bind fun _ => noPanic_ok _

theorem noPanic_vmTypeFromString (value : String) : NoPanic (vmTypeFromString value) := by
  rw [vmTypeFromString]
  split <;> first | exact noPanic_ok _ | exact noPanic_builder _

theorem noPanic_parseTokenSchemaFieldArray (raw : List (String × Json)) (key : String) :
    NoPanic (parseTokenSchemaFieldArray raw key) := by
  rw [parseTokenSchemaFieldArray]
  split
  next => exact noPanic_builder _
  next =>
    refine NoPanic.mapM fun entry _ => ?_
    change NoPanic (parseTokenSchemaField key entry.2 entry.1)
    rw [parseTokenSchemaField]
    split
    next => exact noPanic_builder _
    next =>
      split
      next => exact noPanic_builder _
      next =>
        split
        next => exact noPanic_builder _
        next => exact (noPanic_vmTypeFromString _).bind fun _ => noPanic_ok _

theorem noPanic_parseTokenSchemasJson (fromStr : String → Except String Json) (data : String) :
    NoPanic (parseTokenSchemasJson fromStr data) := by
  rw [parseTokenSchemasJson]
  split
  next => exact noPanic_builder _
  next =>
    split
    next => exact noPanic_builder _
    next =>
      exact (noPanic_parseTokenSchemaFieldArray _ _).bind fun _ =>
        (noPanic_parseTokenSchemaFieldArray _ _).bind fun _ =>
          (noPanic_parseTokenSchemaFieldArray _ _).bind fun _ => noPanic_ok _

theorem noPanic_tokenSchemasFromJson_iff (fromStr : String → Except String Json) (data : String) :
    NoPanic (tokenSchemasFromJson fromStr data) ↔
      ∀ parsed, parseTokenSchemasJson fromStr data = .ok parsed →
        ∀ field ∈ parsed.seriesMetadata ++ parsed.rom ++ parsed.ram, ShortName field.name := by
  rw [tokenSchemasFromJson, noPanic_bind_iff]
  simp only [noPanic_buildTokenSchemas_iff]
  exact and_iff_right (noPanic_parseTokenSchemasJson fromStr data)

/-! ## Metadata -/

/-- The text is an image in a data URI, of the kinds taken. -/
def IconDataUri (value : String) : Prop :=
  (∃ p ∈ iconPrefixes, p.toList <+: value.toList.map Char.toLower) ∧
    ∃ payload, (value.toList.dropWhile (· ≠ ',')).tail? = some payload ∧ payload ≠ [] ∧
      ∃ raw, base64 (String.ofList payload) = .ok raw

/-- The required fields are there, and are not blank, and the icon is one. -/
structure ValidTokenMetadata (fields : List (String × String)) : Prop where
  required : ∀ name ∈ requiredTokenMetadata, ∃ value, fields.lookup name = some value ∧
    trim value ≠ ""
  icon : IconDataUri base64 ((fields.lookup "icon").getD "")

theorem noPanic_requireTokenMetadata (fields : List (String × String)) (names : List String) :
    NoPanic (requireTokenMetadata fields names) := by
  induction names with
  | nil => exact noPanic_ok _
  | cons required names ih =>
    rw [requireTokenMetadata]
    split
    next => exact noPanic_builder _
    next =>
      split
      next => exact noPanic_builder _
      next => exact ih

theorem requireTokenMetadata_eq_ok {fields : List (String × String)} {names : List String} :
    requireTokenMetadata fields names = .ok () ↔
      ∀ name ∈ names, ∃ value, fields.lookup name = some value ∧ trim value ≠ "" := by
  induction names with
  | nil => exact iff_of_true rfl nofun
  | cons required names ih =>
    rw [requireTokenMetadata, List.forall_mem_cons, ← ih]
    match hl : fields.lookup required with
    | none => exact iff_of_false nofun (by rintro ⟨⟨_, h, -⟩, -⟩; cases h)
    | some value =>
      by_cases hblank : trim value = ""
      · simp only [if_pos hblank]
        refine iff_of_false nofun ?_
        rintro ⟨⟨_, h, hne⟩, -⟩
        exact hne (Option.some.inj h ▸ hblank)
      · simp only [if_neg hblank]
        exact ⟨fun h => ⟨⟨value, rfl, hblank⟩, h⟩, fun h => h.2⟩

theorem noPanic_validateIconDataUri (value : String) :
    NoPanic (validateIconDataUri base64 value) := by
  rw [validateIconDataUri]
  split
  next => exact noPanic_builder _
  next =>
    split
    next => exact noPanic_builder _
    next =>
      split
      next => exact noPanic_builder _
      next =>
        split
        next => exact noPanic_ok _
        next => exact noPanic_builder _

theorem validateIconDataUri_eq_ok {value : String} :
    validateIconDataUri base64 value = .ok () ↔ IconDataUri base64 value := by
  have hprefix : (∃ p ∈ iconPrefixes, p.toList <+: value.toList.map Char.toLower) ↔
      iconPrefixes.any (·.toList.isPrefixOf (value.toList.map Char.toLower)) := by
    simp only [List.any_eq_true, List.isPrefixOf_iff_prefix]
  rw [validateIconDataUri, IconDataUri, hprefix]
  by_cases hp : iconPrefixes.any (·.toList.isPrefixOf (value.toList.map Char.toLower))
  · rw [if_neg (not_not.2 hp), and_iff_right hp]
    match hpayload : (value.toList.dropWhile (· ≠ ',')).tail? with
    | none => exact iff_of_false nofun (by rintro ⟨_, h, -⟩; cases h)
    | some payload =>
      by_cases hempty : payload = []
      · simp only [if_pos hempty]
        refine iff_of_false nofun ?_
        rintro ⟨_, h, hne, -⟩
        exact hne (Option.some.inj h ▸ hempty)
      · simp only [if_neg hempty]
        match hraw : base64 (String.ofList payload) with
        | .ok raw => exact iff_of_true rfl ⟨payload, rfl, hempty, raw, hraw⟩
        | .error err =>
          refine iff_of_false nofun ?_
          rintro ⟨_, h, -, raw, h'⟩
          obtain rfl := Option.some.inj h
          cases hraw.symm.trans h'
  · rw [if_pos hp]
    exact iff_of_false nofun fun h => hp h.1

theorem noPanic_ensureU32Len (len : ℕ) : NoPanic (ensureU32Len len) := by
  rw [ensureU32Len]
  split
  next => exact noPanic_ok _
  next => exact noPanic_serialization _

theorem noPanic_writeSmallString (name : SmallString) : NoPanic (writeCarbon name) := by
  change NoPanic (if (utf8 name.value).length < 256 then _ else _ : Result Bytes)
  split
  next => exact noPanic_ok _
  next => exact noPanic_serialization _

theorem noPanic_writeStringZ (value : String) : NoPanic (writeStringZ value) := by
  rw [writeStringZ]
  split
  next => exact noPanic_serialization _
  next => exact noPanic_ok _

/-- A struct of strings is written, or refused. -/
theorem noPanic_serialize_strings {fields : List VMNamedDynamicVariable}
    (h : ∀ f ∈ fields, ∃ name value, f = ⟨name, ⟨.string, .string value⟩⟩) :
    NoPanic (serialize (VMDynamicStruct.new fields)) := by
  change NoPanic (VMDynamicStruct.write _)
  rw [VMDynamicStruct.write, VMDynamicStruct.fieldWriters_eq]
  refine (noPanic_ensureU32Len _).bind fun len =>
    (NoPanic.mapM fun writer hwriter => ?_).bind fun _ => noPanic_ok _
  -- The writer is one of the fields', in whatever order.
  obtain ⟨f, hf, rfl⟩ := List.mem_map.1 ((List.mem_insertionSort _).1 hwriter)
  obtain ⟨name, value, rfl⟩ := h f ((List.mem_insertionSort _).1 hf)
  exact (noPanic_writeSmallString name).bind fun _ =>
    (noPanic_writeStringZ value).bind fun _ => noPanic_ok _

theorem noPanic_buildTokenMetadata_iff (fields : List (String × String)) :
    NoPanic (buildTokenMetadata base64 fields) ↔
      (ValidTokenMetadata base64 fields → ∀ field ∈ fields, ShortName field.1) := by
  have hnames : NoPanic (fields.mapM fun (name, value) =>
      VMNamedDynamicVariable.newString name value) ↔ ∀ field ∈ fields, ShortName field.1 :=
    noPanic_mapM_fromText_iff fun _ => rfl
  rw [buildTokenMetadata]
  constructor
  · rintro h ⟨hrequired, hicon⟩
    -- The names are come to once both checks have passed.
    obtain ⟨-, h⟩ := noPanic_bind_iff.1 h
    obtain ⟨-, h⟩ := noPanic_bind_iff.1 (h () (requireTokenMetadata_eq_ok.2 hrequired))
    obtain ⟨h, -⟩ := noPanic_bind_iff.1 (h () ((validateIconDataUri_eq_ok base64).2 hicon))
    exact hnames.1 h
  · intro h
    refine noPanic_bind_iff.2 ⟨noPanic_requireTokenMetadata _ _, fun _ hrequired => ?_⟩
    refine noPanic_bind_iff.2 ⟨noPanic_validateIconDataUri _ _, fun _ hicon => ?_⟩
    have hshort := h ⟨requireTokenMetadata_eq_ok.1 hrequired,
      (validateIconDataUri_eq_ok base64).1 hicon⟩
    refine noPanic_bind_iff.2 ⟨hnames.2 hshort, fun named hnamed => ?_⟩
    refine noPanic_serialize_strings fun f hf => ?_
    obtain ⟨field, -, hbuilt⟩ := exists_of_forall₂_mem (mapM_eq_ok.1 hnamed).flip hf
    obtain ⟨name, -, hbuilt⟩ := bind_eq_ok.1 hbuilt
    exact ⟨name, field.2, (Except.ok.inj hbuilt).symm⟩

/-! ## The builders -/

/-- The builders of token schemas and of token metadata return, unless they come to a name of more
    than 255 bytes: in the lists of fields, in a text that is read as such lists, or in metadata
    that are otherwise valid. -/
theorem noPanic_builders_iff (fromStr : String → Except String Json) (data : String)
    (seriesMetadata rom ram : List TokenSchemaField) (fields : List (String × String)) :
    (NoPanic (tokenSchemasFromJson fromStr data) ↔
      ∀ parsed, parseTokenSchemasJson fromStr data = .ok parsed →
        ∀ field ∈ parsed.seriesMetadata ++ parsed.rom ++ parsed.ram, ShortName field.name) ∧
    (NoPanic (buildTokenSchemasFromFields seriesMetadata rom ram) ↔
      ∀ field ∈ seriesMetadata ++ rom ++ ram, ShortName field.name) ∧
    (NoPanic (buildTokenMetadata base64 fields) ↔
      (ValidTokenMetadata base64 fields → ∀ field ∈ fields, ShortName field.1)) :=
  ⟨noPanic_tokenSchemasFromJson_iff fromStr data,
    noPanic_buildTokenSchemas_iff seriesMetadata rom ram,
    noPanic_buildTokenMetadata_iff base64 fields⟩

/-- A name of 256 bytes. -/
def longName : String := String.ofList (List.replicate 256 'a')

theorem not_shortName {n : ℕ} (h : 255 < n) :
    ¬ShortName (String.ofList (List.replicate n 'a')) := by
  have hascii : ∀ c ∈ List.replicate n 'a', c.toNat < 128 := fun c hc =>
    List.eq_of_mem_replicate hc ▸ by decide
  rw [ShortName, length_utf8, String.toList_ofList, utf8Len_of_ascii hascii, List.length_replicate]
  omega

theorem not_shortName_longName : ¬ShortName longName := not_shortName (by norm_num)

theorem not_noPanic_buildTokenSchemas {name : String} (h : ¬ShortName name) :
    ¬NoPanic (buildTokenSchemasFromFields [] [] [⟨name, .string⟩]) := fun hn =>
  h ((noPanic_buildTokenSchemas_iff _ _ _).1 hn ⟨name, .string⟩ (by simp))

theorem not_noPanic_builders : ¬∀ (fromStr : String → Except String Json)
    (base64 : String → Except String Bytes) (data : String)
    (seriesMetadata rom ram : List TokenSchemaField) (fields : List (String × String)),
      NoPanic (tokenSchemasFromJson fromStr data) ∧
      NoPanic (buildTokenSchemasFromFields seriesMetadata rom ram) ∧
      NoPanic (buildTokenMetadata base64 fields) := by
  intro h
  obtain ⟨-, hschemas, -⟩ := h (fun _ => .error "") (fun _ => .error "") "" [] []
    [⟨longName, .string⟩] []
  exact not_noPanic_buildTokenSchemas not_shortName_longName hschemas

end PhantasmaSdk
