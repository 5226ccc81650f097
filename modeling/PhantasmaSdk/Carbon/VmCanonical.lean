import PhantasmaSdk.Carbon.VmRoundTrip

/-!
# The image of a dynamic struct

A dynamic struct is sorted by name when it is built, when it is written and when
it is read, so that what is written of its fields does not depend on their order
(`VMDynamicStruct.Canonical`). Whether it is read back depends on the arrays of
structs it holds, as for a variable by itself
(`VMDynamicVariable.roundTrips_iff_need`).
-/

namespace PhantasmaSdk

open Codec Codec.Decoder CarbonWriter CarbonReader

namespace VMDynamicStruct

/-- Well-typed variables of distinct names, as many as a list holds. -/
structure WellTypedFields (fields : List VMNamedDynamicVariable) : Prop where
  length_lt : fields.length < 2 ^ 31
  names : ∀ f ∈ fields, (utf8 f.name.value).length < 256
  nodup : (fields.map VMNamedDynamicVariable.name).Nodup
  wellTyped : ∀ f ∈ fields, f.value.WellTyped

/-- The fields are written as `enc` in any order, and `enc` is read as the struct of the
    fields, which holds them sorted by name and finds each by its name. -/
structure Canonical (fields : List VMNamedDynamicVariable) (enc : Bytes) : Prop where
  written : ∀ fields', fields'.Perm fields → serialize (⟨fields'⟩ : VMDynamicStruct) = .ok enc
  read : deserialize VMDynamicStruct enc = .ok (new fields)
  perm : (new fields).fields.Perm fields
  sorted : (new fields).Sorted
  get : ∀ f ∈ fields, (new fields).get f.name = some f.value

variable {fields : List VMNamedDynamicVariable}

theorem perm_new (fields : List VMNamedDynamicVariable) : (new fields).fields.Perm fields :=
  List.perm_insertionSort _ fields

theorem sorted_new (fields : List VMNamedDynamicVariable) : (new fields).Sorted :=
  pairwise_sortByName VMNamedDynamicVariable.name fields

/-- A field is found by its name: sorting does not change what is found. -/
theorem get_new (hn : (fields.map VMNamedDynamicVariable.name).Nodup) {f : VMNamedDynamicVariable}
    (hf : f ∈ fields) : (new fields).get f.name = some f.value := by
  have hfind : (new fields).fields.find? (·.name = f.name) = some f :=
    (find?_sortByName fields f.name).trans (find?_of_nodup hn hf)
  rw [get, hfind, Option.map_some]

/-- What is written of a struct is written of its fields sorted by name. -/
theorem write_eq (s : VMDynamicStruct) : s.write =
    writeNamedDynamicVariables (s.sort.fields.map VMNamedDynamicVariable.fieldWriter) := by
  have hmap : (sortByName VMNamedDynamicVariable.name s.fields).map
      VMNamedDynamicVariable.fieldWriter = sortByName FieldWriter.name s.fieldWriters := by
    rw [s.fieldWriters_eq]
    refine List.map_insertionSort _ _ _ _ fun f _ g _ => ?_
    rw [f.fieldWriter_eq, g.fieldWriter_eq]
  rw [write, ← hmap, sort]

theorem write_of_perm (hn : (fields.map VMNamedDynamicVariable.name).Nodup)
    {fields' : List VMNamedDynamicVariable} (h : fields'.Perm fields) :
    write ⟨fields'⟩ = write ⟨fields⟩ := by
  rw [write_eq, write_eq, sort, sort, sortByName_eq_of_perm h hn]

theorem readCarbon_apply (input : Bytes) : (readCarbon : Reader VMDynamicStruct) input =
    StaticReader.readStruct (readStatic (stackFor input none)) input := rfl

theorem run_readCarbon (input : Bytes) : (readCarbon : Reader VMDynamicStruct).run input =
    (StaticReader.readStruct (readStatic (stackFor input none))).run input := by
  rw [run, run, readCarbon_apply]

/-- Fields with schemas in the form they are read in are written, and read back iff nothing
    more needs to follow. -/
theorem exists_write_run_iff (h : WellTypedFields fields)
    (hs : ∀ f ∈ fields, f.value.data.Schemas VMStructSchema.Normal) :
    ∃ enc, serialize (⟨fields⟩ : VMDynamicStruct) = .ok enc ∧
      (deserialize VMDynamicStruct enc = .ok (new fields) ↔
        ((VMValue.struct (new fields)).extent .struct none).need = 0) := by
  have hmem : ∀ f ∈ (new fields).fields, f ∈ fields := fun f => (perm_new fields).mem_iff.1
  have hfits : ∀ f ∈ (new fields).fields,
      f.value.data.Fits VMStructSchema.Normal f.value.vmType none := fun f hf =>
    (h.wellTyped f (hmem f hf)).of_schemas (hs f (hmem f hf))
  obtain ⟨enc, hw, hreads⟩ := exists_writeNamed_within
    ((perm_new fields).length_eq.trans_lt h.length_lt) (fun f hf => h.names f (hmem f hf))
    (fun f hf => (hfits f hf).ne_array) fun f hf => (hfits f hf).readsBack
  refine ⟨enc, (write_eq ⟨fields⟩).trans hw, ?_⟩
  -- The stack is as deep as what is written can nest.
  have hread := (hreads (stackFor enc none) (by rw [stackFor]; omega)).map new
  have hnew : new (new fields).fields = new fields := (sorted_new fields).sort_eq
  rw [hnew] at hread
  rw [deserialize_eq_ok, run_readCarbon, VMValue.extent, fieldExtents_eq]
  exact hread.run_self_iff

theorem schemas_of_run {input rest : Bytes} {s : VMDynamicStruct}
    (h : (readCarbon : Reader VMDynamicStruct).run input = .ok (s, rest)) :
    ∀ f ∈ s.fields, f.value.data.Schemas VMStructSchema.Normal := by
  -- A dynamic struct is read as the value of a variable of its type is.
  have hrun : (readStatic (stackFor input none + 1) .struct none).run input =
      .ok (.struct s, rest) := by
    rw [run_readCarbon] at h
    rw [readStatic]
    exact run_bind_of_ok h
  rcases gives_readStatic _ .struct none nofun _ _ _ hrun with _ | h | _ | _ | ⟨-, hd, -, -⟩
  · exact h
  · exact absurd rfl (hd _)

/-- Well-typed fields have one image, read as the struct of them, iff the schemas of their
    arrays of structs are in the form they are read in, and as many bytes follow the count of
    each as it has structs. -/
theorem canonical_iff (fields : List VMNamedDynamicVariable) (enc : Bytes)
    (h : WellTypedFields fields) (hw : serialize (⟨fields⟩ : VMDynamicStruct) = .ok enc) :
    Canonical fields enc ↔ (∀ f ∈ fields, f.value.data.Schemas VMStructSchema.Normal) ∧
      ((VMValue.struct (new fields)).extent .struct none).need = 0 := by
  have hself : (∀ f ∈ fields, f.value.data.Schemas VMStructSchema.Normal) →
      (deserialize VMDynamicStruct enc = .ok (new fields) ↔
        ((VMValue.struct (new fields)).extent .struct none).need = 0) := by
    intro hs
    obtain ⟨enc', hw', hiff⟩ := exists_write_run_iff h hs
    obtain rfl := Except.ok.inj (hw.symm.trans hw')
    exact hiff
  constructor
  · intro hc
    have hs : ∀ f ∈ fields, f.value.data.Schemas VMStructSchema.Normal := fun f hf =>
      schemas_of_run (deserialize_eq_ok.1 hc.read) f ((perm_new fields).mem_iff.2 hf)
    exact ⟨hs, (hself hs).1 hc.read⟩
  · rintro ⟨hs, hneed⟩
    exact {
      written := fun fields' hperm => (write_of_perm h.nodup hperm).trans hw
      read := (hself hs).2 hneed
      perm := perm_new fields
      sorted := sorted_new fields
      get := fun f hf => get_new h.nodup hf }

/-- The schema of one field, a struct without fields, which is written in no bytes. -/
def boxSchema : VMStructSchema := ⟨[⟨⟨"a"⟩, ⟨.struct, some .empty⟩⟩], .none⟩

def box : VMDynamicStruct := ⟨[⟨⟨"a"⟩, ⟨.struct, .struct ⟨[]⟩⟩⟩]⟩

/-- One field, an array of boxes. -/
def boxes (count : ℕ) : List VMNamedDynamicVariable :=
  [⟨⟨"s"⟩, ⟨.arrayStruct, .arrayStruct ⟨boxSchema, List.replicate count box⟩⟩⟩]

theorem normal_boxSchema : boxSchema.Normal := by
  have hempty : VMStructSchema.empty.Normal :=
    VMStructSchema.normal_iff.2 ⟨show 0 < 2 ^ 31 by norm_num, nofun⟩
  refine VMStructSchema.normal_iff.2 ⟨show 1 < 2 ^ 31 by norm_num, fun field hf => ?_⟩
  obtain rfl := List.mem_singleton.1 hf
  refine VMVariableSchema.normal_iff.2 ⟨nofun, by decide, fun d hd => ?_⟩
  obtain rfl := Option.some.inj hd
  exact hempty

theorem schemas_boxes {P : VMStructSchema → Prop} (h : P boxSchema) (count : ℕ) :
    ∀ f ∈ boxes count, f.value.data.Schemas P := by
  intro f hf
  obtain rfl := List.mem_singleton.1 hf
  refine .arrayStruct h fun s hs g hg => ?_
  obtain rfl := List.eq_of_mem_replicate hs
  obtain rfl := List.mem_singleton.1 hg
  exact .struct nofun

theorem conforms_box : box.Conforms boxSchema where
  nodup_schema := List.nodup_singleton _
  nodup := List.nodup_singleton _
  present field hf := by
    obtain rfl := List.mem_singleton.1 hf
    exact ⟨_, List.mem_singleton_self _, rfl, rfl⟩
  allowed hne := absurd (by decide : (box.extras boxSchema).length = 0) (by simpa using hne)
  names f hf := by simp [extras, box, boxSchema] at hf
  length_extras := by simp [extras, box, boxSchema]

theorem wellTyped_boxes {count : ℕ} (h : count < 2 ^ 31) : WellTypedFields (boxes count) := by
  have hfits : ∀ f ∈ box.fields,
      f.value.data.Fits (fun _ => True) f.value.vmType (boxSchema.defOf f.name) := by
    intro f hf
    obtain rfl := List.mem_singleton.1 hf
    refine .structAt .nil ⟨.nil, .nil, nofun, fun hne => absurd rfl hne, nofun,
      show 0 < 2 ^ 31 by norm_num⟩ nofun
  refine ⟨show 1 < 2 ^ 31 by norm_num, fun f hf => ?_, List.nodup_singleton _, fun f hf => ?_⟩
  · obtain rfl := List.mem_singleton.1 hf
    show (utf8 "s").length < 256
    decide
  · obtain rfl := List.mem_singleton.1 hf
    refine .arrayStruct (by simpa using h) (fun _ => ⟨trivial, .mk (fun field hf => ?_) ?_⟩) nofun
      (fun s hs => ?_) (fun s hs => ?_) fun s hs => ?_
    · obtain rfl := List.mem_singleton.1 hf
      decide
    · intro field hf d hd
      obtain rfl := List.mem_singleton.1 hf
      obtain rfl := Option.some.inj hd
      exact .mk nofun nofun
    · obtain rfl := List.eq_of_mem_replicate hs
      exact List.pairwise_singleton _ _
    · obtain rfl := List.eq_of_mem_replicate hs
      exact conforms_box
    · obtain rfl := List.eq_of_mem_replicate hs
      exact hfits

/-- What is written of the boxes: the one field, the count, the schema, and nothing else. -/
def boxesImage (count : UInt8) : Bytes :=
  [1, 0, 0, 0, 1, 0x73, 5, count, 0, 0, 0, 1, 0, 0, 0, 1, 0x61, 4, 0, 0, 0, 0, 0, 0]

/-- Thirteen boxes are read back: the bytes of their schema follow the count. -/
theorem canonical_thirteen_boxes : Canonical (boxes 13) (boxesImage 13) :=
  (canonical_iff (boxes 13) _ (wellTyped_boxes (by norm_num)) rfl).2
    ⟨schemas_boxes normal_boxSchema 13, rfl⟩

/-- Fourteen are written, and refused when read. -/
theorem not_canonical_boxes : ¬∀ (fields : List VMNamedDynamicVariable) (enc : Bytes),
    WellTypedFields fields →
      (∀ f ∈ fields, f.value.data.Schemas fun schema => schema.Normal ∧ schema.fields ≠ []) →
        serialize (⟨fields⟩ : VMDynamicStruct) = .ok enc → Canonical fields enc := by
  intro h
  have hc := h (boxes 14) (boxesImage 14) (wellTyped_boxes (by norm_num))
    (schemas_boxes ⟨normal_boxSchema, List.cons_ne_nil _ _⟩ 14) rfl
  obtain ⟨e, he⟩ : ∃ e, deserialize VMDynamicStruct (boxesImage 14) = .error e := ⟨_, rfl⟩
  cases hc.read.symm.trans he

end VMDynamicStruct

end PhantasmaSdk
