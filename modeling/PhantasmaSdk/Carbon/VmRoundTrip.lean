import PhantasmaSdk.Carbon.VmTyped

/-!
# Reading VM values back

What is written of a well-typed value is read back where as many bytes follow it
as its extent needs, and refused where fewer do (`VMValue.Fits.readsBack`). The
proof goes by the forms of well-typed values: the fields of a struct are found by
name and written in the order of its schema, so that what is read has to be sorted
before it is the struct that was written.

`VMDynamicVariable.roundTrips_iff_need` says which variables are read back by
themselves: an array of structs also has to carry its schema in the form schemas
are read in (`gives_readStatic`).
-/

namespace PhantasmaSdk

open Codec Codec.Decoder CarbonWriter CarbonReader

variable {α β : Type}

/-! ## What is written -/

theorem VMNamedDynamicVariable.fieldWriter_eq (f : VMNamedDynamicVariable) :
    f.fieldWriter = ⟨f.name, f.value.vmType, f.value.data.writeStatic⟩ := by
  obtain ⟨name, ⟨vmType, data⟩⟩ := f
  rfl

theorem VMDynamicStruct.fieldWriters_eq (s : VMDynamicStruct) :
    s.fieldWriters = s.fields.map VMNamedDynamicVariable.fieldWriter := by
  obtain ⟨fields⟩ := s
  rw [fieldWriters]
  induction fields with
  | nil => rfl
  | cons f fields ih => rw [PhantasmaSdk.fieldWriters, ih, List.map_cons]

theorem structWriters_eq (structs : List VMDynamicStruct) :
    structWriters structs = structs.map VMDynamicStruct.fieldWriters := by
  induction structs with
  | nil => rfl
  | cons s structs ih => rw [structWriters, ih, List.map_cons]

theorem VMDynamicVariable.write_eq (v : VMDynamicVariable) : v.write =
    (do let body ← v.data.writeStatic v.vmType none
        pure (write1 v.vmType.code ++ body) : Result Bytes) := by
  obtain ⟨vmType, data⟩ := v
  rw [VMDynamicVariable.write]

theorem writeVariables_eq (values : List VMDynamicVariable) :
    writeVariables values = values.mapM VMDynamicVariable.write := by
  induction values with
  | nil => rfl
  | cons v values ih => rw [writeVariables, ih, List.mapM_cons]

/-- What is written of a field a schema asks for. -/
def writeField (fields : List FieldWriter) (field : VMNamedVariableSchema) : Result Bytes :=
  match fields.find? (·.name = field.name) with
  | some writer => writer.writeStatic field.schema.vmType field.schema.structDef
  | none => writeDefault field.schema.vmType field.schema.structDef

/-- That no fields are left over is written as a list of no fields. -/
theorem writeFieldsWithSchema_eq (fields : List FieldWriter) (schema : VMStructSchema) :
    writeFieldsWithSchema fields schema =
      (do let body ← schema.fields.mapM (writeField fields)
          if schema.flags.contains .dynamicExtras then do
            let tail ← writeNamedDynamicVariables
              (fields.filter fun field => ¬schema.fields.any (·.name = field.name))
            pure (body.flatten ++ tail)
          else pure body.flatten : Result Bytes) := by
  rw [writeFieldsWithSchema]
  refine congrArg (_ >>= ·) (funext fun body => ?_)
  by_cases hflag : schema.flags.contains .dynamicExtras = true
  · rw [if_neg (not_not.2 hflag), if_pos hflag]
    simp only
    split
    next h =>
      rw [h.2]
      rfl
    next => rfl
  · rw [if_pos hflag, if_neg hflag]

/-! ## Extents of what is written -/

theorem VMNamedDynamicVariable.fieldExtent_eq (f : VMNamedDynamicVariable) :
    f.fieldExtent = ⟨f.name, f.value.vmType, f.value.data.extent⟩ := by
  obtain ⟨name, ⟨vmType, data⟩⟩ := f
  rfl

theorem VMDynamicStruct.fieldExtents_eq (s : VMDynamicStruct) :
    s.fieldExtents = s.fields.map VMNamedDynamicVariable.fieldExtent := by
  obtain ⟨fields⟩ := s
  rw [fieldExtents]
  induction fields with
  | nil => rfl
  | cons f fields ih => rw [PhantasmaSdk.fieldExtents, ih, List.map_cons]

theorem structExtents_eq (structs : List VMDynamicStruct) (schema : VMStructSchema) :
    structExtents structs schema =
      structs.map fun s => extentWithSchema s.fieldExtents schema := by
  induction structs with
  | nil => rfl
  | cons s structs ih => rw [structExtents, ih, List.map_cons]

theorem VMDynamicVariable.extent_eq (v : VMDynamicVariable) :
    v.extent = .plain 1 ++ v.data.extent v.vmType none := by
  obtain ⟨vmType, data⟩ := v
  rw [VMDynamicVariable.extent]

theorem variableExtents_eq (values : List VMDynamicVariable) :
    variableExtents values = values.map VMDynamicVariable.extent := by
  induction values with
  | nil => rfl
  | cons v values ih => rw [variableExtents, ih, List.map_cons]

/-! ## Lists -/

/-- A count is read where as many bytes follow it. -/
theorem within_readLength {n : ℕ} (hn : n < 2 ^ 31) :
    readLength.ReadsWithin ⟨4, n⟩ (write4 (UInt32.ofNat n).toInt32) n where
  length_eq := length_toLE 4 _
  ok suffix hle := run_readLengthFor hn one_pos (by norm_num) (by simpa using hle)
  error suffix hlt := by
    simp only at hlt
    cases hrun : readLength.run (write4 (UInt32.ofNat n).toInt32 ++ suffix) with
    | error e => exact ⟨e, rfl⟩
    | ok p =>
      obtain ⟨hm, hle, heq⟩ := run_readLength_eq_ok_iff.1 hrun
      have hcount := reads_read4 (UInt32.ofNat n).toInt32 suffix
      rw [heq, reads_read4] at hcount
      obtain ⟨h, hrest⟩ := Prod.mk.inj (Except.ok.inj hcount)
      have hint := congrArg Int32.toInt h
      rw [toInt_length hn, toInt_length hm] at hint
      rw [hrest] at hle
      omega

theorem forall₂_imp_mem_right {R S : α → β → Prop} {as : List α} {bs : List β}
    (h : List.Forall₂ R as bs) (H : ∀ a ∈ as, ∀ b ∈ bs, R a b → S a b) : List.Forall₂ S as bs := by
  induction h with
  | nil => exact .nil
  | cons hab _ ih =>
    exact .cons (H _ List.mem_cons_self _ List.mem_cons_self hab) (ih fun a ha b hb =>
      H a (List.mem_cons_of_mem _ ha) b (List.mem_cons_of_mem _ hb))

/-- Parts that are written, and read back where enough follows them by a stack
    `slack` deeper than they are long, are so one after the other. -/
theorem exists_mapM_within {γ : Type} {write : γ → Result Bytes} {d : ℕ → γ → Reader α}
    {extent : γ → Extent} {value : γ → α} {parts : List γ} (slack : ℕ)
    (h : ∀ c ∈ parts, ∃ enc, write c = .ok enc ∧
      ∀ depth, enc.length + slack ≤ depth → (d depth c).ReadsWithin (extent c) enc (value c)) :
    ∃ encs, parts.mapM write = .ok encs ∧ ∀ depth, encs.flatten.length + slack ≤ depth →
      (parts.mapM (d depth)).ReadsWithin (.concat (parts.map extent)) encs.flatten
        (parts.map value) := by
  obtain ⟨encs, hencs⟩ := forall₂_of_isOk fun c hc => (h c hc).imp fun _ h => h.1
  refine ⟨encs, mapM_eq_ok.2 hencs, fun depth hdepth => within_mapM
    (forall₂_imp_mem_right hencs fun c hc enc henc hw => ?_)⟩
  obtain ⟨enc', hw', hreads⟩ := h c hc
  obtain rfl := Except.ok.inj (hw'.symm.trans hw)
  have := (List.sublist_flatten_of_mem henc).length_le
  exact hreads depth (by omega)

/-- `exists_mapM_within` for elements read alike. -/
theorem exists_replicate_within {write : α → Result Bytes} {d : ℕ → Reader α}
    {extent : α → Extent} {values : List α} (slack : ℕ)
    (h : ∀ a ∈ values, ∃ enc, write a = .ok enc ∧
      ∀ depth, enc.length + slack ≤ depth → (d depth).ReadsWithin (extent a) enc a) :
    ∃ encs, values.mapM write = .ok encs ∧ ∀ depth, encs.flatten.length + slack ≤ depth →
      ((d depth).replicate values.length).ReadsWithin (.concat (values.map extent)) encs.flatten
        values := by
  have h' : ∀ a ∈ values, ∃ enc, write a = .ok enc ∧ ∀ depth, enc.length + slack ≤ depth →
      ((fun depth _ => d depth) depth a).ReadsWithin (extent a) enc (id a) := h
  simpa only [replicate_eq_mapM, List.map_id] using exists_mapM_within slack h'

/-- `exists_replicate_within` for a list after its count. -/
theorem exists_writeArray_within {write : α → Result Bytes} {d : ℕ → Reader α}
    {extent : α → Extent} {values : List α} (slack : ℕ) (hl : values.length < 2 ^ 31)
    (h : ∀ a ∈ values, ∃ enc, write a = .ok enc ∧
      ∀ depth, enc.length + slack ≤ depth → (d depth).ReadsWithin (extent a) enc a) :
    ∃ enc, writeArray write values = .ok enc ∧ ∀ depth, enc.length + slack ≤ depth →
      (do let count ← readLength; (d depth).replicate count : Reader (List α)).ReadsWithin
        (countedExtent (values.map extent)) enc values := by
  obtain ⟨encs, hencs, hreads⟩ := exists_replicate_within slack h
  have hw := writeArray_of_forall₂ (by omega) (mapM_eq_ok.1 hencs)
  refine ⟨_, hw, fun depth hdepth => ?_⟩
  rw [countedExtent, List.length_map]
  rw [List.length_append] at hdepth
  exact (within_readLength hl).bind (hreads depth (by omega))

/-! ## Variables -/

/-- What is written of a value is read back where enough bytes follow it, by a stack
    deeper than it is long and its schema nests. -/
def VMValue.ReadsBack (data : VMValue) (vmType : VMType) (schema : Option VMStructSchema) : Prop :=
  ∃ enc, data.writeStatic vmType schema = .ok enc ∧ ∀ depth, enc.length + depthOf schema < depth →
    (readStatic depth vmType schema).ReadsWithin (data.extent vmType schema) enc data

/-- A variable, under its own type. -/
theorem exists_write_within {v : VMDynamicVariable} (ht : v.vmType ≠ .array)
    (h : v.data.ReadsBack v.vmType none) :
    ∃ enc, v.write = .ok enc ∧ ∀ depth, enc.length + 0 ≤ depth →
      (StaticReader.readVariable (readStatic depth)).ReadsWithin v.extent enc v := by
  obtain ⟨body, hbody, hreads⟩ := h
  refine ⟨write1 v.vmType.code ++ body, ?_, fun depth hdepth => ?_⟩
  · rw [VMDynamicVariable.write_eq, hbody]
    rfl
  · rw [List.length_append, write1, List.length_singleton] at hdepth
    have hread := (hreads depth (by rw [depthOf]; omega)).map (VMDynamicVariable.mk v.vmType)
    rw [VMDynamicVariable.extent_eq]
    obtain ⟨vmType, data⟩ := v
    exact (VMType.reads_read ht).within.bind hread

/-- A named variable, under its own type. -/
theorem exists_write_named_within {f : VMNamedDynamicVariable} (ht : f.value.vmType ≠ .array)
    (hname : (utf8 f.name.value).length < 256) (h : f.value.data.ReadsBack f.value.vmType none) :
    ∃ enc, f.fieldWriter.write = .ok enc ∧ ∀ depth, enc.length + 0 ≤ depth →
      (StaticReader.readNamedVariable (readStatic depth)).ReadsWithin f.fieldExtent.named enc f := by
  obtain ⟨body, hbody, hreads⟩ := exists_write_within ht h
  obtain ⟨head, hhead⟩ : ∃ head, writeCarbon f.name = .ok head :=
    ⟨_, SmallString.writeCarbon_eq_ok.2 ⟨hname, rfl⟩⟩
  have hw := VMDynamicVariable.write_eq f.value
  rw [hbody] at hw
  obtain ⟨tail, htail, hw⟩ := bind_eq_ok.1 hw.symm
  obtain rfl := Except.ok.inj hw
  refine ⟨head ++ (write1 f.value.vmType.code ++ tail), ?_, fun depth hdepth => ?_⟩
  · rw [VMNamedDynamicVariable.fieldWriter_eq, FieldWriter.write]
    simp only [hhead, htail, ok_bind, pure_eq_ok, List.append_assoc]
  · rw [List.length_append] at hdepth
    have hread := (hreads depth (by omega)).map (VMNamedDynamicVariable.mk f.name)
    rw [VMDynamicVariable.extent_eq] at hread
    rw [VMNamedDynamicVariable.fieldExtent_eq, FieldExtent.named, hhead, lengthOf_ok]
    obtain ⟨name, value⟩ := f
    exact (SmallString.lawful.reads _ _ trivial hhead).within.bind hread

theorem exists_writeNamed_within {fields : List VMNamedDynamicVariable}
    (hl : fields.length < 2 ^ 31) (hnames : ∀ f ∈ fields, (utf8 f.name.value).length < 256)
    (ht : ∀ f ∈ fields, f.value.vmType ≠ .array)
    (h : ∀ f ∈ fields, f.value.data.ReadsBack f.value.vmType none) :
    ∃ enc, writeNamedDynamicVariables (fields.map VMNamedDynamicVariable.fieldWriter) = .ok enc ∧
      ∀ depth, enc.length + 0 ≤ depth →
        (StaticReader.readNamedDynamicVariables (readStatic depth)).ReadsWithin
          (countedExtent ((fields.map VMNamedDynamicVariable.fieldExtent).map FieldExtent.named))
          enc fields := by
  obtain ⟨enc, hw, hreads⟩ := exists_writeArray_within 0 hl fun f hf =>
    exists_write_named_within (ht f hf) (hnames f hf) (h f hf)
  refine ⟨enc, ?_, fun depth hdepth => ?_⟩
  · rw [writeNamedDynamicVariables, ← hw, writeArray, writeArray, List.length_map, List.mapM_map]
    rfl
  · rw [List.map_map]
    exact hreads depth hdepth

/-! ## Fields by name -/

/-- Where the keys are distinct, an element is found by its own. -/
theorem find?_of_nodup {key : α → β} [DecidableEq β] {as : List α} (h : (as.map key).Nodup) {a : α}
    (ha : a ∈ as) : as.find? (fun b => key b = key a) = some a := by
  induction as with
  | nil => cases ha
  | cons b as ih =>
    rw [List.map_cons, List.nodup_cons] at h
    rcases List.mem_cons.1 ha with rfl | ha
    · exact List.find?_cons_of_pos (by simp)
    · have hne : key b ≠ key a := fun hk => h.1 (hk ▸ List.mem_map_of_mem ha)
      rw [List.find?_cons_of_neg (by simpa using hne), ih h.2 ha]

theorem pairwise_sortByName (name : α → SmallString) (as : List α) :
    (sortByName name as).Pairwise fun a b => utf8 (name a).value ≤ utf8 (name b).value := by
  have : Std.Total fun a b : α => utf8 (name a).value ≤ utf8 (name b).value :=
    ⟨fun a b => List.le_total _ _⟩
  have : IsTrans α fun a b => utf8 (name a).value ≤ utf8 (name b).value :=
    ⟨fun a b c => List.le_trans⟩
  exact List.pairwise_insertionSort _ as

/-- Lists of the same elements, of distinct names, are sorted into the same list. -/
theorem sortByName_eq_of_perm {name : α → SmallString} {as bs : List α} (h : as.Perm bs)
    (hn : (bs.map name).Nodup) : sortByName name as = sortByName name bs := by
  have hperm : ∀ l : List α, (sortByName name l).Perm l := fun l => List.perm_insertionSort _ l
  refine ((hperm as).trans (h.trans (hperm bs).symm)).eq_of_pairwise ?_ (pairwise_sortByName name as)
    (pairwise_sortByName name bs)
  intro a b ha hb hab hba
  have hname : name a = name b := by
    have := utf8_injective (List.le_antisymm hab hba)
    generalize name a = x, name b = y at this
    obtain ⟨x⟩ := x
    obtain ⟨y⟩ := y
    exact congrArg SmallString.mk this
  exact List.inj_on_of_nodup_map hn (h.mem_iff.1 ((hperm as).mem_iff.1 ha))
    ((hperm bs).mem_iff.1 hb) hname

/-- Sorting keeps the elements of one name in order. -/
theorem find?_sortByName {name : α → SmallString} (as : List α) (n : SmallString) :
    (sortByName name as).find? (fun a => name a = n) = as.find? (fun a => name a = n) := by
  induction as with
  | nil => rfl
  | cons a as ih =>
    rw [List.find?_cons, ← ih, sortByName, List.insertionSort_cons, ← sortByName]
    generalize sortByName name as = sorted
    clear ih
    induction sorted with
    | nil =>
      rw [List.orderedInsert_nil, List.find?_cons]
    | cons b bs ih =>
      rw [List.orderedInsert_cons]
      split
      next => rw [List.find?_cons]
      next hlt =>
        by_cases hb : name b = n
        · have ha : name a ≠ n := fun ha => hlt (ha ▸ hb ▸ List.le_refl _)
          rw [List.find?_cons_of_pos (by simpa using hb), List.find?_cons_of_pos (by simpa using hb),
            decide_eq_false ha]
        · rw [List.find?_cons_of_neg (by simpa using hb), ih,
            List.find?_cons_of_neg (by simpa using hb)]

theorem VMDynamicStruct.Sorted.sort_eq {s : VMDynamicStruct} (h : s.Sorted) : s.sort = s := by
  rw [sort, sortByName, List.Pairwise.insertionSort_eq h]
  cases s
  rfl

theorem VMDynamicStruct.Sorted.sortByName_fieldWriter {s : VMDynamicStruct} (h : s.Sorted) :
    sortByName FieldWriter.name (s.fields.map VMNamedDynamicVariable.fieldWriter) =
      s.fields.map VMNamedDynamicVariable.fieldWriter := by
  refine List.Pairwise.insertionSort_eq (List.pairwise_map.2 (h.imp fun {f g} hle => ?_))
  rwa [f.fieldWriter_eq, g.fieldWriter_eq]

namespace VMDynamicStruct

/-- The field of a name, if there is one. -/
def find (s : VMDynamicStruct) (field : VMNamedVariableSchema) : VMNamedDynamicVariable :=
  (s.fields.find? (·.name = field.name)).getD ⟨field.name, ⟨field.schema.vmType, .none⟩⟩

variable {s : VMDynamicStruct} {schema : VMStructSchema}

/-- A struct that conforms has each field its schema asks for, and no other of that
    name. -/
theorem Conforms.find?_eq (hc : s.Conforms schema) {field : VMNamedVariableSchema}
    (hf : field ∈ schema.fields) : s.fields.find? (·.name = field.name) = some (s.find field) ∧
      s.find field ∈ s.fields ∧ (s.find field).name = field.name ∧
      (s.find field).value.vmType = field.schema.vmType ∧
      schema.defOf (s.find field).name = field.schema.structDef := by
  obtain ⟨f, hmem, hname, htype⟩ := hc.present field hf
  have hfound : s.fields.find? (·.name = field.name) = some f := by
    rw [← hname]
    exact find?_of_nodup hc.nodup hmem
  have hfind : s.find field = f := by rw [find, hfound, Option.getD_some]
  rw [hfind]
  refine ⟨hfound, hmem, hname, htype, ?_⟩
  rw [VMStructSchema.defOf, hname, find?_of_nodup hc.nodup_schema hf, Option.bind_some]

theorem mem_extras_iff {f : VMNamedDynamicVariable} :
    f ∈ s.extras schema ↔ f ∈ s.fields ∧ ∀ field ∈ schema.fields, field.name ≠ f.name := by
  simp [extras, List.mem_filter]

/-- The schema defines nothing for a field it does not name. -/
theorem defOf_of_mem_extras {f : VMNamedDynamicVariable} (hf : f ∈ s.extras schema) :
    schema.defOf f.name = none := by
  have hnone : schema.fields.find? (·.name = f.name) = none := by
    simpa using (mem_extras_iff.1 hf).2
  rw [VMStructSchema.defOf, hnone, Option.bind_none]

/-- The fields the schema asks for and the others are the fields of the struct. -/
theorem Conforms.perm (hc : s.Conforms schema) :
    (schema.fields.map s.find ++ s.extras schema).Perm s.fields := by
  have hname : ∀ field ∈ schema.fields, (s.find field).name = field.name := fun field hf =>
    (hc.find?_eq hf).2.2.1
  refine (List.perm_ext_iff_of_nodup ?_ (hc.nodup.of_map _)).2 fun f => ?_
  · -- The fields found have the names of the schema, the others none of them.
    refine List.Nodup.append (List.Nodup.of_map VMNamedDynamicVariable.name ?_)
      ((hc.nodup.of_map _).filter _) ?_
    · have hnames := List.map_congr_left hname
      rw [List.map_map, Function.comp_def, hnames]
      exact hc.nodup_schema
    · intro f hfound hextra
      obtain ⟨field, hf, rfl⟩ := List.mem_map.1 hfound
      exact (mem_extras_iff.1 hextra).2 field hf (hname field hf).symm
  · rw [List.mem_append, List.mem_map, mem_extras_iff]
    constructor
    · rintro (⟨field, hf, rfl⟩ | ⟨hmem, -⟩)
      · exact (hc.find?_eq hf).2.1
      · exact hmem
    · intro hmem
      by_cases h : ∃ field ∈ schema.fields, field.name = f.name
      · obtain ⟨field, hf, hfield⟩ := h
        refine .inl ⟨field, hf, List.inj_on_of_nodup_map hc.nodup (hc.find?_eq hf).2.1 hmem ?_⟩
        rw [hname field hf, hfield]
      · exact .inr ⟨hmem, fun field hf hfield => h ⟨field, hf, hfield⟩⟩

theorem find?_fieldWriter (fields : List VMNamedDynamicVariable) (name : SmallString) :
    (fields.map VMNamedDynamicVariable.fieldWriter).find? (·.name = name) =
      (fields.find? (·.name = name)).map VMNamedDynamicVariable.fieldWriter := by
  rw [List.find?_map]
  simp only [Function.comp_def, VMNamedDynamicVariable.fieldWriter_eq]

theorem find?_fieldExtent (fields : List VMNamedDynamicVariable) (name : SmallString) :
    (fields.map VMNamedDynamicVariable.fieldExtent).find? (·.name = name) =
      (fields.find? (·.name = name)).map VMNamedDynamicVariable.fieldExtent := by
  rw [List.find?_map]
  simp only [Function.comp_def, VMNamedDynamicVariable.fieldExtent_eq]

theorem Conforms.extentOfField_eq (hc : s.Conforms schema) {field : VMNamedVariableSchema}
    (hf : field ∈ schema.fields) :
    extentOfField (s.fields.map VMNamedDynamicVariable.fieldExtent) field =
      (s.find field).value.data.extent field.schema.vmType field.schema.structDef := by
  rw [extentOfField, find?_fieldExtent, (hc.find?_eq hf).1, Option.map_some,
    VMNamedDynamicVariable.fieldExtent_eq]

theorem filter_fieldWriter (s : VMDynamicStruct) (schema : VMStructSchema) :
    (s.fields.map VMNamedDynamicVariable.fieldWriter).filter
        (fun field => ¬schema.fields.any (·.name = field.name)) =
      (s.extras schema).map VMNamedDynamicVariable.fieldWriter := by
  rw [List.filter_map, extras]
  simp only [Function.comp_def, VMNamedDynamicVariable.fieldWriter_eq]

theorem filter_fieldExtent (s : VMDynamicStruct) (schema : VMStructSchema) :
    (s.fields.map VMNamedDynamicVariable.fieldExtent).filter
        (fun field => ¬schema.fields.any (·.name = field.name)) =
      (s.extras schema).map VMNamedDynamicVariable.fieldExtent := by
  rw [List.filter_map, extras]
  simp only [Function.comp_def, VMNamedDynamicVariable.fieldExtent_eq]

/-- A struct by a schema it conforms to is written, and read back sorted by name. -/
theorem exists_withSchema_within (hc : s.Conforms schema)
    (ht : ∀ f ∈ s.fields, f.value.vmType ≠ .array)
    (h : ∀ f ∈ s.fields, f.value.data.ReadsBack f.value.vmType (schema.defOf f.name)) :
    ∃ enc, writeFieldsWithSchema s.fieldWriters schema = .ok enc ∧
      ∀ depth, enc.length + schema.depth ≤ depth →
        (StaticReader.readWithSchema (readStatic depth) schema).ReadsWithin
          (extentWithSchema s.fieldExtents schema) enc s.sort := by
  rw [fieldWriters_eq, fieldExtents_eq]
  -- The fields the schema asks for, each at the type and the definition it gives it.
  have hfield : ∀ field ∈ schema.fields, ∃ enc,
      writeField (s.fields.map VMNamedDynamicVariable.fieldWriter) field = .ok enc ∧
        ∀ depth, enc.length + schema.depth ≤ depth →
          (StaticReader.readField (readStatic depth) field).ReadsWithin
            (extentOfField (s.fields.map VMNamedDynamicVariable.fieldExtent) field) enc
            (s.find field) := by
    intro field hf
    obtain ⟨hfind, hmem, hname, htype, hdef⟩ := hc.find?_eq hf
    obtain ⟨enc, hw, hread⟩ := h _ hmem
    have hself : (⟨field.name, ⟨field.schema.vmType, (s.find field).value.data⟩⟩ :
        VMNamedDynamicVariable) = s.find field := by
      generalize s.find field = f at hname htype
      obtain ⟨name, ⟨vmType, data⟩⟩ := f
      cases hname
      cases htype
      rfl
    rw [hdef, htype] at hw hread
    refine ⟨enc, ?_, fun depth hdepth => ?_⟩
    · rw [writeField, find?_fieldWriter, hfind, Option.map_some,
        VMNamedDynamicVariable.fieldWriter_eq]
      exact hw
    · have hlt := VMStructSchema.depth_lt hf
      have := (hread depth (by omega)).map fun data =>
        VMNamedDynamicVariable.mk field.name ⟨field.schema.vmType, data⟩
      rw [hc.extentOfField_eq hf]
      rwa [hself] at this
  obtain ⟨encs, hencs, hreads⟩ := exists_mapM_within schema.depth hfield
  -- The others, under their own names and types.
  have hmem : ∀ f ∈ s.extras schema, f ∈ s.fields := fun f hf => (mem_extras_iff.1 hf).1
  obtain ⟨tail, htail, hreads'⟩ := exists_writeNamed_within hc.length_extras hc.names
    (fun f hf => ht f (hmem f hf)) fun f hf => defOf_of_mem_extras hf ▸ h f (hmem f hf)
  have hnew : VMDynamicStruct.new (schema.fields.map s.find ++ s.extras schema) = s.sort :=
    congrArg VMDynamicStruct.mk (sortByName_eq_of_perm hc.perm hc.nodup)
  by_cases hflag : schema.flags.contains .dynamicExtras = true
  · refine ⟨encs.flatten ++ tail, ?_, fun depth hdepth => ?_⟩
    · rw [writeFieldsWithSchema_eq, hencs, ok_bind, if_pos hflag, filter_fieldWriter, htail]
      rfl
    · rw [List.length_append] at hdepth
      rw [StaticReader.readWithSchema, extentWithSchema, if_pos hflag, filter_fieldExtent, ← hnew]
      simp only [if_pos hflag]
      exact (hreads depth (by omega)).bind ((hreads' depth (by omega)).map _)
  · have hnone : s.extras schema = [] := by
      by_contra hne
      exact hflag (hc.allowed hne)
    rw [hnone, List.append_nil] at hnew
    refine ⟨encs.flatten, ?_, fun depth hdepth => ?_⟩
    · rw [writeFieldsWithSchema_eq, hencs, ok_bind, if_neg hflag]
      rfl
    · rw [StaticReader.readWithSchema, extentWithSchema, if_neg hflag, ← hnew]
      simp only [if_neg hflag, pure_bind, List.append_nil]
      exact (hreads depth hdepth).map _

end VMDynamicStruct

/-! ## Schemas -/

/-- A normal schema whose names fit is written. -/
theorem VMStructSchema.Named.exists_write {schema : VMStructSchema} (h : schema.Named)
    (hn : schema.Normal) : ∃ enc, schema.write = .ok enc := by
  induction h with
  | @mk schema names nested ih =>
    obtain ⟨hl, hfields⟩ := normal_iff.1 hn
    have hfield : ∀ field ∈ schema.fields, ∃ enc, field.write = .ok enc := by
      intro field hf
      obtain ⟨-, hdef, hnested⟩ := VMVariableSchema.normal_iff.1 (hfields field hf)
      obtain ⟨body, hbody⟩ : ∃ body, (if field.schema.vmType.hasStruct then
          writeStructDef field.schema.structDef else pure [] : Result Bytes) = .ok body := by
        split
        next hs =>
          obtain ⟨d, hd⟩ := Option.isSome_iff_exists.1 (hdef.1 hs)
          rw [hd, writeStructDef]
          exact ih field hf d hd (hnested d hd)
        next => exact ⟨[], rfl⟩
      exact ⟨_, VMNamedVariableSchema.write_eq_ok.2 ⟨_, _,
        SmallString.writeCarbon_eq_ok.2 ⟨names field hf, rfl⟩,
        VMVariableSchema.write_eq_ok.2 ⟨body, hbody, rfl⟩, rfl⟩⟩
    obtain ⟨encs, hencs⟩ := forall₂_of_isOk hfield
    exact ⟨_, write_eq_ok.2 ⟨_, writeArray_of_forall₂ (by omega) hencs, rfl⟩⟩

/-- An array of structs, each written and read back by the schema of the array, is
    so after its count and, where none is given, its schema. -/
theorem VMStructArray.exists_writeStatic_within {value : VMStructArray}
    {schema : Option VMStructSchema} (hl : value.structs.length < 2 ^ 31)
    (hown : schema = none → value.schema.Normal ∧ value.schema.Named)
    (hat : ∀ given, schema = some given → value.schema = given)
    (h : ∀ s ∈ value.structs, ∃ enc, writeFieldsWithSchema s.fieldWriters value.schema = .ok enc ∧
      ∀ depth, enc.length + value.schema.depth ≤ depth →
        (StaticReader.readWithSchema (readStatic depth) value.schema).ReadsWithin
          (extentWithSchema s.fieldExtents value.schema) enc s) :
    ∃ enc, value.writeStatic schema = .ok enc ∧ ∀ depth, enc.length + depthOf schema ≤ depth →
      (StaticReader.readStructArray (readStatic depth) (VMStructSchema.readAt depth)
        schema).ReadsWithin (value.extent schema) enc value := by
  obtain ⟨own, structs⟩ := value
  simp only at hl hown hat h
  obtain ⟨encs, hencs, hreads⟩ := exists_replicate_within own.depth h
  have hbody : (structWriters structs).mapM (fun fields => writeFieldsWithSchema fields own) =
      .ok encs := by
    rw [structWriters_eq, List.mapM_map]
    exact hencs
  have hcount := within_readLength hl
  have hlen := ensureU32Len_of_lt (show structs.length < 2 ^ 32 by omega)
  cases schema with
  | some given =>
    obtain rfl := hat given rfl
    refine ⟨write4 (UInt32.ofNat structs.length).toInt32 ++ [] ++ encs.flatten, ?_,
      fun depth hdepth => ?_⟩
    · rw [VMStructArray.writeStatic, hlen]
      simp only [ok_bind, Option.getD_some, hbody, pure_eq_ok]
    · rw [List.length_append, depthOf] at hdepth
      rw [VMStructArray.extent, structExtents_eq, List.append_assoc]
      refine hcount.bind ((reads_pure own).within.bind (ReadsWithin.bind_nil (reads_reserve _) ?_))
      exact (hreads depth (by omega)).map _
  | none =>
    obtain ⟨hnormal, hnamed⟩ := hown rfl
    obtain ⟨head, hhead⟩ := hnamed.exists_write hnormal
    have hdeep := own.depth_lt_length hnormal hhead
    refine ⟨write4 (UInt32.ofNat structs.length).toInt32 ++ head ++ encs.flatten, ?_,
      fun depth hdepth => ?_⟩
    · rw [VMStructArray.writeStatic, hlen]
      simp only [ok_bind, Option.getD_none, hhead, hbody, pure_eq_ok]
    · rw [List.length_append, List.length_append, depthOf] at hdepth
      rw [VMStructArray.extent, structExtents_eq, List.append_assoc]
      simp only [hhead, lengthOf_ok, Option.getD_none]
      have hcalls : head.length < depth := by
        have : 0 < (write4 (UInt32.ofNat structs.length).toInt32).length := by
          rw [write4, length_toLE]
          norm_num
        omega
      refine hcount.bind ((own.reads_readAt hnormal hhead hcalls).within.bind
        (ReadsWithin.bind_nil (reads_reserve _) ?_))
      exact (hreads depth (by omega)).map _

/-! ## Well-typed values -/

theorem VMValue.Fits.ne_array {own : VMStructSchema → Prop} {data : VMValue} {vmType : VMType}
    {schema : Option VMStructSchema} (h : data.Fits own vmType schema) : vmType ≠ .array := by
  rintro rfl
  cases h with
  | leaf h =>
    unfold VMValue.FitsLeaf at h
    split at h <;> contradiction

/-- A value that is read by a call of one call less, and written and read as such. -/
theorem VMValue.readsBack_of {data : VMValue} {vmType : VMType} {schema : Option VMStructSchema}
    (h : ∃ enc, data.writeStatic vmType schema = .ok enc ∧
      ∀ depth, enc.length + depthOf schema ≤ depth → (readStatic (depth + 1) vmType schema).ReadsWithin
        (data.extent vmType schema) enc data) : data.ReadsBack vmType schema := by
  obtain ⟨enc, hw, hreads⟩ := h
  refine ⟨enc, hw, fun depth hdepth => ?_⟩
  obtain ⟨depth, rfl⟩ := Nat.exists_eq_succ_of_ne_zero (Nat.ne_of_gt (Nat.zero_lt_of_lt hdepth))
  exact hreads depth (Nat.le_of_lt_succ hdepth)

theorem VMValue.FitsLeaf.readsBack {data : VMValue} {vmType : VMType} (h : data.FitsLeaf vmType)
    (schema : Option VMStructSchema) : data.ReadsBack vmType schema := by
  obtain ⟨enc, hw, hreads, -⟩ := carried_leaf h
  have hform : data.writeStatic vmType schema = data.writeLeaf vmType ∧
      data.extent vmType schema = .plain (lengthOf (data.writeLeaf vmType)) ∧
      ∀ depth, readStatic (depth + 1) vmType schema = readLeaf vmType := by
    unfold VMValue.FitsLeaf at h
    split at h <;> first | exact ⟨rfl, rfl, fun _ => rfl⟩ | exact h.elim
  refine readsBack_of ⟨enc, hform.1.trans hw, fun depth _ => ?_⟩
  rw [hform.2.1, hform.2.2, hw, lengthOf_ok]
  exact hreads.within

/-- A well-typed value is written, and read back where enough follows it. -/
theorem VMValue.Fits.readsBack {data : VMValue} {vmType : VMType} {schema : Option VMStructSchema}
    (h : data.Fits VMStructSchema.Normal vmType schema) : data.ReadsBack vmType schema := by
  induction h with
  | leaf h => exact h.readsBack _
  | @dynamic value schema h ih =>
    obtain ⟨enc, hw, hreads⟩ := exists_write_within h.ne_array ih
    refine readsBack_of ⟨enc, hw, fun depth hdepth => ?_⟩
    exact (hreads depth (by omega)).map VMValue.dynamic
  | @struct value hs hl names h ih =>
    obtain ⟨enc, hw, hreads⟩ := exists_writeNamed_within hl names (fun f hf => (h f hf).ne_array) ih
    refine readsBack_of ⟨enc, ?_, fun depth hdepth => ?_⟩
    · change writeNamedDynamicVariables (sortByName FieldWriter.name value.fieldWriters) = _
      rw [value.fieldWriters_eq, hs.sortByName_fieldWriter, hw]
    · have hnew : VMDynamicStruct.new value.fields = value := hs.sort_eq
      have hread := ((hreads depth (by omega)).map VMDynamicStruct.new).map VMValue.struct
      rw [hnew] at hread
      rw [VMValue.extent, value.fieldExtents_eq]
      exact hread
  | @structAt value schema hs hc h ih =>
    obtain ⟨enc, hw, hreads⟩ := VMDynamicStruct.exists_withSchema_within hc
      (fun f hf => (h f hf).ne_array) ih
    refine readsBack_of ⟨enc, hw, fun depth hdepth => ?_⟩
    rw [hs.sort_eq] at hreads
    exact (hreads depth hdepth).map VMValue.struct
  | @arrayDynamic values schema hl h ih =>
    obtain ⟨enc, hw, hreads⟩ := exists_writeArray_within 0 hl fun v hv =>
      exists_write_within (h v hv).ne_array (ih v hv)
    refine readsBack_of ⟨enc, ?_, fun depth hdepth => ?_⟩
    · change writeDynamicVariables values.length (writeVariables values) = _
      rw [← hw, writeDynamicVariables, writeVariables_eq, writeArray]
    · rw [VMValue.extent, variableExtents_eq]
      exact (hreads depth (by omega)).map VMValue.arrayDynamic
  | @arrayStruct value schema hl hown hat hs hc h ih =>
    obtain ⟨enc, hw, hreads⟩ := value.exists_writeStatic_within hl hown hat fun s hmem => by
      obtain ⟨enc, hw, hread⟩ := VMDynamicStruct.exists_withSchema_within (hc s hmem)
        (fun f hf => (h s hmem f hf).ne_array) (ih s hmem)
      rw [(hs s hmem).sort_eq] at hread
      exact ⟨enc, hw, hread⟩
    refine readsBack_of ⟨enc, hw, fun depth hdepth => ?_⟩
    rw [VMValue.extent]
    exact (hreads depth hdepth).map VMValue.arrayStruct

/-! ## What is read -/

theorem gives_readLeaf (vmType : VMType) :
    (readLeaf vmType).Gives (VMValue.Schemas VMStructSchema.Normal) := by
  cases vmType with
  | dynamic | array | struct | arrayDynamic | arrayStruct => exact gives_fail _ _
  | _ => exact gives_map fun _ => .leaf nofun nofun nofun nofun

theorem VMStructSchema.gives_readAt (depth : ℕ) : (readAt depth).Gives Normal :=
  (yields_readAt depth).gives fun _ _ h => h.1

/-- The schemas of the arrays of structs that are read are normal, if the schema
    they are read by is. -/
theorem gives_readStatic (depth : ℕ) : ∀ (vmType : VMType) (schema : Option VMStructSchema),
    (∀ given, schema = some given → given.Normal) →
      (readStatic depth vmType schema).Gives (VMValue.Schemas VMStructSchema.Normal) := by
  induction depth with
  | zero => exact fun _ _ _ => gives_fail _ _
  | succ depth ih =>
    have hvariable : (StaticReader.readVariable (readStatic depth)).Gives fun v =>
        v.data.Schemas VMStructSchema.Normal :=
      (VMType.yields_read.gives fun _ _ _ => trivial).bind fun vmType _ =>
        (ih vmType none nofun).bind fun data h => gives_pure h
    have hnamed : (StaticReader.readNamedDynamicVariables (readStatic depth)).Gives fun fields =>
        ∀ f ∈ fields, f.value.data.Schemas VMStructSchema.Normal := by
      refine ((yields_readLengthFor 1).gives fun _ _ _ => trivial).bind fun count _ =>
        Gives.replicate ?_ count
      exact (SmallString.lawful.yields.gives fun _ _ _ => trivial).bind fun name _ =>
        hvariable.bind fun value h => gives_pure h
    have hnew : ∀ fields : List VMNamedDynamicVariable,
        (∀ f ∈ fields, f.value.data.Schemas VMStructSchema.Normal) →
          ∀ f ∈ (VMDynamicStruct.new fields).fields, f.value.data.Schemas VMStructSchema.Normal :=
      fun fields h f hf => h f ((List.mem_insertionSort _).1 hf)
    have hwith : ∀ given : VMStructSchema, given.Normal →
        (StaticReader.readWithSchema (readStatic depth) given).Gives fun s =>
          ∀ f ∈ s.fields, f.value.data.Schemas VMStructSchema.Normal := by
      intro given hgiven
      have hfields : (given.fields.mapM (StaticReader.readField (readStatic depth))).Gives
          fun fields => ∀ f ∈ fields, f.value.data.Schemas VMStructSchema.Normal := by
        refine Gives.mapM fun field hf => ?_
        have hnormal := (VMStructSchema.normal_iff.1 hgiven).2 field hf
        exact (ih _ _ (VMVariableSchema.normal_iff.1 hnormal).2.2).bind fun data h => gives_pure h
      refine hfields.bind fun fields h => ?_
      simp only
      split
      · exact hnamed.bind fun extras h' => gives_pure
          (hnew _ (List.forall_mem_append.2 ⟨h, h'⟩))
      · rw [pure_bind]
        exact gives_pure (hnew _ (by simpa using h))
    intro vmType schema hschema
    cases vmType with
    | dynamic => exact hvariable.bind fun v h => gives_pure (.dynamic h)
    | struct =>
      cases schema with
      | some given => exact (hwith given (hschema given rfl)).bind fun s h => gives_pure (.struct h)
      | none =>
        exact (hnamed.bind fun fields h => gives_pure (hnew fields h)).bind fun s h =>
          gives_pure (.struct h)
    | arrayDynamic =>
      exact (((yields_readLengthFor 1).gives fun _ _ _ => trivial).bind fun count _ =>
        hvariable.replicate count).bind fun values h => gives_pure (.arrayDynamic h)
    | arrayStruct =>
      have hstructs : ∀ (used : VMStructSchema) (count : ℕ), used.Normal → (do
          reserve count
          let structs ← (StaticReader.readWithSchema (readStatic depth) used).replicate count
          pure ⟨used, structs⟩ : Reader VMStructArray).Gives fun value =>
            value.schema.Normal ∧ ∀ s ∈ value.structs, ∀ f ∈ s.fields,
              f.value.data.Schemas VMStructSchema.Normal := by
        intro used count hused
        have hreserve : (reserve count : Reader Unit).Gives fun _ => True :=
          fun _ _ _ _ => trivial
        exact hreserve.bind fun _ _ => ((hwith used hused).replicate count).bind fun structs h =>
          gives_pure ⟨hused, h⟩
      have harray : (StaticReader.readStructArray (readStatic depth) (VMStructSchema.readAt depth)
          schema).Gives fun value => value.schema.Normal ∧ ∀ s ∈ value.structs, ∀ f ∈ s.fields,
            f.value.data.Schemas VMStructSchema.Normal := by
        refine ((yields_readLengthFor 1).gives fun _ _ _ => trivial).bind fun count _ => ?_
        cases schema with
        | some given => exact hstructs given count (hschema given rfl)
        | none => exact (VMStructSchema.gives_readAt depth).bind fun used h => hstructs used count h
      exact harray.bind fun value h => gives_pure (.arrayStruct h.1 h.2)
    | _ => exact gives_readLeaf _

/-! ## Variables by themselves -/

/-- A value well typed with any schemas is so with schemas in `P`, if those of its
    arrays of structs are. -/
theorem VMValue.Fits.of_schemas {own P : VMStructSchema → Prop} {data : VMValue} {vmType : VMType}
    {schema : Option VMStructSchema} (h : data.Fits own vmType schema) :
    data.Schemas P → data.Fits P vmType schema := by
  induction h with
  | leaf h => exact fun _ => .leaf h
  | dynamic h ih =>
    rintro (h | h | h | h | ⟨hd, -, -, -⟩)
    · exact .dynamic (ih h)
    · exact absurd rfl (hd _)
  | struct hs hl names h ih =>
    rintro (h | h | h | h | ⟨-, hd, -, -⟩)
    · exact .struct hs hl names fun f hf => ih f hf (h f hf)
    · exact absurd rfl (hd _)
  | structAt hs hc h ih =>
    rintro (h | h | h | h | ⟨-, hd, -, -⟩)
    · exact .structAt hs hc fun f hf => ih f hf (h f hf)
    · exact absurd rfl (hd _)
  | arrayDynamic hl h ih =>
    rintro (h | h | h | h | ⟨-, -, hd, -⟩)
    · exact .arrayDynamic hl fun v hv => ih v hv (h v hv)
    · exact absurd rfl (hd _)
  | arrayStruct hl hown hat hs hc h ih =>
    rintro (h | h | h | ⟨hp, h⟩ | ⟨-, -, -, hd⟩)
    · exact .arrayStruct hl (fun hnone => ⟨hp, (hown hnone).2⟩) hat hs hc fun s hmem f hf =>
        ih s hmem f hf (h s hmem f hf)
    · exact absurd rfl (hd _)

namespace VMDynamicVariable

/-- The variable is serialized, and what it is serialized as is read as the variable. -/
def RoundTrips (v : VMDynamicVariable) : Prop :=
  ∃ enc, serialize v = .ok enc ∧ deserialize VMDynamicVariable enc = .ok v

theorem schemas_of_run {input rest : Bytes} {v : VMDynamicVariable}
    (h : (readCarbon : Reader VMDynamicVariable).run input = .ok (v, rest)) :
    v.data.Schemas VMStructSchema.Normal := by
  have hvariable : (StaticReader.readVariable (readStatic (stackFor input none))).Gives fun v =>
      v.data.Schemas VMStructSchema.Normal :=
    (VMType.yields_read.gives fun _ _ _ => trivial).bind fun vmType _ =>
      (gives_readStatic _ vmType none nofun).bind fun data h => gives_pure h
  exact hvariable _ _ _ h

/-- A well-typed variable is read back iff the schemas of its arrays of structs are
    in the form they are read in, and as many bytes follow the count of each as it
    has structs. -/
theorem roundTrips_iff_need (v : VMDynamicVariable) (h : v.WellTyped) :
    v.RoundTrips ↔ v.data.Schemas VMStructSchema.Normal ∧ v.extent.need = 0 := by
  have hself : v.data.Schemas VMStructSchema.Normal → ∃ enc, serialize v = .ok enc ∧
      ((readCarbon : Reader VMDynamicVariable).run enc = .ok (v, []) ↔ v.extent.need = 0) := by
    intro hschemas
    have hfits := VMValue.Fits.of_schemas h hschemas
    obtain ⟨enc, hw, hreads⟩ := exists_write_within hfits.ne_array hfits.readsBack
    exact ⟨enc, hw, (hreads (stackFor enc none) (by rw [stackFor]; omega)).run_self_iff⟩
  constructor
  · rintro ⟨enc, hw, hd⟩
    have hrun := deserialize_eq_ok.1 hd
    have hschemas := schemas_of_run hrun
    obtain ⟨enc', hw', hiff⟩ := hself hschemas
    obtain rfl := Except.ok.inj (hw.symm.trans hw')
    exact ⟨hschemas, hiff.1 hrun⟩
  · rintro ⟨hschemas, hneed⟩
    obtain ⟨enc, hw, hiff⟩ := hself hschemas
    exact ⟨enc, hw, deserialize_eq_ok.2 (hiff.2 hneed)⟩

/-- Structs without fields, which are written in no bytes. -/
def emptyStructs (count : ℕ) : VMDynamicVariable :=
  ⟨.arrayStruct, .arrayStruct ⟨.empty, List.replicate count ⟨[]⟩⟩⟩

theorem wellTyped_emptyStructs {count : ℕ} (h : count < 2 ^ 31) :
    (emptyStructs count).WellTyped ∧
      (emptyStructs count).data.Schemas VMStructSchema.Normal := by
  have hmem : ∀ s ∈ List.replicate count (⟨[]⟩ : VMDynamicStruct), s = ⟨[]⟩ := fun s =>
    List.eq_of_mem_replicate
  constructor
  · refine .arrayStruct (by simpa using h) (fun _ => ⟨trivial, .mk nofun nofun⟩) nofun
      (fun s hs => ?_) (fun s hs => ?_) fun s hs f hf => ?_
    · rw [hmem s hs]
      exact .nil
    · rw [hmem s hs]
      exact ⟨.nil, .nil, nofun, fun hne => absurd rfl hne, nofun,
        show 0 < 2 ^ 31 by norm_num⟩
    · rw [hmem s hs] at hf
      cases hf
  · refine .arrayStruct (VMStructSchema.normal_iff.2 ⟨show 0 < 2 ^ 31 by norm_num, nofun⟩) fun s hs f hf => ?_
    rw [hmem s hs] at hf
    cases hf

/-- Five empty structs are read back: the bytes of their schema follow the count. -/
theorem roundTrips_five_emptyStructs : (emptyStructs 5).RoundTrips :=
  (roundTrips_iff_need _ (wellTyped_emptyStructs (by decide)).1).2
    ⟨(wellTyped_emptyStructs (by decide)).2, rfl⟩

/-- Six are written, and refused when read. -/
theorem not_roundTrips_emptyStructs : ¬∀ v : VMDynamicVariable, v.WellTyped →
    v.data.Schemas VMStructSchema.Normal → v.RoundTrips := by
  intro h
  obtain ⟨enc, hw, hd⟩ := h (emptyStructs 6) (wellTyped_emptyStructs (by decide)).1
    (wellTyped_emptyStructs (by decide)).2
  have hw' : serialize (emptyStructs 6) = .ok [5, 6, 0, 0, 0, 0, 0, 0, 0, 0] := rfl
  have hd' : ∃ e, deserialize VMDynamicVariable [5, 6, 0, 0, 0, 0, 0, 0, 0, 0] = .error e :=
    ⟨_, rfl⟩
  obtain rfl := Except.ok.inj (hw.symm.trans hw')
  obtain ⟨e, he⟩ := hd'
  rw [hd] at he
  cases he

end VMDynamicVariable

end PhantasmaSdk
