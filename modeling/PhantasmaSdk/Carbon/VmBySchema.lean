import PhantasmaSdk.Carbon.VmRoundTrip

/-!
# Structs by a schema

Where every struct of an array takes at least one byte, the count of the array is
at most the bytes that follow it, and nothing else needs to follow what is written
of a value (`VMValue.Fits.need_eq_zero`). A struct by a schema it conforms to is
then read back, sorted by name, whatever follows it
(`VMDynamicStruct.reads_readWithSchema`).

Values of any type but that of structs take a byte, so that the structs of a schema
do if one of its fields is of another type (`VMStructSchema.solid_of_field`).
-/

namespace PhantasmaSdk

open Codec Codec.Decoder CarbonWriter CarbonReader

/-! ## What needs to follow -/

theorem need_countedExtent {items : List Extent} (h : ∀ x ∈ items, x.need = 0 ∧ 1 ≤ x.length) :
    (countedExtent items).need = 0 := by
  have hneed := Extent.need_concat_eq_zero fun x hx => (h x hx).1
  have hlength := Extent.length_le_concat fun x hx => (h x hx).2
  rw [countedExtent, ← Nat.le_zero, Extent.need_append_le_iff]
  simp only
  omega

theorem VMNamedDynamicVariable.need_named {f : VMNamedDynamicVariable}
    (h : (f.value.data.extent f.value.vmType none).need = 0) :
    f.fieldExtent.named.need = 0 ∧ 1 ≤ f.fieldExtent.named.length := by
  rw [f.fieldExtent_eq, FieldExtent.named]
  constructor
  · exact Extent.need_append_eq_zero rfl (Extent.need_append_eq_zero rfl h)
  · simp only [Extent.length_append, Extent.length_plain]
    omega

/-- Where nothing needs to follow the variables of the fields, nothing needs to
    follow the struct. -/
theorem VMDynamicStruct.need_extentWithSchema {s : VMDynamicStruct} {schema : VMStructSchema}
    (hc : s.Conforms schema)
    (h : ∀ f ∈ s.fields, (f.value.data.extent f.value.vmType (schema.defOf f.name)).need = 0) :
    (extentWithSchema s.fieldExtents schema).need = 0 := by
  have hbody : (Extent.concat (schema.fields.map (extentOfField
      (s.fields.map VMNamedDynamicVariable.fieldExtent)))).need = 0 := by
    refine Extent.need_concat_eq_zero fun x hx => ?_
    obtain ⟨field, hf, rfl⟩ := List.mem_map.1 hx
    obtain ⟨-, hmem, -, htype, hdef⟩ := hc.find?_eq hf
    rw [hc.extentOfField_eq hf, ← htype, ← hdef]
    exact h _ hmem
  rw [extentWithSchema, s.fieldExtents_eq, filter_fieldExtent]
  split
  next =>
    refine Extent.need_append_eq_zero hbody (need_countedExtent fun x hx => ?_)
    rw [List.map_map] at hx
    obtain ⟨f, hf, rfl⟩ := List.mem_map.1 hx
    have hneed := h f (mem_extras_iff.1 hf).1
    rw [defOf_of_mem_extras hf] at hneed
    exact f.need_named hneed
  next => exact hbody

theorem VMStructArray.need_extent {value : VMStructArray} {schema : Option VMStructSchema}
    (hat : ∀ given, schema = some given → value.schema = given)
    (h : ∀ s ∈ value.structs, (extentWithSchema s.fieldExtents value.schema).need = 0 ∧
      1 ≤ (extentWithSchema s.fieldExtents value.schema).length) :
    (value.extent schema).need = 0 := by
  obtain ⟨own, structs⟩ := value
  simp only at hat h
  have hextent : ∃ head, VMStructArray.extent ⟨own, structs⟩ schema =
      ⟨4, structs.length⟩ ++ (.plain head ++ .concat (structExtents structs own)) := by
    cases schema with
    | some given =>
      obtain rfl := hat given rfl
      exact ⟨_, rfl⟩
    | none => exact ⟨_, rfl⟩
  obtain ⟨head, hextent⟩ := hextent
  rw [hextent, structExtents_eq]
  have hitems : ∀ x ∈ structs.map fun s => extentWithSchema s.fieldExtents own,
      x.need = 0 ∧ 1 ≤ x.length := by
    intro x hx
    obtain ⟨s, hs, rfl⟩ := List.mem_map.1 hx
    exact h s hs
  have hneed := Extent.need_concat_eq_zero fun x hx => (hitems x hx).1
  have hlength := Extent.length_le_concat fun x hx => (hitems x hx).2
  rw [List.length_map] at hlength
  rw [← Nat.le_zero]
  simp only [Extent.need_append_le_iff, Extent.length_append, Extent.need_plain]
  omega

/-- Where every struct of an array takes a byte, nothing needs to follow. -/
theorem VMValue.Fits.need_eq_zero {data : VMValue} {vmType : VMType}
    {schema : Option VMStructSchema} (h : data.Fits VMStructSchema.Normal vmType schema) :
    data.Schemas VMStructSchema.Solid → (data.extent vmType schema).need = 0 := by
  induction h with
  | @leaf data vmType schema h =>
    intro _
    unfold VMValue.FitsLeaf at h
    split at h <;> first | rfl | exact h.elim
  | @dynamic value schema h ih =>
    rintro (h | h | h | h | ⟨hd, -, -, -⟩)
    · rw [VMValue.extent, value.extent_eq]
      exact Extent.need_append_eq_zero rfl (ih h)
    · exact absurd rfl (hd _)
  | @struct value hs hl names h ih =>
    rintro (h | h | h | h | ⟨-, hd, -, -⟩)
    · rw [VMValue.extent, value.fieldExtents_eq, List.map_map]
      refine need_countedExtent fun x hx => ?_
      obtain ⟨f, hf, rfl⟩ := List.mem_map.1 hx
      exact f.need_named (ih f hf (h f hf))
    · exact absurd rfl (hd _)
  | @structAt value schema hs hc h ih =>
    rintro (h | h | h | h | ⟨-, hd, -, -⟩)
    · exact VMDynamicStruct.need_extentWithSchema hc fun f hf => ih f hf (h f hf)
    · exact absurd rfl (hd _)
  | @arrayDynamic values schema hl h ih =>
    rintro (h | h | h | h | ⟨-, -, hd, -⟩)
    · rw [VMValue.extent, variableExtents_eq]
      refine need_countedExtent fun x hx => ?_
      obtain ⟨v, hv, rfl⟩ := List.mem_map.1 hx
      rw [v.extent_eq]
      exact ⟨Extent.need_append_eq_zero rfl (ih v hv (h v hv)), Nat.le_add_right _ _⟩
    · exact absurd rfl (hd _)
  | @arrayStruct value schema hl hown hat hs hc h ih =>
    rintro (h' | h' | h' | ⟨hsolid, h'⟩ | ⟨-, -, -, hd⟩)
    · have hitem : ∀ s ∈ value.structs,
          (extentWithSchema s.fieldExtents value.schema).need = 0 ∧
            1 ≤ (extentWithSchema s.fieldExtents value.schema).length := by
        intro s hmem
        refine ⟨VMDynamicStruct.need_extentWithSchema (hc s hmem) fun f hf =>
          ih s hmem f hf (h' s hmem f hf), ?_⟩
        obtain ⟨enc, hw, hreads⟩ := VMDynamicStruct.exists_withSchema_within (hc s hmem)
          (fun f hf => (h s hmem f hf).ne_array) fun f hf => (h s hmem f hf).readsBack
        rw [← (hreads _ le_rfl).length_eq]
        exact hsolid _ _ hw
      exact value.need_extent hat hitem
    · exact absurd rfl (hd _)

/-! ## Types that take a byte -/

/-- A value of a type without variables takes a byte, whatever it holds. -/
theorem VMValue.one_le_length_writeLeaf {data : VMValue} {vmType : VMType} {enc : Bytes}
    (hw : data.writeLeaf vmType = .ok enc) : 1 ≤ enc.length := by
  have hpure : ∀ {bytes : Bytes}, 1 ≤ bytes.length → (pure bytes : Result Bytes) = .ok enc →
      1 ≤ enc.length := fun h he => Except.ok.inj he ▸ h
  cases vmType with
  | dynamic | array | struct | arrayDynamic | arrayStruct => cases hw
  | bytes =>
    rw [length_writeByteArray hw]
    omega
  | int8 => exact hpure (by simp [write1]) hw
  | int16 => exact hpure (by simp [write2]) hw
  | int32 => exact hpure (by simp [write4]) hw
  | int64 => exact hpure (by simp [write8]) hw
  | int256 => exact one_le_length_writeBigInt hw
  | bytes16 => exact hpure (by rw [write16, FixedBytes.length_eq]; norm_num) hw
  | bytes32 => exact hpure (by rw [write32, FixedBytes.length_eq]; norm_num) hw
  | bytes64 => exact hpure (by rw [write64, FixedBytes.length_eq]; norm_num) hw
  | string => exact one_le_length_writeStringZ hw
  | _ =>
    have := le_length_writeArray hw
    omega

/-- The default of a type that is no struct takes a byte. -/
theorem one_le_length_writeDefault {vmType : VMType} {schema : Option VMStructSchema} {enc : Bytes}
    (ht : vmType ≠ .struct) (hw : writeDefault vmType schema = .ok enc) : 1 ≤ enc.length := by
  rw [writeDefault.eq_def] at hw
  cases vmType with
  | struct => exact absurd rfl ht
  | dynamic => exact Except.ok.inj hw ▸ by decide
  | arrayDynamic => exact Except.ok.inj hw ▸ by decide
  | arrayStruct =>
    cases schema with
    | some given => exact Except.ok.inj hw ▸ by decide
    | none =>
      obtain ⟨own, _, hw⟩ := bind_eq_ok.1 hw
      rw [← Except.ok.inj hw, List.length_append, write4, length_toLE]
      omega
  | _ => exact VMValue.one_le_length_writeLeaf hw

/-- A value written at a type that is no struct takes a byte, whatever it holds. -/
theorem VMValue.one_le_length_writeStatic {data : VMValue} {vmType : VMType}
    {schema : Option VMStructSchema} {enc : Bytes} (ht : vmType ≠ .struct)
    (hw : data.writeStatic vmType schema = .ok enc) : 1 ≤ enc.length := by
  rw [VMValue.writeStatic.eq_def] at hw
  cases vmType with
  | struct => exact absurd rfl ht
  | dynamic =>
    simp only at hw
    split at hw
    next value =>
      rw [value.write_eq] at hw
      obtain ⟨body, _, hw⟩ := bind_eq_ok.1 hw
      rw [← Except.ok.inj hw, List.length_append]
      exact Nat.le_add_right _ _
    next => exact one_le_length_writeDefault ht hw
  | arrayDynamic =>
    simp only at hw
    split at hw
    next values =>
      obtain ⟨len, _, hw⟩ := bind_eq_ok.1 hw
      obtain ⟨body, _, hw⟩ := bind_eq_ok.1 hw
      rw [← Except.ok.inj hw, List.length_append, write4, length_toLE]
      omega
    next => exact one_le_length_writeDefault ht hw
  | arrayStruct =>
    simp only at hw
    split at hw
    next value =>
      obtain ⟨own, structs⟩ := value
      rw [VMStructArray.writeStatic.eq_def] at hw
      obtain ⟨len, _, hw⟩ := bind_eq_ok.1 hw
      obtain ⟨head, _, hw⟩ := bind_eq_ok.1 hw
      obtain ⟨body, _, hw⟩ := bind_eq_ok.1 hw
      rw [← Except.ok.inj hw, List.length_append, List.length_append, write4, length_toLE]
      omega
    next => exact one_le_length_writeDefault ht hw
  | _ => exact VMValue.one_le_length_writeLeaf hw

namespace VMStructSchema

/-- Every struct takes a byte by a schema with a field that is no struct. -/
theorem solid_of_field {schema : VMStructSchema} {field : VMNamedVariableSchema}
    (hf : field ∈ schema.fields) (ht : field.schema.vmType ≠ .struct) : schema.Solid := by
  intro s enc hw
  rw [VMDynamicStruct.writeWithSchema, writeFieldsWithSchema_eq, s.fieldWriters_eq] at hw
  obtain ⟨encs, hencs, hw⟩ := bind_eq_ok.1 hw
  have hbody : 1 ≤ encs.flatten.length := by
    obtain ⟨e, he, hfield⟩ := exists_of_forall₂_mem (mapM_eq_ok.1 hencs) hf
    refine le_trans ?_ (List.sublist_flatten_of_mem he).length_le
    rw [writeField, VMDynamicStruct.find?_fieldWriter] at hfield
    cases hfind : s.fields.find? (·.name = field.name) with
    | none =>
      rw [hfind] at hfield
      exact one_le_length_writeDefault ht hfield
    | some f =>
      rw [hfind, Option.map_some, f.fieldWriter_eq] at hfield
      exact VMValue.one_le_length_writeStatic ht hfield
  split at hw
  · obtain ⟨tail, _, hw⟩ := bind_eq_ok.1 hw
    rw [← Except.ok.inj hw, List.length_append]
    omega
  · rwa [← Except.ok.inj hw]

end VMStructSchema

/-! ## Reading by a schema -/

namespace VMDynamicStruct

/-- What is written of a struct by a schema it conforms to is read by the schema, with
    whatever follows it left over, as the struct sorted by name. -/
theorem reads_readWithSchema (s : VMDynamicStruct) (schema : VMStructSchema)
    (hc : s.Conforms schema) (hf : ∀ f ∈ s.fields,
      f.value.data.Fits VMStructSchema.Normal f.value.vmType (schema.defOf f.name))
    (hs : ∀ f ∈ s.fields, f.value.data.Schemas VMStructSchema.Solid) :
    ∃ enc, s.writeWithSchema schema = .ok enc ∧
      ∀ suffix, (readWithSchema schema).run (enc ++ suffix) = .ok (s.sort, suffix) := by
  obtain ⟨enc, hw, hreads⟩ := exists_withSchema_within hc (fun f hmem => (hf f hmem).ne_array)
    fun f hmem => (hf f hmem).readsBack
  have hneed := need_extentWithSchema hc fun f hmem => (hf f hmem).need_eq_zero (hs f hmem)
  refine ⟨enc, hw, fun suffix => ?_⟩
  have hdepth : enc.length + schema.depth ≤ stackFor (enc ++ suffix) (some schema) := by
    rw [stackFor, depthOf, List.length_append]
    omega
  exact ((hreads _ hdepth).reads hneed) suffix

/-- A named item. -/
def itemSchema : VMStructSchema := ⟨[⟨⟨"name"⟩, ⟨.string, none⟩⟩], .none⟩

/-- Bytes, items, and other fields. -/
def itemsSchema : VMStructSchema :=
  ⟨[⟨⟨"rom"⟩, ⟨.bytes, none⟩⟩, ⟨⟨"items"⟩, ⟨.arrayStruct, some itemSchema⟩⟩], .dynamicExtras⟩

/-- One item and a note, not sorted by name. -/
def items : VMDynamicStruct :=
  ⟨[⟨⟨"rom"⟩, ⟨.bytes, .bytes [7]⟩⟩,
    ⟨⟨"items"⟩, ⟨.arrayStruct, .arrayStruct ⟨itemSchema, [⟨[⟨⟨"name"⟩, ⟨.string, .string "one"⟩⟩]⟩]⟩⟩⟩,
    ⟨⟨"note"⟩, ⟨.int8, .int 1⟩⟩]⟩

theorem reads_readWithSchema_items : ∃ enc, items.writeWithSchema itemsSchema = .ok enc ∧
    ∀ suffix, (readWithSchema itemsSchema).run (enc ++ suffix) = .ok (items.sort, suffix) := by
  have hname : (⟨[⟨⟨"name"⟩, ⟨.string, .string "one"⟩⟩]⟩ : VMDynamicStruct).Conforms itemSchema :=
    ⟨by decide, by decide, by decide, by decide, by decide, by decide⟩
  refine reads_readWithSchema items itemsSchema
    ⟨by decide, by decide, by decide, by decide, by decide, by decide⟩ ?_ ?_
  · simp only [items, List.forall_mem_cons]
    refine ⟨.leaf (show 1 < 2 ^ 31 by norm_num), .arrayStruct (show 1 < 2 ^ 31 by norm_num) nofun
      (fun given h => Option.some.inj (show some itemSchema = some given from h)) ?_ ?_ ?_,
      .leaf (show _ ∧ _ by decide), nofun⟩
    · simp only [List.forall_mem_singleton]
      exact List.pairwise_singleton _ _
    · simp only [List.forall_mem_singleton]
      exact hname
    · simp only [List.forall_mem_singleton]
      exact .leaf (show 0 ∉ utf8 "one" by decide)
  · simp only [items, List.forall_mem_cons]
    refine ⟨.leaf nofun nofun nofun nofun, .arrayStruct (VMStructSchema.solid_of_field
      (List.mem_singleton_self _) (by decide)) ?_, .leaf nofun nofun nofun nofun, nofun⟩
    simp only [List.forall_mem_singleton]
    exact .leaf nofun nofun nofun nofun

end VMDynamicStruct

end PhantasmaSdk
