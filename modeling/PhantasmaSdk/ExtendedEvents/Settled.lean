import PhantasmaSdk.ExtendedEvents.Kept
import PhantasmaSdk.Serde.RoundTrip

/-!
# What is read of extended events is settled

Reading a special resolution loses what is not as expected, but it does so once: what
is read is written as a JSON value that is read as the same (`fromJson_settled`). The
arguments of a call are dispatched alike again, by their content or by the module and
the method, as only raw arguments are written with a `rawArgs`; nested calls are
settled by induction.
-/

namespace PhantasmaSdk.ExtendedEvents

open Serde

/-! ## Values of the VM -/

mutual

theorem VmValue.fromJson_toJson (value : VmValue) : fromJson (toJson value) = value := by
  cases value with
  | text value => rfl
  | items values => rw [toJson, fromJson, itemsFromJson_itemsToJson]
  | fields members => rw [toJson, fromJson, fieldsFromJson_fieldsToJson]

theorem VmValue.itemsFromJson_itemsToJson (values : List VmValue) :
    itemsFromJson (itemsToJson values) = values := by
  match values with
  | [] => rfl
  | value :: values =>
    rw [itemsToJson, itemsFromJson, fromJson_toJson value, itemsFromJson_itemsToJson values]

theorem VmValue.fieldsFromJson_fieldsToJson (members : List (String × VmValue)) :
    fieldsFromJson (fieldsToJson members) = members := by
  match members with
  | [] => rfl
  | (name, value) :: members =>
    rw [fieldsToJson, fieldsFromJson, fromJson_toJson value, fieldsFromJson_fieldsToJson members]

end

theorem VmValue.lawful_custom : VmValue.custom.Lawful where
  read_write := fromJson_toJson
  write_ne_null value := by cases value <;> exact nofun

/-! ## Members -/

variable {ms : List (String × Json)} {name : String}

theorem idField_eq {id : UInt32} (h : ms.lookup name = some (.number (.int id.toNat))) :
    idField ms name = id := by
  have hlt := id.toNat_lt
  have hsome : asU64 (.number (.int id.toNat)) = some id.toUInt64 :=
    asU64_eq_some.2 (by rw [UInt32.toNat_toUInt64])
  rw [idField, h, Option.bind_some, hsome, Option.bind_some, UInt32.toNat_toUInt64, if_pos hlt,
    Option.getD_some, UInt32.toUInt32_toUInt64]

theorem textField_eq {text : String} (h : ms.lookup name = some (.string text)) :
    textField ms name = text := by
  rw [textField, h]
  rfl

/-! ## Arguments -/

/-- The arguments of every kind are a struct, without `rawArgs` unless they are raw. -/
theorem ArgumentsKind.exists_fields (kind : ArgumentsKind) :
    ∃ fields, kind.shape = .struct fields ∧ (kind ≠ .raw → "rawArgs" ∉ fields.map Prod.fst) := by
  cases kind with
  | raw => exact ⟨_, rfl, fun h => absurd rfl h⟩
  | _ => exact ⟨_, rfl, fun _ => by decide⟩

namespace SpecialResolutionArguments

variable {moduleName method : String}

/-- Arguments of a kind are written as an object that is read as that kind. -/
theorem kindOf_encode {kind : ArgumentsKind} {values : List (String × Data VmValue)}
    (hvalues : HasShape kind.shape (.struct values))
    (h : kindOf moduleName method ms = some kind) :
    kindOf moduleName method (encodeFields VmValue.custom values) = some kind := by
  obtain ⟨fields, hshape, hfields⟩ := kind.exists_fields
  by_cases hraw : kind = .raw
  · subst hraw
    -- The one field of raw arguments is always written.
    obtain ⟨value, rfl⟩ : ∃ value, values = [("rawArgs", .string value)] := by
      match values with
      | [(_, .string value)] => exact ⟨value, by rw [← hvalues.1]⟩
      | [] => exact hvalues.elim
      | (_, .string _) :: _ :: _ => exact hvalues.2.2.elim
      | (_, .bool _) :: _ | (_, .int _) :: _ | (_, .absent) :: _ | (_, .seq _) :: _
      | (_, .map _) :: _ | (_, .struct _) :: _ | (_, .custom _) :: _ => exact hvalues.2.1.elim
    rfl
  · rw [hshape] at hvalues
    rw [kindOf] at h ⊢
    rw [lookup_encodeFields hvalues (hfields hraw)]
    split at h
    next => exact absurd (Option.some.inj h).symm hraw
    next => exact h

/-- Arguments are read as they were from what they are written as. -/
theorem fromCallJson_toJson {v : Json} {arguments : SpecialResolutionArguments}
    (h : fromCallJson moduleName method v = some arguments) :
    fromCallJson moduleName method arguments.toJson = some arguments := by
  cases v with
  | null => cases h
  | object members =>
    have hcall := h
    rw [fromCallJson] at h
    rcases hkind : kindOf moduleName method members with - | kind
    · rw [hkind] at h
      obtain rfl := Option.some.inj h
      exact hcall
    · rw [hkind] at h
      simp only [Option.some.injEq] at h
      rw [typedOr] at h
      rcases hdecode : decode VmValue.custom kind.shape (.object members) with - | parsed
      · rw [hdecode] at h
        obtain rfl := h
        exact hcall
      · rw [hdecode] at h
        obtain rfl := h
        have hvalues := hasShape_of_decode kind.shape hdecode
        have hagain := decode_encode_of_decode VmValue.lawful_custom kind.distinct_shape hdecode
        obtain ⟨fields, hshape, -⟩ := kind.exists_fields
        -- What is decoded as a struct is one.
        obtain ⟨values, rfl⟩ : ∃ values, parsed = .struct values := by
          rw [hshape] at hvalues
          cases parsed with
          | struct values => exact ⟨values, rfl⟩
          | _ => exact hvalues.elim
        rw [toJson]
        rw [encode] at hagain ⊢
        simp only [fromCallJson, kindOf_encode hvalues hkind, typedOr, hagain]
  | _ =>
    obtain rfl := Option.some.inj h
    rfl

end SpecialResolutionArguments

/-! ## Calls -/

namespace SpecialResolutionCall

theorem callsFrom_callsToJson {calls : List SpecialResolutionCall}
    (h : ∀ call ∈ calls, fromJson call.toJson = call) : callsFrom (callsToJson calls) = calls := by
  induction calls with
  | nil => rfl
  | cons call calls ih =>
    obtain ⟨hcall, hcalls⟩ := List.forall_mem_cons.1 h
    rw [callsToJson, callsFrom, hcall, ih hcalls]

/-- A call is read as it is written, if its arguments and its calls are. -/
theorem fromJson_toJson {call : SpecialResolutionCall}
    (harguments : ∀ arguments, call.arguments = some arguments →
      SpecialResolutionArguments.fromCallJson call.moduleName call.method arguments.toJson =
        some arguments)
    (hcalls : ∀ calls, call.calls = some calls → ∀ call ∈ calls, fromJson call.toJson = call) :
    fromJson call.toJson = call := by
  have hmodule : textField call.members "module" = call.moduleName := textField_eq rfl
  have hmethod : textField call.members "method" = call.method := textField_eq rfl
  have harguments : (call.members.lookup "arguments").bind
      (SpecialResolutionArguments.fromCallJson call.moduleName call.method) = call.arguments := by
    rw [lookup_arguments]
    match hsome : call.arguments with
    | none => rfl
    | some arguments => exact harguments arguments hsome
  have hcalls : callsIn call.members = call.calls := by
    rw [callsIn_eq, lookup_calls]
    match hsome : call.calls with
    | none => rfl
    | some calls => exact congrArg some (callsFrom_callsToJson (hcalls calls hsome))
  rw [toJson_eq, fromJson, hmodule, hmethod, harguments, hcalls, idField_eq rfl, idField_eq rfl]
  cases call
  rfl

/-- The calls that are read are those of the items of an array. -/
theorem exists_item_of_callsOf {v : Json} {calls : List SpecialResolutionCall}
    (h : callsOf v = some calls) {call : SpecialResolutionCall} (hcall : call ∈ calls) :
    ∃ items, v = .array items ∧ ∃ item ∈ items, call = fromJson item := by
  match v with
  | .array items =>
    rw [callsOf, callsFrom_eq_map] at h
    obtain rfl := Option.some.inj h
    obtain ⟨item, hitem, rfl⟩ := List.mem_map.1 hcall
    exact ⟨items, rfl, item, hitem, rfl⟩
  | .null | .bool _ | .number _ | .string _ | .object _ => cases h

/-- A call that was read is read again from what it is written as. -/
theorem fromJson_toJson_fromJson (v : Json) : fromJson (fromJson v).toJson = fromJson v := by
  match v with
  | .null | .bool _ | .number _ | .string _ | .array _ => exact fromJson_toJson nofun nofun
  | .object ms =>
    refine fromJson_toJson (fun arguments hsome => ?_) fun calls hsome call hcall => ?_
    · rw [fromJson] at hsome ⊢
      obtain ⟨v, -, hv⟩ := Option.bind_eq_some_iff.1 hsome
      exact SpecialResolutionArguments.fromCallJson_toJson hv
    · rw [fromJson] at hsome
      obtain ⟨v, hv, hof⟩ := Option.bind_eq_some_iff.1 ((callsIn_eq ms).symm.trans hsome)
      obtain ⟨items, rfl, item, hitem, rfl⟩ := exists_item_of_callsOf hof hcall
      -- By induction: nested calls are smaller than the call.
      have hlt : sizeOf item < sizeOf (Json.object ms) := NestedCalls.sizeOf_lt (.inr hv) hitem
      exact fromJson_toJson_fromJson item
termination_by sizeOf v
decreasing_by exact hlt

end SpecialResolutionCall

/-! ## Resolutions -/

namespace SpecialResolutionData

/-- A resolution is read as it is written, if its calls are. -/
theorem fromJson_toJson {data : SpecialResolutionData}
    (h : ∀ call ∈ data.calls, SpecialResolutionCall.fromJson call.toJson = call) :
    fromJson data.toJson = data := by
  have hid : data.members.lookup "resolutionId" =
      some (.number (.int data.resolutionId.toNat)) := rfl
  have hdescription : (data.description.map Json.string).bind asStr = data.description := by
    cases data.description <;> rfl
  have hcalls : SpecialResolutionCall.callsOf
      (.array (SpecialResolutionCall.callsToJson data.calls)) = some data.calls :=
    congrArg some (SpecialResolutionCall.callsFrom_callsToJson h)
  change fromJson (.object data.members) = data
  rw [fromJson, hid, lookup_description, lookup_calls, Option.bind_some, asU64_eq_some.2 rfl,
    Option.getD_some, hdescription, Option.bind_some, hcalls, Option.getD_some]

/-- A resolution that was read is read again from what it is written as. -/
theorem fromJson_toJson_fromJson (v : Json) : fromJson (fromJson v).toJson = fromJson v := by
  cases v with
  | object ms =>
    refine fromJson_toJson fun call hcall => ?_
    rw [fromJson] at hcall
    rcases hsome : (ms.lookup "calls").bind SpecialResolutionCall.callsOf with - | calls
    · rw [hsome] at hcall
      cases hcall
    · rw [hsome] at hcall
      obtain ⟨v, -, hof⟩ := Option.bind_eq_some_iff.1 hsome
      obtain ⟨_, _, item, -, rfl⟩ := SpecialResolutionCall.exists_item_of_callsOf hof hcall
      exact SpecialResolutionCall.fromJson_toJson_fromJson item
  | _ => exact fromJson_toJson fun _ hcall => absurd hcall List.not_mem_nil

end SpecialResolutionData

/-- What is read of a call or of a resolution is read again from what it is written as. -/
theorem fromJson_settled :
    (∀ v, SpecialResolutionCall.fromJson (SpecialResolutionCall.fromJson v).toJson =
      SpecialResolutionCall.fromJson v) ∧
    ∀ v, SpecialResolutionData.fromJson (SpecialResolutionData.fromJson v).toJson =
      SpecialResolutionData.fromJson v :=
  ⟨SpecialResolutionCall.fromJson_toJson_fromJson, SpecialResolutionData.fromJson_toJson_fromJson⟩

end PhantasmaSdk.ExtendedEvents
