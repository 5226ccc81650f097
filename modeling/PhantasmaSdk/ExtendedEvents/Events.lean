import PhantasmaSdk.ExtendedEvents.Settled

/-!
# Events as answered

An extended event is answered with its kind beside its data, which are read together:
the kind picks the shape. What is read of an event, of any kind, is written as what is
read as the same, with one exception: a special resolution that comes without data is
read as one whose data are raw and `null`, which are written, and then read as those of
a resolution without anything (`EventExResult.fromJson_toJson_fromJson_iff`). After a
second time, nothing changes any more.
-/

namespace PhantasmaSdk.ExtendedEvents

open Serde

structure EventExResult where
  address : String := ""
  contract : String := ""
  kind : String := ""
  data : EventData := .unknown .null

namespace EventExResult

/-- What is no text counts as missing, and what is no object as an event without anything. -/
def fromJson : Json → EventExResult
  | .object members =>
    let kind := textField members "kind"
    { address := textField members "address"
      contract := textField members "contract"
      kind
      data :=
        match members.lookup "data" with
        | some data => EventData.fromKindAndJson kind data
        | none => .unknown .null }
  | _ => {}

def toJson (event : EventExResult) : Json :=
  .object [("address", .string event.address), ("contract", .string event.contract),
    ("kind", .string event.kind), ("data", event.data.toJson)]

end EventExResult

/-! ## Data -/

namespace EventData

/-- Data of a derived shape are read again, whether they were of it or kept raw. -/
theorem typed_toJson_typed {shape : Shape} (hshape : shape.distinct)
    {wrap : Data VmValue → EventData}
    (hwrap : ∀ parsed, (wrap parsed).toJson = encode VmValue.custom parsed) (data : Json) :
    typed shape wrap (typed shape wrap data).toJson = typed shape wrap data := by
  rcases hdecode : decode VmValue.custom shape data with - | parsed
  · have hraw : typed shape wrap data = .unknown data := by
      rw [typed, hdecode]
    rw [hraw, toJson, hraw]
  · have hagain := decode_encode_of_decode VmValue.lawful_custom hshape hdecode
    have hparsed : typed shape wrap data = wrap parsed := by
      rw [typed, hdecode]
    rw [hparsed, hwrap, typed, hagain]

theorem fromKindAndJson_toJson_fromKindAndJson (kind : String) (data : Json) :
    fromKindAndJson kind (fromKindAndJson kind data).toJson = fromKindAndJson kind data := by
  rw [fromKindAndJson.eq_def kind data]
  split
  next => exact typed_toJson_typed (by decide) (fun _ => rfl) data
  next => exact typed_toJson_typed (by decide) (fun _ => rfl) data
  next => exact typed_toJson_typed (by decide) (fun _ => rfl) data
  next => exact typed_toJson_typed (by decide) (fun _ => rfl) data
  next => exact typed_toJson_typed (by decide) (fun _ => rfl) data
  next => exact congrArg specialResolution (SpecialResolutionData.fromJson_toJson_fromJson data)
  next => rw [toJson, fromKindAndJson.eq_def]; split <;> first | rfl | contradiction

end EventData

/-! ## Events -/

namespace EventExResult

/-- A special resolution without data. -/
def Bare (event : EventExResult) : Prop :=
  event.kind = "SpecialResolution" ∧ event.data = .unknown .null

theorem fromJson_toJson (event : EventExResult) : fromJson event.toJson =
    { event with data := EventData.fromKindAndJson event.kind event.data.toJson } := by
  have hkind : textField [("address", .string event.address), ("contract", .string event.contract),
      ("kind", .string event.kind), ("data", event.data.toJson)] "kind" = event.kind :=
    textField_eq rfl
  rw [toJson, fromJson, hkind]
  rfl

/-- An event that came with data is read again. -/
theorem fromJson_toJson_of_lookup {members : List (String × Json)} {data : Json}
    (h : members.lookup "data" = some data) :
    fromJson (fromJson (.object members)).toJson = fromJson (.object members) := by
  have hdata : (fromJson (.object members)).data =
      EventData.fromKindAndJson (textField members "kind") data := by
    simp only [fromJson, h]
  rw [fromJson_toJson, hdata]
  have hagain := EventData.fromKindAndJson_toJson_fromKindAndJson (textField members "kind") data
  simp only [fromJson, h, hagain]

/-- Without data, only a special resolution gets any by being written. -/
theorem fromKindAndJson_null_iff (kind : String) :
    EventData.fromKindAndJson kind .null = .unknown .null ↔ kind ≠ "SpecialResolution" := by
  rw [EventData.fromKindAndJson.eq_def]
  split
  case h_6 => exact iff_of_false (by simp) (not_not.2 rfl)
  case h_7 hne => exact ⟨fun _ => hne, fun _ => rfl⟩
  all_goals exact ⟨fun _ => by decide, fun _ => rfl⟩

/-- An event is read as it was from what it is written as, unless it is a special resolution
    that came without data. -/
theorem fromJson_toJson_fromJson_iff (j : Json) :
    fromJson (fromJson j).toJson = fromJson j ↔ ¬(fromJson j).Bare := by
  have hbare (event : EventExResult) (hdata : event.data = .unknown .null) :
      fromJson event.toJson = event ↔ ¬event.Bare := by
    obtain ⟨address, contract, kind, data⟩ := event
    obtain rfl : data = .unknown .null := hdata
    rw [fromJson_toJson, Bare, EventExResult.mk.injEq]
    simpa [EventData.toJson] using fromKindAndJson_null_iff kind
  match j with
  | .null | .bool _ | .number _ | .string _ | .array _ => exact hbare _ rfl
  | .object members =>
    rcases hlookup : members.lookup "data" with - | data
    · exact hbare _ (by simp only [fromJson, hlookup])
    · refine iff_of_true (fromJson_toJson_of_lookup hlookup) fun h => ?_
      obtain ⟨hkind, hdata⟩ := h
      have hkind' : textField members "kind" = "SpecialResolution" := hkind
      simp only [fromJson, hlookup, hkind'] at hdata
      cases hdata

/-- The second time, it is. -/
theorem fromJson_toJson_twice (event : EventExResult) :
    fromJson (fromJson event.toJson).toJson = fromJson event.toJson :=
  fromJson_toJson_of_lookup rfl

end EventExResult

/-- An event that was read. -/
abbrev ReadEvent := {event : EventExResult // ∃ j, event = EventExResult.fromJson j}

/-- Events in an answer. -/
def ReadEvent.custom : Custom ReadEvent where
  read j := ⟨EventExResult.fromJson j, j, rfl⟩
  write event := event.1.toJson
  empty := ⟨{}, .null, rfl⟩

end PhantasmaSdk.ExtendedEvents
