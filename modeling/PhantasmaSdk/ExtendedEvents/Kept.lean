import PhantasmaSdk.ExtendedEvents.Decode

/-!
# What extended events lose

An event is to keep its payload raw, or to carry what is known of it: every known
member that is not `null` is serialized again as it was (`LosesNothing`), a payload
that is not of its shape being kept raw. Of derived decoders this holds unless an
array was taken for a struct. The decoders by hand take whatever they are given,
though: a special resolution that is not as expected is read as an empty one
(`not_losesNothing`). What they keep is what is of its type throughout
(`losesNothing_iff`).
-/

namespace PhantasmaSdk.ExtendedEvents

open Serde

/-! ## What is to be kept -/

section Members

variable (ms ms' : List (String × Json))

/-- A member, unless it is missing or `null`, is there again. -/
def MemberKept (s : Shape) (name : String) : Prop :=
  ∀ v, ms.lookup name = some v → v ≠ .null → ∃ w, ms'.lookup name = some w ∧ Keeps s v w

/-- The arguments of a call are kept raw, or as far as their shape knows them. -/
def ArgumentsKept (v : Json) : SpecialResolutionArguments → Prop
  | .typed kind arguments => Keeps kind.shape v (encode VmValue.custom arguments)
  | .unrecognized value => value = v

/-- The nested calls, none if they are missing or `null`. -/
def NestedCalls (calls : List Json) : Prop :=
  ((ms.lookup "calls" = none ∨ ms.lookup "calls" = some .null) ∧ calls = []) ∨
    ms.lookup "calls" = some (.array calls)

/-- The members of a call, its nested calls apart, are kept by a call that is
    serialized to other members. -/
structure CallMembersKept (call : SpecialResolutionCall) : Prop where
  moduleId : MemberKept ms ms' (.unsigned 32) "moduleId"
  moduleName : MemberKept ms ms' .string "module"
  methodId : MemberKept ms ms' (.unsigned 32) "methodId"
  method : MemberKept ms ms' .string "method"
  arguments : ∀ v, ms.lookup "arguments" = some v → v ≠ .null →
    ∃ arguments, call.arguments = some arguments ∧
      ms'.lookup "arguments" = some arguments.toJson ∧ ArgumentsKept v arguments

/-- Nested calls are serialized with the members. -/
def NestedKept (calls : List Json) (calls' : List SpecialResolutionCall) : Prop :=
  ((ms.lookup "calls" = none ∨ ms.lookup "calls" = some .null) ∧ calls = [] ∧ calls' = []) ∨
    (ms.lookup "calls" = some (.array calls) ∧
      ms'.lookup "calls" = some (.array (SpecialResolutionCall.callsToJson calls')))

end Members

/-- An entry is an object, and all of it that is known is kept, nested calls included. -/
inductive CallKept : Json → SpecialResolutionCall → Prop
  | mk {ms ms' : List (String × Json)} {call : SpecialResolutionCall} {calls : List Json}
      {calls' : List SpecialResolutionCall} (hout : call.toJson = .object ms')
      (members : CallMembersKept ms ms' call) (hcalls : call.calls.getD [] = calls')
      (nested : NestedKept ms ms' calls calls') (each : List.Forall₂ CallKept calls calls') :
      CallKept (.object ms) call

/-- A resolution is an object, and all of it that is known is kept. -/
def ResolutionKept (v : Json) (data : SpecialResolutionData) : Prop :=
  ∃ ms ms' calls, v = .object ms ∧ data.toJson = .object ms' ∧
    MemberKept ms ms' (.unsigned 64) "resolutionId" ∧ MemberKept ms ms' .string "description" ∧
      NestedKept ms ms' calls data.calls ∧ List.Forall₂ CallKept calls data.calls

/-- The payload is kept verbatim, or it is of its shape and what is known of it is kept. -/
def EventKept (data : Json) : EventData → Prop
  | .unknown value => value = data
  | .tokenCreate parsed => Keeps tokenCreateData data (encode VmValue.custom parsed)
  | .tokenSeriesCreate parsed => Keeps tokenSeriesCreateData data (encode VmValue.custom parsed)
  | .marketOrder parsed => Keeps marketOrderData data (encode VmValue.custom parsed)
  | .specialResolution parsed => ResolutionKept data parsed

/-- Reading the payload of an event loses nothing. -/
def LosesNothing (kind : String) (data : Json) : Prop :=
  EventKept data (EventData.fromKindAndJson kind data)

/-! ## What is kept -/

section Members

variable (ms : List (String × Json))

/-- A member, unless it is missing or `null`, is of its type. -/
def MemberFits (s : Shape) (name : String) : Prop :=
  ∀ v, ms.lookup name = some v → v ≠ .null → Fits s v

/-- Arguments that are decoded are so exactly. -/
def ArgumentsExact (moduleName method : String) (v : Json) : Prop :=
  ∀ members kind, v = .object members →
    SpecialResolutionArguments.kindOf moduleName method members = some kind →
      Fits kind.shape v → Exact IsText kind.shape v

/-- The members of a call, its nested calls apart, are of their types. -/
structure CallMembersExact : Prop where
  moduleId : MemberFits ms (.unsigned 32) "moduleId"
  moduleName : MemberFits ms .string "module"
  methodId : MemberFits ms (.unsigned 32) "methodId"
  method : MemberFits ms .string "method"
  arguments : ∀ v, ms.lookup "arguments" = some v →
    ArgumentsExact (textField ms "module") (textField ms "method") v

end Members

/-- An entry is an object with members of their types, nested calls included. -/
inductive CallExact : Json → Prop
  | mk {ms : List (String × Json)} {calls : List Json} (members : CallMembersExact ms)
      (nested : NestedCalls ms calls) (each : ∀ call ∈ calls, CallExact call) :
      CallExact (.object ms)

/-- A resolution is an object with members of their types, its calls included. -/
def ResolutionExact (v : Json) : Prop :=
  ∃ ms calls, v = .object ms ∧ MemberFits ms (.unsigned 64) "resolutionId" ∧
    MemberFits ms .string "description" ∧ NestedCalls ms calls ∧ ∀ call ∈ calls, CallExact call

/-- No array is taken for a struct of the shape. -/
def NoArray (shape : Shape) (data : Json) : Prop := ∀ items, data = .array items → ¬Fits shape data

/-- Data of a kind that is known is exact. -/
def DataExact (kind : String) (data : Json) : Prop :=
  match kind with
  | "TokenCreate" => NoArray tokenCreateData data
  | "TokenSeriesCreate" => NoArray tokenSeriesCreateData data
  | "OrderCreated" | "OrderCancelled" | "OrderFilled" => NoArray marketOrderData data
  | "SpecialResolution" => ResolutionExact data
  | _ => True

/-! ## Members -/

variable {ms ms' : List (String × Json)} {name : String} {v w : Json}

/-- A number is read as the one it is written as. -/
theorem asU64_eq_some {value : UInt64} : asU64 v = some value ↔ v = .number (.int value.toNat) := by
  constructor
  · intro h
    match v with
    | .number (.int n) =>
      rw [asU64, Option.ite_none_right_eq_some] at h
      obtain ⟨⟨h0, hlt⟩, h⟩ := h
      obtain rfl := Option.some.inj h
      have hn : n.toNat < 2 ^ 64 := by omega
      rw [UInt64.toNat_ofNat_of_lt' hn, Int.toNat_of_nonneg h0]
  · rintro rfl
    have hlt := value.toNat_lt
    have hrange : 0 ≤ (value.toNat : ℤ) ∧ (value.toNat : ℤ) < 2 ^ 64 := by omega
    rw [asU64, if_pos hrange, Int.toNat_natCast, UInt64.ofNat_toNat]

/-- A number is kept if it fits and nothing stands for it otherwise. -/
theorem keeps_unsigned {bits n : ℕ} (hfits : Fits (.unsigned bits) v → v = .number (.int n))
    (hzero : ¬Fits (.unsigned bits) v → n = 0) :
    Keeps (.unsigned bits) v (.number (.int n)) ↔ Fits (.unsigned bits) v := by
  constructor
  · intro h
    by_contra hnot
    obtain rfl := hzero hnot
    cases v with
    | number value =>
      obtain rfl : Number.int 0 = value := Json.number.inj h
      exact hnot ⟨le_rfl, by positivity⟩
    | _ => exact h.elim
  · intro h
    rw [hfits h]
    rfl

theorem keeps_u64 : Keeps (.unsigned 64) v (.number (.int ((asU64 v).getD 0).toNat)) ↔
    Fits (.unsigned 64) v := by
  refine keeps_unsigned (fun h => ?_) fun h => ?_
  · match v with
    | .number (.int n) =>
      obtain ⟨h0, hlt⟩ := h
      have hn : n.toNat < 2 ^ 64 := by omega
      rw [asU64, if_pos ⟨h0, hlt⟩, Option.getD_some, UInt64.toNat_ofNat_of_lt' hn,
        Int.toNat_of_nonneg h0]
  · match hv : asU64 v with
    | none => rfl
    | some value =>
      rw [asU64_eq_some] at hv
      have hlt := value.toNat_lt
      exact absurd (hv ▸ ⟨by omega, by omega⟩) h

theorem keeps_idField (h : ms.lookup name = some v) :
    Keeps (.unsigned 32) v (.number (.int (idField ms name).toNat)) ↔ Fits (.unsigned 32) v := by
  have hfield : idField ms name =
      ((asU64 v).bind fun value => if value.toNat < 2 ^ 32 then some value.toUInt32 else none).getD
        0 := by
    rw [idField, h, Option.bind_some]
  rw [hfield]
  refine keeps_unsigned (fun h => ?_) fun h => ?_
  · -- A number of 32 bits is one of 64 bits, and keeps its value.
    match v with
    | .number (.int n) =>
      obtain ⟨h0, hlt⟩ := h
      have hn : n.toNat < 2 ^ 32 := by omega
      have hvalue : (UInt64.ofNat n.toNat).toNat = n.toNat :=
        UInt64.toNat_ofNat_of_lt' (hn.trans (by decide))
      have hsome : asU64 (.number (.int n)) = some (UInt64.ofNat n.toNat) :=
        asU64_eq_some.2 (by rw [hvalue, Int.toNat_of_nonneg h0])
      rw [hsome, Option.bind_some, hvalue, if_pos hn, Option.getD_some, UInt64.toNat_toUInt32,
        hvalue, Nat.mod_eq_of_lt hn, Int.toNat_of_nonneg h0]
  · match hv : asU64 v with
    | none => rfl
    | some value =>
      rw [asU64_eq_some] at hv
      by_cases hlt : value.toNat < 2 ^ 32
      · exact absurd (hv ▸ ⟨by omega, by omega⟩) h
      · rw [Option.bind_some, if_neg hlt]
        rfl

theorem keeps_textField (h : ms.lookup name = some v) :
    Keeps .string v (.string (textField ms name)) ↔ Fits .string v := by
  rw [textField, h, Option.bind_some]
  cases v <;> simp [asStr, Keeps, Fits]

/-- A member is kept iff it fits, if that is so of what is written for it. -/
theorem memberKept_iff {s : Shape} (name : String) (h : ms'.lookup name = some w)
    (hkeeps : ∀ v, ms.lookup name = some v → (Keeps s v w ↔ Fits s v)) :
    MemberKept ms ms' s name ↔ MemberFits ms s name := by
  refine forall₃_congr fun v hv _ => ?_
  rw [h, ← hkeeps v hv]
  simp

/-! ## Arguments -/

open SpecialResolutionArguments in
/-- Arguments are decoded, and kept if they are so exactly. -/
theorem argumentsKept_iff (moduleName method : String) (h : v ≠ .null) :
    ∃ arguments, fromCallJson moduleName method v = some arguments ∧
      (ArgumentsKept v arguments ↔ ArgumentsExact moduleName method v) := by
  match v with
  | .null => exact absurd rfl h
  | .bool _ | .number _ | .string _ | .array _ =>
    exact ⟨_, rfl, iff_of_true rfl fun _ _ hv => nomatch hv⟩
  | .object members =>
    match hkind : kindOf moduleName method members with
    | none =>
      refine ⟨unrecognized (.object members), ?_, iff_of_true rfl fun members' kind hv hkind' => ?_⟩
      · simp only [fromCallJson, hkind]
      · obtain rfl := Json.object.inj hv
        cases hkind.symm.trans hkind'
    | some kind =>
      refine ⟨typedOr kind (.object members), ?_, ?_⟩
      · simp only [fromCallJson, hkind]
      · have hexact : ArgumentsExact moduleName method (.object members) ↔
            (Fits kind.shape (.object members) →
              Exact IsText kind.shape (.object members)) := by
          refine ⟨fun hexact => hexact members kind rfl hkind,
            fun hfits members' kind' hv hkind' => ?_⟩
          obtain rfl := Json.object.inj hv
          obtain rfl := Option.some.inj (hkind.symm.trans hkind')
          exact hfits
        rw [hexact, typedOr]
        match hdecode : decode VmValue.custom kind.shape (.object members) with
        | none => exact iff_of_true rfl fun hfits => absurd hfits (decode_eq_none.1 hdecode)
        | some parsed =>
          have hfits := (isSome_decode (c := VmValue.custom) kind.shape (.object members)).1
            (by rw [hdecode]; rfl)
          exact (keeps_encode_iff VmValue.toJson_fromJson _ kind.distinct_shape hdecode).trans
            (by simp [hfits])

/-! ## Calls -/

namespace SpecialResolutionCall

theorem callsIn_eq (ms : List (String × Json)) : callsIn ms = (ms.lookup "calls").bind callsOf := by
  induction ms with
  | nil => rfl
  | cons e ms ih =>
    obtain ⟨name, value⟩ := e
    rw [callsIn, List.lookup_cons]
    by_cases h : name = "calls"
    · rw [if_pos h, h, beq_self_eq_true, Option.bind_some]
    · rw [if_neg h, beq_eq_false_iff_ne.2 (Ne.symm h), ih]

theorem callsFrom_eq_map (items : List Json) : callsFrom items = items.map fromJson := by
  induction items with
  | nil => rfl
  | cons item items ih => rw [callsFrom, ih, List.map_cons]

/-- The members a call is serialized to. -/
def members (call : SpecialResolutionCall) : List (String × Json) :=
  [("moduleId", .number (.int call.moduleId.toNat)), ("module", .string call.moduleName),
    ("methodId", .number (.int call.methodId.toNat)), ("method", .string call.method)] ++
    (call.arguments.map fun arguments => ("arguments", arguments.toJson)).toList ++
      callsMember call.calls

theorem toJson_eq (call : SpecialResolutionCall) : call.toJson = .object call.members := by
  cases call
  rfl

theorem lookup_arguments (call : SpecialResolutionCall) :
    call.members.lookup "arguments" = call.arguments.map SpecialResolutionArguments.toJson := by
  rw [members]
  cases call.arguments with
  | none => cases call.calls <;> rfl
  | some arguments => rfl

theorem lookup_calls (call : SpecialResolutionCall) :
    call.members.lookup "calls" = call.calls.map fun calls => .array (callsToJson calls) := by
  rw [members]
  cases call.arguments <;> cases call.calls <;> rfl

end SpecialResolutionCall

/-- The members of a call are kept iff they are of their types. -/
theorem callMembersKept_iff (ms : List (String × Json)) :
    CallMembersKept ms (SpecialResolutionCall.fromJson (.object ms)).members
      (SpecialResolutionCall.fromJson (.object ms)) ↔ CallMembersExact ms := by
  set call := SpecialResolutionCall.fromJson (.object ms) with hcall
  have hmoduleId : MemberKept ms call.members (.unsigned 32) "moduleId" ↔ _ :=
    memberKept_iff "moduleId" rfl fun v hv => keeps_idField hv
  have hmodule : MemberKept ms call.members .string "module" ↔ _ :=
    memberKept_iff "module" rfl fun v hv => keeps_textField hv
  have hmethodId : MemberKept ms call.members (.unsigned 32) "methodId" ↔ _ :=
    memberKept_iff "methodId" rfl fun v hv => keeps_idField hv
  have hmethod : MemberKept ms call.members .string "method" ↔ _ :=
    memberKept_iff "method" rfl fun v hv => keeps_textField hv
  have harguments (v : Json) (hv : ms.lookup "arguments" = some v) (hnull : v ≠ .null) :
      (∃ arguments, call.arguments = some arguments ∧
        call.members.lookup "arguments" = some arguments.toJson ∧ ArgumentsKept v arguments) ↔
          ArgumentsExact (textField ms "module") (textField ms "method") v := by
    obtain ⟨arguments, hsome, hiff⟩ :=
      argumentsKept_iff (textField ms "module") (textField ms "method") hnull
    have hcallArguments : call.arguments = some arguments := by
      rw [hcall, SpecialResolutionCall.fromJson]
      simp only [hv, Option.bind_some, hsome]
    rw [SpecialResolutionCall.lookup_arguments, hcallArguments, ← hiff]
    simp
  constructor
  · intro h
    refine ⟨hmoduleId.1 h.moduleId, hmodule.1 h.moduleName, hmethodId.1 h.methodId,
      hmethod.1 h.method, fun v hv => ?_⟩
    by_cases hnull : v = .null
    · rintro members kind rfl
      cases hnull
    · exact (harguments v hv hnull).1 (h.arguments v hv hnull)
  · intro h
    exact ⟨hmoduleId.2 h.moduleId, hmodule.2 h.moduleName, hmethodId.2 h.methodId,
      hmethod.2 h.method, fun v hv hnull => (harguments v hv hnull).2 (h.arguments v hv)⟩

/-- A member is smaller than the members it is one of. -/
theorem sizeOf_lt_of_lookup (h : ms.lookup name = some v) : sizeOf v < sizeOf ms := by
  induction ms with
  | nil => cases h
  | cons e ms ih =>
    obtain ⟨name', value⟩ := e
    rw [List.lookup_cons] at h
    split at h
    · obtain rfl := Option.some.inj h
      simp only [List.cons.sizeOf_spec, Prod.mk.sizeOf_spec]
      omega
    · have := ih h
      simp only [List.cons.sizeOf_spec]
      omega

theorem NestedCalls.sizeOf_lt {calls : List Json} (h : NestedCalls ms calls) {call : Json}
    (hcall : call ∈ calls) : sizeOf call < sizeOf (Json.object ms) := by
  rcases h with ⟨-, rfl⟩ | hlookup
  · cases hcall
  · have hcalls := sizeOf_lt_of_lookup hlookup
    have hmem := List.sizeOf_lt_of_mem hcall
    simp only [Json.array.sizeOf_spec, Json.object.sizeOf_spec] at hcalls ⊢
    omega

/-- The nested calls are those that are read. -/
theorem NestedCalls.map_fromJson {calls : List Json} {calls' : Option (List SpecialResolutionCall)}
    (h : NestedCalls ms calls)
    (hcalls : calls' = (ms.lookup "calls").bind SpecialResolutionCall.callsOf) :
    calls'.getD [] = calls.map SpecialResolutionCall.fromJson := by
  rcases h with ⟨hnone | hnull, rfl⟩ | hlookup
  · rw [hcalls, hnone]
    rfl
  · rw [hcalls, hnull]
    rfl
  · rw [hcalls, hlookup, ← SpecialResolutionCall.callsFrom_eq_map]
    rfl

/-- The nested calls are kept with those that are read. -/
theorem nestedKept_iff {calls : List Json} {calls' : Option (List SpecialResolutionCall)}
    (hcalls : calls' = (ms.lookup "calls").bind SpecialResolutionCall.callsOf)
    (hout : calls'.isSome → ms'.lookup "calls" =
      some (.array (SpecialResolutionCall.callsToJson (calls'.getD [])))) :
    NestedKept ms ms' calls (calls'.getD []) ↔ NestedCalls ms calls := by
  constructor
  · rintro (⟨habsent, rfl, -⟩ | ⟨hlookup, -⟩)
    · exact .inl ⟨habsent, rfl⟩
    · exact .inr hlookup
  · intro h
    have hmap := h.map_fromJson hcalls
    rcases h with ⟨habsent, rfl⟩ | hlookup
    · exact .inl ⟨habsent, rfl, hmap⟩
    · refine .inr ⟨hlookup, hout ?_⟩
      rw [hcalls, hlookup]
      rfl

/-- An entry is kept iff it is exact. -/
theorem callKept_iff (v : Json) :
    CallKept v (SpecialResolutionCall.fromJson v) ↔ CallExact v := by
  match v with
  | .null | .bool _ | .number _ | .string _ | .array _ => exact iff_of_false nofun nofun
  | .object ms =>
    set call := SpecialResolutionCall.fromJson (.object ms) with hcall
    have hcalls : call.calls = (ms.lookup "calls").bind SpecialResolutionCall.callsOf := by
      rw [hcall, SpecialResolutionCall.fromJson]
      exact SpecialResolutionCall.callsIn_eq ms
    have hnested (calls : List Json) :
        NestedKept ms call.members calls (call.calls.getD []) ↔ NestedCalls ms calls := by
      refine nestedKept_iff hcalls fun hsome => ?_
      obtain ⟨calls', hcalls'⟩ := Option.isSome_iff_exists.1 hsome
      rw [SpecialResolutionCall.lookup_calls, hcalls']
      rfl
    -- By induction: nested calls are smaller than the call.
    have heach {calls : List Json} (hcalls : NestedCalls ms calls) :
        List.Forall₂ CallKept calls (calls.map SpecialResolutionCall.fromJson) ↔
          ∀ call ∈ calls, CallExact call := by
      rw [List.forall₂_map_right_iff, List.forall₂_same]
      refine forall₂_congr fun item hitem => ?_
      have hlt : sizeOf item < sizeOf (Json.object ms) := hcalls.sizeOf_lt hitem
      exact callKept_iff item
    constructor
    · rintro ⟨hout, members, rfl, nested, each⟩
      obtain rfl := Json.object.inj (hout.symm.trans call.toJson_eq)
      have hnestedCalls := (hnested _).1 nested
      rw [hnestedCalls.map_fromJson hcalls] at each
      exact .mk ((callMembersKept_iff ms).1 members) hnestedCalls ((heach hnestedCalls).1 each)
    · rintro ⟨members, nested, each⟩
      refine .mk call.toJson_eq ((callMembersKept_iff ms).2 members) rfl ((hnested _).2 nested) ?_
      rw [nested.map_fromJson hcalls]
      exact (heach nested).2 each
termination_by sizeOf v
decreasing_by exact hlt

/-! ## Resolutions -/

namespace SpecialResolutionData

/-- The members a resolution is serialized to. -/
def members (data : SpecialResolutionData) : List (String × Json) :=
  [("resolutionId", .number (.int data.resolutionId.toNat))] ++
    (data.description.map fun description => ("description", .string description)).toList ++
      [("calls", .array (SpecialResolutionCall.callsToJson data.calls))]

theorem lookup_description (data : SpecialResolutionData) :
    data.members.lookup "description" = data.description.map .string := by
  rw [members]
  cases data.description <;> rfl

theorem lookup_calls (data : SpecialResolutionData) : data.members.lookup "calls" =
    some (.array (SpecialResolutionCall.callsToJson data.calls)) := by
  rw [members]
  cases data.description <;> rfl

end SpecialResolutionData

/-- A resolution is kept iff it is exact. -/
theorem resolutionKept_iff (v : Json) :
    ResolutionKept v (SpecialResolutionData.fromJson v) ↔ ResolutionExact v := by
  match v with
  | .null | .bool _ | .number _ | .string _ | .array _ =>
    exact iff_of_false (fun ⟨_, _, _, hv, _⟩ => nomatch hv) fun ⟨_, _, hv, _⟩ => nomatch hv
  | .object ms =>
    set data := SpecialResolutionData.fromJson (.object ms) with hdata
    have hid : MemberKept ms data.members (.unsigned 64) "resolutionId" ↔
        MemberFits ms (.unsigned 64) "resolutionId" := by
      refine memberKept_iff _ rfl fun v hv => ?_
      rw [hdata, SpecialResolutionData.fromJson, hv, Option.bind_some]
      exact keeps_u64
    have hdescription : MemberKept ms data.members .string "description" ↔
        MemberFits ms .string "description" := by
      refine forall₃_congr fun v hv _ => ?_
      rw [SpecialResolutionData.lookup_description, hdata, SpecialResolutionData.fromJson, hv,
        Option.bind_some]
      cases v <;> simp [asStr, Keeps, Fits]
    have hnested (calls : List Json) :
        NestedKept ms data.members calls data.calls ↔ NestedCalls ms calls :=
      nestedKept_iff rfl fun _ => data.lookup_calls
    have heach {calls : List Json} (hcalls : NestedCalls ms calls) :
        List.Forall₂ CallKept calls data.calls ↔ ∀ call ∈ calls, CallExact call := by
      have hmap : data.calls = calls.map SpecialResolutionCall.fromJson := hcalls.map_fromJson rfl
      rw [hmap, List.forall₂_map_right_iff, List.forall₂_same]
      exact forall₂_congr fun call _ => callKept_iff call
    constructor
    · rintro ⟨ms₀, ms', calls, hv, hout, hidKept, hdescriptionKept, nested, each⟩
      obtain rfl := Json.object.inj hv
      obtain rfl : data.members = ms' := Json.object.inj hout
      have hcalls := (hnested calls).1 nested
      exact ⟨ms, calls, rfl, hid.1 hidKept, hdescription.1 hdescriptionKept, hcalls,
        (heach hcalls).1 each⟩
    · rintro ⟨ms₀, calls, hv, hidFits, hdescriptionFits, nested, each⟩
      obtain rfl := Json.object.inj hv
      exact ⟨ms, data.members, calls, rfl, rfl, hid.2 hidFits, hdescription.2 hdescriptionFits,
        (hnested calls).2 nested, (heach nested).2 each⟩

/-! ## Events -/

/-- An object of the shape is exact whatever it is: it has no struct and no value of the
    VM within. -/
def Plain (shape : Shape) : Prop := ∀ members, Exact IsText shape (.object members)

/-- Metadata rendered to texts holds neither structs nor values of the VM. -/
theorem exact_map_string (j : Json) : Exact IsText (.map .string) j := by
  cases j <;> simp [Exact]

theorem plain_tokenCreateData : Plain tokenCreateData := fun members => by
  simp [tokenCreateData, Exact, MembersExact, exact_map_string]

theorem plain_tokenSeriesCreateData : Plain tokenSeriesCreateData := fun members => by
  simp [tokenSeriesCreateData, Exact, MembersExact, exact_map_string]

theorem plain_marketOrderData : Plain marketOrderData := fun members => by
  simp [marketOrderData, Exact, MembersExact]

/-- What a derived decoder takes is kept unless it was an array. -/
theorem typed_iff {fields : List (String × Shape)} {data : Json} {wrap : Data VmValue → EventData}
    (hdistinct : (Shape.struct fields).distinct) (hplain : Plain (.struct fields))
    (hwrap : ∀ parsed, EventKept data (wrap parsed) ↔
      Keeps (.struct fields) data (encode VmValue.custom parsed)) :
    EventKept data (EventData.typed (.struct fields) wrap data) ↔
      NoArray (.struct fields) data := by
  rw [EventData.typed]
  match hdecode : decode VmValue.custom (.struct fields) data with
  | none => exact iff_of_true rfl fun _ _ => decode_eq_none.1 hdecode
  | some parsed =>
    have hfits := (isSome_decode (c := VmValue.custom) (.struct fields) data).1
      (by rw [hdecode]; rfl)
    refine (hwrap parsed).trans
      ((keeps_encode_iff VmValue.toJson_fromJson _ hdistinct hdecode).trans ?_)
    cases data with
    | object members => exact iff_of_true (hplain members) nofun
    | array items => exact iff_of_false id fun h => h items rfl hfits
    | _ => exact hfits.elim

/-- Nothing is lost of an event if and only if its data is exact. -/
theorem losesNothing_iff (kind : String) (data : Json) :
    LosesNothing kind data ↔ DataExact kind data := by
  rw [LosesNothing, EventData.fromKindAndJson.eq_def, DataExact.eq_def]
  split
  · exact typed_iff (by decide +kernel) plain_tokenCreateData fun _ => Iff.rfl
  · exact typed_iff (by decide +kernel) plain_tokenSeriesCreateData fun _ => Iff.rfl
  · exact typed_iff (by decide +kernel) plain_marketOrderData fun _ => Iff.rfl
  · exact typed_iff (by decide +kernel) plain_marketOrderData fun _ => Iff.rfl
  · exact typed_iff (by decide +kernel) plain_marketOrderData fun _ => Iff.rfl
  · exact resolutionKept_iff data
  · refine iff_of_true rfl ?_
    try split
    all_goals trivial

/-- A resolution whose id is a text is read as the one of id 0. -/
def driftedResolution : Json :=
  .object [("calls", .array [.string "TransferFungible"]), ("resolutionId", .string "44")]

theorem not_losesNothing : ¬LosesNothing "SpecialResolution" driftedResolution := by
  rintro ⟨ms, ms', calls, hv, hout, hid, -⟩
  obtain rfl := Json.object.inj hv
  obtain ⟨w, -, hkeeps⟩ := hid (.string "44") rfl nofun
  exact hkeeps

end PhantasmaSdk.ExtendedEvents
