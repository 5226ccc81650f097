import PhantasmaSdk.Serde.RoundTrip

/-!
# Encoders that leave nothing out

An encoder may be told to leave out optional members that are absent, and is not
otherwise: it writes them as `null` (`encodeAll`). What it writes is read back as well,
as far as custom values are (`decode_encodeAll`), and as much of what was decoded is kept
(`keeps_encodeAll_iff`): what is absent was a `null`, if it was there at all.

Custom values may take two times until they stay (`decode_encodeAll_twice`).
-/

namespace Serde

variable {V : Type}

section

variable (c : Custom V)

mutual

/-- Every field of a struct is written. -/
def encodeAll : Data V → Json
  | .string value => .string value
  | .bool value => .bool value
  | .int value => .number (.int value)
  | .absent => .null
  | .seq items => .array (encodeAllItems items)
  | .map entries => .object (encodeAllFields entries)
  | .struct fields => .object (encodeAllFields fields)
  | .custom value => c.write value

def encodeAllItems : List (Data V) → List Json
  | [] => []
  | item :: items => encodeAll item :: encodeAllItems items

def encodeAllFields : List (String × Data V) → List (String × Json)
  | [] => []
  | (name, value) :: fields => (name, encodeAll value) :: encodeAllFields fields

end

end

variable {c : Custom V} {P : Json → Prop}

theorem encodeAllItems_eq_map (items : List (Data V)) :
    encodeAllItems c items = items.map (encodeAll c) := by
  induction items with
  | nil => rfl
  | cons item items ih => rw [encodeAllItems, ih, List.map_cons]

theorem encodeAllFields_eq_map (fields : List (String × Data V)) :
    encodeAllFields c fields = fields.map fun e => (e.1, encodeAll c e.2) := by
  induction fields with
  | nil => rfl
  | cons e fields ih => rw [encodeAllFields, ih, List.map_cons]

theorem encodeAll_ne_null (hnull : ∀ v, c.write v ≠ .null) {d : Data V} (h : d ≠ .absent) :
    encodeAll c d ≠ .null := by
  cases d with
  | absent => exact absurd rfl h
  | custom value => exact hnull value
  | _ => exact nofun

/-- Fields with other names are found behind the first one. -/
theorem lookup_encodeAllFields_of_ne {name name' : String} (h : name' ≠ name) {value : Data V}
    {fields : List (String × Data V)} :
    (encodeAllFields c ((name, value) :: fields)).lookup name' =
      (encodeAllFields c fields).lookup name' := by
  rw [encodeAllFields, List.lookup_cons, beq_eq_false_iff_ne.2 h]

/-! ## Custom values -/

mutual

/-- The value with `f` applied to the custom values in it. -/
def Data.onCustom (f : V → V) : Data V → Data V
  | .seq items => .seq (onCustomItems f items)
  | .map entries => .map (onCustomFields f entries)
  | .struct fields => .struct (onCustomFields f fields)
  | .custom value => .custom (f value)
  | .string value => .string value
  | .bool value => .bool value
  | .int value => .int value
  | .absent => .absent

def onCustomItems (f : V → V) : List (Data V) → List (Data V)
  | [] => []
  | item :: items => item.onCustom f :: onCustomItems f items

def onCustomFields (f : V → V) : List (String × Data V) → List (String × Data V)
  | [] => []
  | (name, value) :: fields => (name, value.onCustom f) :: onCustomFields f fields

end

mutual

/-- The custom values in a value. -/
def Data.customs : Data V → List V
  | .seq items => customsOfItems items
  | .map entries => customsOfFields entries
  | .struct fields => customsOfFields fields
  | .custom value => [value]
  | .string _ | .bool _ | .int _ | .absent => []

def customsOfItems : List (Data V) → List V
  | [] => []
  | item :: items => item.customs ++ customsOfItems items

def customsOfFields : List (String × Data V) → List V
  | [] => []
  | (_, value) :: fields => value.customs ++ customsOfFields fields

end

section

variable (f : V → V)

theorem onCustomItems_eq_map (items : List (Data V)) :
    onCustomItems f items = items.map (Data.onCustom f) := by
  induction items with
  | nil => rfl
  | cons item items ih => rw [onCustomItems, ih, List.map_cons]

theorem onCustomFields_eq_map (fields : List (String × Data V)) :
    onCustomFields f fields = fields.map fun e => (e.1, e.2.onCustom f) := by
  induction fields with
  | nil => rfl
  | cons e fields ih => rw [onCustomFields, ih, List.map_cons]

mutual

/-- A value stays as it is iff all the custom values in it do. -/
theorem onCustom_eq_self_iff (d : Data V) : d.onCustom f = d ↔ ∀ v ∈ d.customs, f v = v := by
  cases d with
  | seq items => simpa [Data.onCustom, Data.customs] using onCustomItems_eq_self_iff items
  | map entries => simpa [Data.onCustom, Data.customs] using onCustomFields_eq_self_iff entries
  | struct fields => simpa [Data.onCustom, Data.customs] using onCustomFields_eq_self_iff fields
  | string | bool | int | absent | custom => simp [Data.onCustom, Data.customs]

theorem onCustomItems_eq_self_iff (items : List (Data V)) :
    onCustomItems f items = items ↔ ∀ v ∈ customsOfItems items, f v = v := by
  match items with
  | [] => simp [onCustomItems, customsOfItems]
  | item :: items =>
    rw [onCustomItems, customsOfItems, List.cons.injEq, List.forall_mem_append,
      onCustom_eq_self_iff item, onCustomItems_eq_self_iff items]

theorem onCustomFields_eq_self_iff (fields : List (String × Data V)) :
    onCustomFields f fields = fields ↔ ∀ v ∈ customsOfFields fields, f v = v := by
  match fields with
  | [] => simp [onCustomFields, customsOfFields]
  | (name, value) :: fields =>
    rw [onCustomFields, customsOfFields, List.cons.injEq, Prod.mk.injEq, eq_self, true_and,
      List.forall_mem_append, onCustom_eq_self_iff value, onCustomFields_eq_self_iff fields]

end

mutual

theorem customs_onCustom (d : Data V) : (d.onCustom f).customs = d.customs.map f := by
  cases d with
  | seq items => simpa [Data.onCustom, Data.customs] using customsOfItems_onCustom items
  | map entries => simpa [Data.onCustom, Data.customs] using customsOfFields_onCustom entries
  | struct fields => simpa [Data.onCustom, Data.customs] using customsOfFields_onCustom fields
  | string | bool | int | absent | custom => simp [Data.onCustom, Data.customs]

theorem customsOfItems_onCustom (items : List (Data V)) :
    customsOfItems (onCustomItems f items) = (customsOfItems items).map f := by
  match items with
  | [] => rfl
  | item :: items =>
    rw [onCustomItems, customsOfItems, customsOfItems, List.map_append, customs_onCustom item,
      customsOfItems_onCustom items]

theorem customsOfFields_onCustom (fields : List (String × Data V)) :
    customsOfFields (onCustomFields f fields) = (customsOfFields fields).map f := by
  match fields with
  | [] => rfl
  | (name, value) :: fields =>
    rw [onCustomFields, customsOfFields, customsOfFields, List.map_append, customs_onCustom value,
      customsOfFields_onCustom fields]

end

end

/-! ## Reading back -/

/-- What each element is written as is read as another, all along. -/
theorem mapM_map_eq_map {α β : Type} {f : α → Option β} {g : β → α} {h : β → β} {bs : List β}
    (hbs : ∀ b ∈ bs, f (g b) = some (h b)) : (bs.map g).mapM f = some (bs.map h) := by
  induction bs with
  | nil => rfl
  | cons b bs ih =>
    obtain ⟨hb, hbs⟩ := List.forall_mem_cons.1 hbs
    rw [List.map_cons, List.mapM_cons, hb, ih hbs]
    rfl

mutual

/-- A value of a shape is decoded as it was encoded, but for its custom values, which are
    read from what they are written as. -/
theorem decode_encodeAll (hnull : ∀ v, c.write v ≠ .null) (s : Shape) (hs : s.distinct)
    {d : Data V} (h : HasShape s d) :
    decode c s (encodeAll c d) = some (d.onCustom (c.read ∘ c.write)) := by
  cases s with
  | string | bool =>
    cases d <;> first | exact h.elim | rfl
  | unsigned bits | signed bits =>
    cases d with
    | int value => exact if_pos h
    | _ => exact h.elim
  | option s =>
    by_cases habsent : d = .absent
    · rw [habsent]
      rfl
    · have h' : HasShape s d := by
        cases d with
        | absent => exact absurd rfl habsent
        | _ => exact h
      rw [decode_option (encodeAll_ne_null hnull habsent)]
      exact decode_encodeAll hnull s hs h'
  | custom =>
    cases d with
    | custom value => rfl
    | _ => exact h.elim
  | seq s =>
    cases d with
    | seq items =>
      rw [encodeAll, encodeAllItems_eq_map, decode,
        mapM_map_eq_map fun d hd => decode_encodeAll hnull s hs (h d hd), Option.map_some,
        Data.onCustom, onCustomItems_eq_map]
    | _ => exact h.elim
  | map s =>
    cases d with
    | map entries =>
      rw [encodeAll, encodeAllFields_eq_map, decode, Data.onCustom, onCustomFields_eq_map,
        mapM_map_eq_map fun e he => ?_, Option.map_some]
      rw [decode_encodeAll hnull s hs (h e he), Option.map_some]
    | _ => exact h.elim
  | struct fields =>
    cases d with
    | struct values =>
      rw [encodeAll, decode, decodeMembers_encodeAllFields hnull fields hs h fun _ _ => rfl]
      rfl
    | _ => exact h.elim

/-- The fields are decoded from an object in which their names lead to what is written for
    them. -/
theorem decodeMembers_encodeAllFields (hnull : ∀ v, c.write v ≠ .null)
    (fields : List (String × Shape)) (hs : fieldsDistinct fields)
    {values : List (String × Data V)} {out : List (String × Json)}
    (h : FieldsHaveShape fields values) (hout : ∀ name ∈ fields.map Prod.fst,
      out.lookup name = (encodeAllFields c values).lookup name) :
    decodeMembers c fields out = some (onCustomFields (c.read ∘ c.write) values) := by
  match fields, values with
  | [], [] => rfl
  | [], _ :: _ => exact h.elim
  | _ :: _, [] => exact h.elim
  | (name, s) :: fields, (_, value) :: values =>
    obtain ⟨rfl, hvalue, h⟩ := h
    simp only [fieldsDistinct, Bool.and_eq_true, decide_eq_true_eq] at hs
    obtain ⟨hname, hs, hfields⟩ := hs
    have hrest : decodeMembers c fields out = some (onCustomFields (c.read ∘ c.write) values) := by
      refine decodeMembers_encodeAllFields hnull fields hfields h fun name' hname' => ?_
      rw [hout name' (List.mem_cons_of_mem _ hname'),
        lookup_encodeAllFields_of_ne (ne_of_mem_of_not_mem hname' hname)]
    have hhead := hout name List.mem_cons_self
    rw [encodeAllFields, List.lookup_cons_self] at hhead
    rw [decodeMembers, hrest, hhead]
    simp only [decode_encodeAll hnull s hs hvalue]
    rfl

end

/-- What was decoded once is decoded again as it is, if custom values are read as they were
    written. -/
theorem decode_encodeAll_of_decode (hc : c.Lawful) {s : Shape} (hs : s.distinct) {j : Json}
    {d : Data V} (h : decode c s j = some d) : decode c s (encodeAll c d) = some d := by
  rw [decode_encodeAll hc.write_ne_null s hs (hasShape_of_decode s h)]
  exact congrArg some ((onCustom_eq_self_iff _ d).2 fun v _ => hc.read_write v)

/-- If custom values are read the same the second time, what was decoded twice is decoded
    again as it is. -/
theorem decode_encodeAll_twice (hnull : ∀ v, c.write v ≠ .null)
    (hread : ∀ v, c.read (c.write (c.read (c.write v))) = c.read (c.write v)) {s : Shape}
    (hs : s.distinct) {j : Json} {d : Data V} (h : decode c s j = some d) :
    ∃ d', decode c s (encodeAll c d) = some d' ∧ decode c s (encodeAll c d') = some d' ∧
      (d' = d ↔ ∀ v ∈ d.customs, c.read (c.write v) = v) := by
  have honce := decode_encodeAll hnull s hs (hasShape_of_decode s h)
  refine ⟨_, honce, ?_, onCustom_eq_self_iff _ d⟩
  rw [decode_encodeAll hnull s hs (hasShape_of_decode s honce)]
  refine congrArg some ((onCustom_eq_self_iff _ _).2 fun v hv => ?_)
  rw [customs_onCustom, List.mem_map] at hv
  obtain ⟨v, -, rfl⟩ := hv
  exact hread v

/-! ## What is kept -/

mutual

/-- What is decoded and encoded again is kept iff it is exact. -/
theorem keeps_encodeAll_iff (hP : ∀ j, c.write (c.read j) = j ↔ P j) (s : Shape)
    (hs : s.distinct) {j : Json} {d : Data V} (h : decode c s j = some d) :
    Keeps s j (encodeAll c d) ↔ Exact P s j := by
  cases s with
  | string | bool | unsigned bits | signed bits | custom =>
    -- What has no parts is encoded in one way.
    have hplain := keeps_encode_iff hP _ hs h
    cases d with
    | absent | seq | map | struct => exact (hasShape_of_decode _ h).elim
    | string | bool | int | custom => exact hplain
  | option s =>
    rw [Keeps, Exact]
    cases j with
    | null => simp
    | _ => exact or_congr_right (keeps_encodeAll_iff hP s hs h)
  | seq s =>
    cases j with
    | array items =>
      rw [decode, Option.map_eq_some_iff] at h
      obtain ⟨values, hvalues, rfl⟩ := h
      rw [encodeAll, encodeAllItems_eq_map, Keeps, Exact, List.forall₂_map_right_iff]
      exact forall₂_iff_forall (forall₂_of_mapM hvalues) fun j value hvalue =>
        keeps_encodeAll_iff hP s hs hvalue
    | _ => simp [decode] at h
  | map s =>
    cases j with
    | object members =>
      rw [decode, Option.map_eq_some_iff] at h
      obtain ⟨values, hvalues, rfl⟩ := h
      rw [encodeAll, encodeAllFields_eq_map, Keeps, Exact, List.forall₂_map_right_iff]
      refine forall₂_iff_forall (forall₂_of_mapM hvalues) fun e entry hentry => ?_
      obtain ⟨value, hvalue, rfl⟩ := Option.map_eq_some_iff.1 hentry
      exact (and_iff_right rfl).trans (keeps_encodeAll_iff hP s hs hvalue)
    | _ => simp [decode] at h
  | struct fields =>
    cases j with
    | object members =>
      rw [decode, Option.map_eq_some_iff] at h
      obtain ⟨values, hvalues, rfl⟩ := h
      exact membersKept_encodeAllFields_iff hP fields hs hvalues fun name _ => rfl
    | array items =>
      rw [decode, Option.map_eq_some_iff] at h
      obtain ⟨values, hvalues, rfl⟩ := h
      simp [Keeps, Exact]
    | _ => simp [decode] at h

theorem membersKept_encodeAllFields_iff (hP : ∀ j, c.write (c.read j) = j ↔ P j)
    (fields : List (String × Shape)) (hs : fieldsDistinct fields)
    {members out : List (String × Json)} {values : List (String × Data V)}
    (h : decodeMembers c fields members = some values) (hout : ∀ name ∈ fields.map Prod.fst,
      out.lookup name = (encodeAllFields c values).lookup name) :
    MembersKept fields members out ↔ MembersExact P fields members := by
  match fields with
  | [] => exact Iff.rfl
  | (name, s) :: fields =>
    simp only [fieldsDistinct, Bool.and_eq_true, decide_eq_true_eq] at hs
    obtain ⟨hname, hs, hfields⟩ := hs
    obtain ⟨value, rest, hvalue, hrest, rfl⟩ := decodeMembers_cons h
    rw [MembersKept, MembersExact]
    refine and_congr ?_
      (membersKept_encodeAllFields_iff hP fields hfields hrest fun name' hname' => ?_)
    · refine forall₃_congr fun j hj _ => ?_
      rw [hj] at hvalue
      rw [hout name List.mem_cons_self, encodeAllFields, List.lookup_cons_self]
      simp only [Option.some.injEq, exists_eq_left']
      exact keeps_encodeAll_iff hP s hs hvalue
    · rw [hout name' (List.mem_cons_of_mem _ hname'),
        lookup_encodeAllFields_of_ne (ne_of_mem_of_not_mem hname' hname)]

end

end Serde
