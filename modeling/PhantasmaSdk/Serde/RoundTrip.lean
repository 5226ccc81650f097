import PhantasmaSdk.Serde.Derive

/-!
# Round trips of derived decoders

What a decoder gives, and the defaults it fills in, are values of the shape
(`HasShape`). A value of a shape is encoded to a JSON value that is decoded as it
(`decode_encode`), whatever it was decoded from: an array that stood for a struct, a
member that was missing, one that is not known. So decoding is settled after one time
(`decode_encode_of_decode`).

This is so if the custom type reads what it writes, which is never a `null`
(`Custom.Lawful`).
-/

namespace Serde

variable {V : Type}

/-- Custom values are read as they were written, and are never written as `null`. -/
structure Custom.Lawful (c : Custom V) : Prop where
  read_write : ∀ v, c.read (c.write v) = v
  write_ne_null : ∀ v, c.write v ≠ .null

/-! ## Values of a shape -/

mutual

def HasShape : Shape → Data V → Prop
  | .string, .string _ => True
  | .bool, .bool _ => True
  | .unsigned bits, .int value => 0 ≤ value ∧ value < 2 ^ bits
  | .signed bits, .int value => -2 ^ (bits - 1) ≤ value ∧ value < 2 ^ (bits - 1)
  | .option _, .absent => True
  | .option s, d => HasShape s d
  | .seq s, .seq items => ∀ d ∈ items, HasShape s d
  | .map s, .map entries => ∀ e ∈ entries, HasShape s e.2
  | .struct fields, .struct values => FieldsHaveShape fields values
  | .custom, .custom _ => True
  | _, _ => False

/-- The values are those of the fields, in order. -/
def FieldsHaveShape : List (String × Shape) → List (String × Data V) → Prop
  | [], [] => True
  | (name, s) :: fields, (name', value) :: values =>
    name = name' ∧ HasShape s value ∧ FieldsHaveShape fields values
  | _, _ => False

end

variable {c : Custom V}

/-- Only an optional value is absent, which is its default. -/
theorem default_of_hasShape_absent {s : Shape} (h : HasShape s (.absent : Data V)) :
    s.default c = .absent := by
  cases s with
  | option s => rfl
  | _ => exact h.elim

theorem hasShape_option {s : Shape} {d : Data V} (h : HasShape s d) : HasShape (.option s) d := by
  cases d with
  | absent => trivial
  | _ => exact h

/-! ## Decoded values -/

mutual

theorem hasShape_default (s : Shape) : HasShape s (s.default c) := by
  cases s with
  | string | bool | option | custom => trivial
  | unsigned bits => exact ⟨le_rfl, by positivity⟩
  | signed bits => exact ⟨by simp, by positivity⟩
  | seq | map => exact fun _ h => absurd h List.not_mem_nil
  | struct fields => exact fieldsHaveShape_defaults fields

theorem fieldsHaveShape_defaults (fields : List (String × Shape)) :
    FieldsHaveShape fields (defaults c fields) := by
  match fields with
  | [] => trivial
  | (name, s) :: fields => exact ⟨rfl, hasShape_default s, fieldsHaveShape_defaults fields⟩

end

/-- What is given for the elements of a list has what each of them gives. -/
theorem forall_mem_of_mapM {α β : Type} {f : α → Option β} {P : β → Prop} {as : List α}
    {bs : List β} (h : as.mapM f = some bs) (hP : ∀ a b, f a = some b → P b) : ∀ b ∈ bs, P b := by
  have hall := forall₂_of_mapM h
  clear h
  induction hall with
  | nil => exact fun _ hb => absurd hb List.not_mem_nil
  | cons hab _ ih => exact List.forall_mem_cons.2 ⟨hP _ _ hab, ih⟩

mutual

/-- What is decoded is of the shape. -/
theorem hasShape_of_decode (s : Shape) {j : Json} {d : Data V} (h : decode c s j = some d) :
    HasShape s d := by
  cases s with
  | string | bool =>
    cases j <;> simp only [decode, Option.some.injEq, reduceCtorEq] at h
    subst h
    trivial
  | unsigned bits | signed bits =>
    cases j with
    | number value =>
      cases value with
      | int value =>
        simp only [decode, Option.ite_none_right_eq_some, Option.some.injEq] at h
        obtain ⟨hrange, rfl⟩ := h
        exact hrange
      | float text => simp [decode] at h
    | _ => simp [decode] at h
  | option s =>
    cases j with
    | null =>
      obtain rfl := Option.some.inj h
      trivial
    | _ => exact hasShape_option (hasShape_of_decode s h)
  | custom =>
    obtain rfl := Option.some.inj h
    trivial
  | seq s =>
    cases j with
    | array items =>
      obtain ⟨values, hvalues, rfl⟩ := Option.map_eq_some_iff.1 h
      exact forall_mem_of_mapM hvalues fun j value hvalue => hasShape_of_decode s hvalue
    | _ => simp [decode] at h
  | map s =>
    cases j with
    | object members =>
      obtain ⟨entries, hentries, rfl⟩ := Option.map_eq_some_iff.1 h
      refine forall_mem_of_mapM hentries fun e entry hentry => ?_
      obtain ⟨value, hvalue, rfl⟩ := Option.map_eq_some_iff.1 hentry
      exact hasShape_of_decode s hvalue
    | _ => simp [decode] at h
  | struct fields =>
    cases j with
    | object members =>
      obtain ⟨values, hvalues, rfl⟩ := Option.map_eq_some_iff.1 h
      exact fieldsHaveShape_decodeMembers fields hvalues
    | array items =>
      obtain ⟨values, hvalues, rfl⟩ := Option.map_eq_some_iff.1 h
      exact fieldsHaveShape_decodeItems fields hvalues
    | _ => simp [decode] at h

theorem fieldsHaveShape_decodeMembers (fields : List (String × Shape))
    {members : List (String × Json)} {values : List (String × Data V)}
    (h : decodeMembers c fields members = some values) : FieldsHaveShape fields values := by
  match fields with
  | [] =>
    obtain rfl := Option.some.inj h
    trivial
  | (name, s) :: fields =>
    obtain ⟨value, rest, hvalue, hrest, rfl⟩ := decodeMembers_cons h
    refine ⟨rfl, ?_, fieldsHaveShape_decodeMembers fields hrest⟩
    cases hlookup : members.lookup name with
    | none =>
      rw [hlookup] at hvalue
      obtain rfl := Option.some.inj hvalue
      exact hasShape_default s
    | some j =>
      rw [hlookup] at hvalue
      exact hasShape_of_decode s hvalue

theorem fieldsHaveShape_decodeItems (fields : List (String × Shape)) {items : List Json}
    {values : List (String × Data V)} (h : decodeItems c fields items = some values) :
    FieldsHaveShape fields values := by
  match fields, items with
  | [], [] =>
    obtain rfl := Option.some.inj h
    trivial
  | [], _ :: _ => cases h
  | (name, s) :: fields, [] =>
    -- The fields that no item is left for have their defaults.
    obtain rfl := Option.some.inj h
    exact ⟨rfl, hasShape_default s, fieldsHaveShape_defaults fields⟩
  | (name, s) :: fields, j :: items =>
    obtain ⟨value, hvalue, h⟩ := Option.bind_eq_some_iff.1 h
    obtain ⟨rest, hrest, h⟩ := Option.bind_eq_some_iff.1 h
    obtain rfl := Option.some.inj h
    exact ⟨rfl, hasShape_of_decode s hvalue, fieldsHaveShape_decodeItems fields hrest⟩

end

/-! ## Encoded values -/

/-- Only what is absent is written as `null`. -/
theorem encode_ne_null (hc : c.Lawful) {d : Data V} (h : d ≠ .absent) : encode c d ≠ .null := by
  cases d with
  | absent => exact absurd rfl h
  | custom value => exact hc.write_ne_null value
  | _ => exact nofun

theorem decode_option {s : Shape} {j : Json} (h : j ≠ .null) :
    decode c (.option s) j = decode c s j := by
  cases j with
  | null => exact absurd rfl h
  | _ => rfl

/-- What each element is written as is read again, all along. -/
theorem mapM_map_eq_some {α β : Type} {f : α → Option β} {g : β → α} {bs : List β}
    (h : ∀ b ∈ bs, f (g b) = some b) : (bs.map g).mapM f = some bs := by
  induction bs with
  | nil => rfl
  | cons b bs ih =>
    obtain ⟨hb, hbs⟩ := List.forall_mem_cons.1 h
    rw [List.map_cons, List.mapM_cons, hb, ih hbs]
    rfl

/-- No member is written but under the name of a field. -/
theorem lookup_encodeFields {fields : List (String × Shape)} {values : List (String × Data V)}
    {name : String} (h : FieldsHaveShape fields values) (hname : name ∉ fields.map Prod.fst) :
    (encodeFields c values).lookup name = none := by
  induction values generalizing fields with
  | nil => rfl
  | cons e values ih =>
    obtain ⟨name', value⟩ := e
    match fields with
    | [] => exact h.elim
    | (_, s) :: fields =>
      obtain ⟨rfl, -, h⟩ := h
      rw [List.map_cons, List.mem_cons, not_or] at hname
      by_cases habsent : value = .absent
      · rw [habsent]
        exact ih h hname.2
      · rw [encodeFields_cons habsent, List.lookup_cons, beq_eq_false_iff_ne.2 hname.1]
        exact ih h hname.2

mutual

/-- A value of a shape is decoded as it was encoded. -/
theorem decode_encode (hc : c.Lawful) (s : Shape) (hs : s.distinct) {d : Data V}
    (h : HasShape s d) : decode c s (encode c d) = some d := by
  cases s with
  | string | bool =>
    cases d <;> first | exact h.elim | rfl
  | unsigned bits | signed bits =>
    cases d with
    | int value => exact if_pos h
    | _ => exact h.elim
  | option s =>
    by_cases habsent : d = .absent
    · rw [habsent]
      rfl
    · have h' : HasShape s d := by
        cases d with
        | absent => exact absurd rfl habsent
        | _ => exact h
      rw [decode_option (encode_ne_null hc habsent)]
      exact decode_encode hc s hs h'
  | custom =>
    cases d with
    | custom value => exact congrArg (fun v => some (Data.custom v)) (hc.read_write value)
    | _ => exact h.elim
  | seq s =>
    cases d with
    | seq items =>
      rw [encode, encodeItems_eq_map, decode,
        mapM_map_eq_some fun d hd => decode_encode hc s hs (h d hd), Option.map_some]
    | _ => exact h.elim
  | map s =>
    cases d with
    | map entries =>
      rw [encode, encodeEntries_eq_map, decode, mapM_map_eq_some fun e he => ?_, Option.map_some]
      rw [decode_encode hc s hs (h e he), Option.map_some]
    | _ => exact h.elim
  | struct fields =>
    cases d with
    | struct values =>
      rw [encode, decode, decodeMembers_encodeFields hc fields hs h fun _ _ => rfl,
        Option.map_some]
    | _ => exact h.elim

/-- The fields are decoded from an object in which their names lead to what is written for
    them. -/
theorem decodeMembers_encodeFields (hc : c.Lawful) (fields : List (String × Shape))
    (hs : fieldsDistinct fields) {values : List (String × Data V)} {out : List (String × Json)}
    (h : FieldsHaveShape fields values)
    (hout : ∀ name ∈ fields.map Prod.fst, out.lookup name = (encodeFields c values).lookup name) :
    decodeMembers c fields out = some values := by
  match fields, values with
  | [], [] => rfl
  | [], _ :: _ => exact h.elim
  | _ :: _, [] => exact h.elim
  | (name, s) :: fields, (_, value) :: values =>
    obtain ⟨rfl, hvalue, h⟩ := h
    simp only [fieldsDistinct, Bool.and_eq_true, decide_eq_true_eq] at hs
    obtain ⟨hname, hs, hfields⟩ := hs
    have hrest : decodeMembers c fields out = some values := by
      refine decodeMembers_encodeFields hc fields hfields h fun name' hname' => ?_
      have hne : name' ≠ name := ne_of_mem_of_not_mem hname' hname
      rw [hout name' (List.mem_cons_of_mem _ hname')]
      by_cases habsent : value = .absent
      · rw [habsent]
        rfl
      · rw [encodeFields_cons habsent, List.lookup_cons, beq_eq_false_iff_ne.2 hne]
    have hhead := hout name List.mem_cons_self
    rw [decodeMembers, hrest]
    by_cases habsent : value = .absent
    · -- An absent value is left out, and is the default.
      rw [habsent, encodeFields, lookup_encodeFields h hname] at hhead
      rw [habsent] at hvalue ⊢
      rw [hhead]
      simp only [default_of_hasShape_absent hvalue]
      rfl
    · rw [encodeFields_cons habsent, List.lookup_cons_self] at hhead
      rw [hhead]
      simp only [decode_encode hc s hs hvalue]
      rfl

end

/-- What was decoded once is decoded again as it is. -/
theorem decode_encode_of_decode (hc : c.Lawful) {s : Shape} (hs : s.distinct) {j : Json}
    {d : Data V} (h : decode c s j = some d) : decode c s (encode c d) = some d :=
  decode_encode hc s hs (hasShape_of_decode s h)

end Serde
