import Mathlib.Data.List.Forall2
import Mathlib.Tactic

/-!
# Derived decoders of JSON values

A *shape* describes a type whose decoder and encoder are derived: a struct has named
members, all of them with defaults. Its decoder takes the members it knows from an
object and leaves the others; it also takes them from an array, by position. An
absent optional member is left out by the encoder. A `custom` type brings its own
decoder, which takes whatever there is, and its own encoder (`Custom`).

`Fits` tells what is decoded (`decode_eq_none`). Of what is decoded and encoded again,
`Keeps` says that it was of the shape and that every member known to it is still
there, `null`s apart. That is so unless an array was taken for a struct or a custom
value is not written as it was read (`keeps_encode_iff`, `Exact`).
-/

namespace Serde

/-! ## Values -/

inductive Number
  | int (value : ℤ)
  /-- A number that is no integer of 64 bits, by its text. -/
  | float (text : String)
  deriving DecidableEq, Repr

/-- The members of an object are looked up by name, the first one being found. -/
inductive Json
  | null
  | bool (value : Bool)
  | number (value : Number)
  | string (value : String)
  | array (items : List Json)
  | object (members : List (String × Json))

namespace Json

def asObject : Json → Option (List (String × Json))
  | object members => some members
  | _ => none

def asArray : Json → Option (List Json)
  | array items => some items
  | _ => none

def asStr : Json → Option String
  | string value => some value
  | _ => none

def asU64 : Json → Option UInt64
  | number (.int value) =>
    if 0 ≤ value ∧ value < 2 ^ 64 then some (UInt64.ofNat value.toNat) else none
  | _ => none

def asI64 : Json → Option Int64
  | number (.int value) =>
    if -(2 ^ 63) ≤ value ∧ value < 2 ^ 63 then some (Int64.ofInt value) else none
  | _ => none

end Json

inductive Shape
  | string
  | bool
  | unsigned (bits : ℕ)
  | signed (bits : ℕ)
  | option (shape : Shape)
  | seq (shape : Shape)
  | map (shape : Shape)
  | struct (fields : List (String × Shape))
  | custom

/-- What is decoded, with values `V` of the custom type. -/
inductive Data (V : Type)
  | string (value : String)
  | bool (value : Bool)
  | int (value : ℤ)
  | absent
  | seq (items : List (Data V))
  | map (entries : List (String × Data V))
  | struct (fields : List (String × Data V))
  | custom (value : V)

/-- What a custom type brings: it reads whatever there is. -/
structure Custom (V : Type) where
  read : Json → V
  write : V → Json
  empty : V

variable {V : Type} (c : Custom V)

/-! ## Decoding and encoding -/

mutual

def Shape.default : Shape → Data V
  | .string => .string ""
  | .bool => .bool false
  | .unsigned _ | .signed _ => .int 0
  | .option _ => .absent
  | .seq _ => .seq []
  | .map _ => .map []
  | .struct fields => .struct (defaults fields)
  | .custom => .custom c.empty

def defaults : List (String × Shape) → List (String × Data V)
  | [] => []
  | (name, s) :: fields => (name, s.default) :: defaults fields

end

mutual

def decode : Shape → Json → Option (Data V)
  | .string, .string value => some (.string value)
  | .bool, .bool value => some (.bool value)
  | .unsigned bits, .number (.int value) =>
    if 0 ≤ value ∧ value < 2 ^ bits then some (.int value) else none
  | .signed bits, .number (.int value) =>
    if -2 ^ (bits - 1) ≤ value ∧ value < 2 ^ (bits - 1) then some (.int value) else none
  | .option _, .null => some .absent
  | .option s, j => decode s j
  | .seq s, .array items => (items.mapM (decode s)).map .seq
  | .map s, .object members =>
    (members.mapM fun e => (decode s e.2).map fun value => (e.1, value)).map .map
  | .struct fields, .object members => (decodeMembers fields members).map .struct
  | .struct fields, .array items => (decodeItems fields items).map .struct
  | .custom, j => some (.custom (c.read j))
  | _, _ => none

/-- The fields of a struct from the members of an object. -/
def decodeMembers : List (String × Shape) → List (String × Json) → Option (List (String × Data V))
  | [], _ => some []
  | (name, s) :: fields, members => do
    let value ← match members.lookup name with
      | some j => decode s j
      | none => some (s.default c)
    let values ← decodeMembers fields members
    some ((name, value) :: values)

/-- The fields of a struct from the items of an array, of which none may be left. -/
def decodeItems : List (String × Shape) → List Json → Option (List (String × Data V))
  | [], [] => some []
  | [], _ :: _ => none
  | (name, s) :: fields, [] => some ((name, s.default c) :: defaults c fields)
  | (name, s) :: fields, j :: items => do
    let value ← decode s j
    let values ← decodeItems fields items
    some ((name, value) :: values)

end

mutual

def encode : Data V → Json
  | .string value => .string value
  | .bool value => .bool value
  | .int value => .number (.int value)
  | .absent => .null
  | .seq items => .array (encodeItems items)
  | .map entries => .object (encodeEntries entries)
  | .struct fields => .object (encodeFields fields)
  | .custom value => c.write value

def encodeItems : List (Data V) → List Json
  | [] => []
  | item :: items => encode item :: encodeItems items

def encodeEntries : List (String × Data V) → List (String × Json)
  | [] => []
  | (name, value) :: entries => (name, encode value) :: encodeEntries entries

/-- The fields that are not absent. -/
def encodeFields : List (String × Data V) → List (String × Json)
  | [] => []
  | (_, .absent) :: fields => encodeFields fields
  | (name, value) :: fields => (name, encode value) :: encodeFields fields

end

/-! ## What is decoded -/

mutual

/-- The decoder of the shape takes the value. -/
def Fits : Shape → Json → Prop
  | .string, .string _ => True
  | .bool, .bool _ => True
  | .unsigned bits, .number (.int value) => 0 ≤ value ∧ value < 2 ^ bits
  | .signed bits, .number (.int value) => -2 ^ (bits - 1) ≤ value ∧ value < 2 ^ (bits - 1)
  | .option _, .null => True
  | .option s, j => Fits s j
  | .seq s, .array items => ∀ j ∈ items, Fits s j
  | .map s, .object members => ∀ e ∈ members, Fits s e.2
  | .struct fields, .object members => MembersFit fields members
  | .struct fields, .array items => ItemsFit fields items
  | .custom, _ => True
  | _, _ => False

/-- The members that are there fit; missing ones have defaults. -/
def MembersFit : List (String × Shape) → List (String × Json) → Prop
  | [], _ => True
  | (name, s) :: fields, members =>
    (∀ j, members.lookup name = some j → Fits s j) ∧ MembersFit fields members

/-- The items fit the fields in order, and there are no more of them than fields. -/
def ItemsFit : List (String × Shape) → List Json → Prop
  | [], [] => True
  | [], _ :: _ => False
  | _ :: _, [] => True
  | (_, s) :: fields, j :: items => Fits s j ∧ ItemsFit fields items

end

/-! ## What is kept -/

mutual

/-- The first value is of the shape, and the second one carries all of it that is
    known to the shape. -/
def Keeps : Shape → Json → Json → Prop
  | .string, .string value, j => j = .string value
  | .bool, .bool value, j => j = .bool value
  | .unsigned _, .number value, j | .signed _, .number value, j => j = .number value
  | .option s, j, j' => j = .null ∨ Keeps s j j'
  | .seq s, .array items, .array items' => List.Forall₂ (Keeps s) items items'
  | .map s, .object members, .object members' =>
    List.Forall₂ (fun e e' => e.1 = e'.1 ∧ Keeps s e.2 e'.2) members members'
  | .struct fields, .object members, .object members' => MembersKept fields members members'
  | .custom, j, j' => j = j'
  | _, _, _ => False

/-- Every known member that is not `null` is kept. -/
def MembersKept : List (String × Shape) → List (String × Json) → List (String × Json) → Prop
  | [], _, _ => True
  | (name, s) :: fields, members, members' =>
    (∀ j, members.lookup name = some j → j ≠ .null →
      ∃ j', members'.lookup name = some j' ∧ Keeps s j j') ∧ MembersKept fields members members'

end

section

variable (P : Json → Prop)

mutual

/-- No array stands for a struct, and custom values are such that `P`. -/
def Exact : Shape → Json → Prop
  | .option s, j => j = .null ∨ Exact s j
  | .seq s, .array items => ∀ j ∈ items, Exact s j
  | .map s, .object members => ∀ e ∈ members, Exact s e.2
  | .struct fields, .object members => MembersExact fields members
  | .struct _, .array _ => False
  | .custom, j => P j
  | _, _ => True

def MembersExact : List (String × Shape) → List (String × Json) → Prop
  | [], _ => True
  | (name, s) :: fields, members =>
    (∀ j, members.lookup name = some j → j ≠ .null → Exact s j) ∧ MembersExact fields members

end

end

mutual

/-- No two fields of a struct have one name. -/
def Shape.distinct : Shape → Bool
  | .option s | .seq s | .map s => s.distinct
  | .struct fields => fieldsDistinct fields
  | _ => true

def fieldsDistinct : List (String × Shape) → Bool
  | [] => true
  | (name, s) :: fields => name ∉ fields.map Prod.fst && (s.distinct && fieldsDistinct fields)

end

variable {c}

/-! ## Which values are decoded -/

theorem isSome_mapM {α β : Type} {f : α → Option β} {as : List α} :
    (as.mapM f).isSome ↔ ∀ a ∈ as, (f a).isSome := by
  induction as with
  | nil => simp
  | cons a as ih =>
    rw [List.mapM_cons, List.forall_mem_cons, ← ih]
    cases f a with
    | none => simp
    | some b => cases as.mapM f <;> simp

mutual

/-- What fits is decoded, by the structure of the shape. -/
theorem isSome_decode (s : Shape) (j : Json) : (decode c s j).isSome ↔ Fits s j := by
  cases s with
  | string | bool | custom => cases j <;> simp [decode, Fits]
  | unsigned bits | signed bits =>
    cases j with
    | number value =>
      cases value with
      | int value =>
        simp only [decode, Fits]
        split
        next h => exact iff_of_true rfl h
        next h => exact iff_of_false nofun h
      | float text => simp [decode, Fits]
    | _ => simp [decode, Fits]
  | option s =>
    cases j with
    | null => simp [decode, Fits]
    | _ => exact isSome_decode s _
  | seq s =>
    cases j with
    | array items =>
      rw [decode, Fits, Option.isSome_map, isSome_mapM]
      exact forall₂_congr fun j _ => isSome_decode s j
    | _ => simp [decode, Fits]
  | map s =>
    cases j with
    | object members =>
      rw [decode, Fits, Option.isSome_map, isSome_mapM]
      refine forall₂_congr fun e _ => ?_
      rw [Option.isSome_map]
      exact isSome_decode s e.2
    | _ => simp [decode, Fits]
  | struct fields =>
    cases j with
    | object members =>
      rw [decode, Fits, Option.isSome_map]
      exact isSome_decodeMembers fields members
    | array items =>
      rw [decode, Fits, Option.isSome_map]
      exact isSome_decodeItems fields items
    | _ => simp [decode, Fits]

theorem isSome_decodeMembers (fields : List (String × Shape)) (members : List (String × Json)) :
    (decodeMembers c fields members).isSome ↔ MembersFit fields members := by
  match fields with
  | [] => simp [decodeMembers, MembersFit]
  | (name, s) :: fields =>
    rw [decodeMembers, MembersFit, ← isSome_decodeMembers fields members]
    match members.lookup name with
    | none => cases decodeMembers c fields members <;> simp
    | some j =>
      have hj := isSome_decode s j
      simp only [Option.some.injEq, forall_eq']
      rw [← hj]
      cases decode c s j with
      | none => simp
      | some value => cases decodeMembers c fields members <;> simp

theorem isSome_decodeItems (fields : List (String × Shape)) (items : List Json) :
    (decodeItems c fields items).isSome ↔ ItemsFit fields items := by
  match fields, items with
  | [], [] => simp [decodeItems, ItemsFit]
  | [], _ :: _ => simp [decodeItems, ItemsFit]
  | (name, s) :: fields, [] => simp [decodeItems, ItemsFit]
  | (name, s) :: fields, j :: items =>
    rw [decodeItems, ItemsFit, ← isSome_decode s j, ← isSome_decodeItems fields items]
    cases decode c s j with
    | none => simp
    | some value => cases decodeItems c fields items <;> simp

end

/-- Only what does not fit is refused. -/
theorem decode_eq_none {s : Shape} {j : Json} : decode c s j = none ↔ ¬Fits s j := by
  rw [← isSome_decode (c := c), Bool.not_eq_true, Option.isSome_eq_false_iff,
    Option.isNone_iff_eq_none]

/-! ## What is kept of a value -/

/-- Only a `null` is decoded as absent. -/
theorem eq_null_of_decode (s : Shape) {j : Json} (h : decode c s j = some .absent) :
    j = .null := by
  cases s with
  | option s =>
    cases j with
    | null => rfl
    | _ => exact eq_null_of_decode s h
  | string | bool | custom => cases j <;> simp [decode] at h
  | unsigned bits | signed bits =>
    cases j with
    | number value => cases value <;> simp [decode] at h
    | _ => simp [decode] at h
  | seq s | map s | struct fields => cases j <;> simp [decode] at h

theorem encodeFields_cons {name : String} {value : Data V} {fields : List (String × Data V)}
    (h : value ≠ .absent) :
    encodeFields c ((name, value) :: fields) = (name, encode c value) :: encodeFields c fields := by
  rw [encodeFields]
  exact h

/-- The first field is decoded from its member or has its default. -/
theorem decodeMembers_cons {name : String} {s : Shape} {fields : List (String × Shape)}
    {members : List (String × Json)} {values : List (String × Data V)}
    (h : decodeMembers c ((name, s) :: fields) members = some values) :
    ∃ value rest, ((members.lookup name).elim (some (s.default c)) (decode c s)) = some value ∧
      decodeMembers c fields members = some rest ∧ values = (name, value) :: rest := by
  rw [decodeMembers] at h
  cases hlookup : members.lookup name with
  | none | some j =>
    rw [hlookup] at h
    obtain ⟨value, hvalue, h⟩ := Option.bind_eq_some_iff.1 h
    obtain ⟨rest, hrest, h⟩ := Option.bind_eq_some_iff.1 h
    exact ⟨value, rest, hvalue, hrest, (Option.some.inj h).symm⟩

theorem forall₂_of_mapM {α β : Type} {f : α → Option β} {as : List α} {bs : List β}
    (h : as.mapM f = some bs) : List.Forall₂ (fun a b => f a = some b) as bs := by
  induction as generalizing bs with
  | nil =>
    obtain rfl := Option.some.inj h
    exact .nil
  | cons a as ih =>
    rw [List.mapM_cons, Option.bind_eq_bind, Option.bind_eq_some_iff] at h
    obtain ⟨b, hb, h⟩ := h
    obtain ⟨bs', hbs, h⟩ := Option.bind_eq_some_iff.1 h
    obtain rfl := Option.some.inj h
    exact .cons hb (ih hbs)

/-- Of two lists related by `R`, a property of the pairs may be one of the first parts. -/
theorem forall₂_iff_forall {α β : Type} {R P : α → β → Prop} {Q : α → Prop} {as : List α}
    {bs : List β} (h : List.Forall₂ R as bs) (hiff : ∀ a b, R a b → (P a b ↔ Q a)) :
    List.Forall₂ P as bs ↔ ∀ a ∈ as, Q a := by
  induction h with
  | nil => simp
  | cons hab _ ih => rw [List.forall₂_cons, List.forall_mem_cons, hiff _ _ hab, ih]

theorem encodeItems_eq_map (items : List (Data V)) :
    encodeItems c items = items.map (encode c) := by
  induction items with
  | nil => rfl
  | cons item items ih => rw [encodeItems, ih, List.map_cons]

theorem encodeEntries_eq_map (entries : List (String × Data V)) :
    encodeEntries c entries = entries.map fun e => (e.1, encode c e.2) := by
  induction entries with
  | nil => rfl
  | cons e entries ih => rw [encodeEntries, ih, List.map_cons]

variable {P : Json → Prop}

mutual

/-- What is decoded and encoded again is kept iff it is exact, custom values being such
    that `P` if they are written as they are read. -/
theorem keeps_encode_iff (hP : ∀ j, c.write (c.read j) = j ↔ P j) (s : Shape) (hs : s.distinct)
    {j : Json} {d : Data V} (h : decode c s j = some d) : Keeps s j (encode c d) ↔ Exact P s j := by
  cases s with
  | string =>
    cases j with
    | string value =>
      obtain rfl := Option.some.inj h
      simp [Keeps, Exact, encode]
    | _ => simp [decode] at h
  | bool =>
    cases j with
    | bool value =>
      obtain rfl := Option.some.inj h
      simp [Keeps, Exact, encode]
    | _ => simp [decode] at h
  | unsigned bits | signed bits =>
    cases j with
    | number value =>
      cases value with
      | int value =>
        simp only [decode, Option.ite_none_right_eq_some, Option.some.injEq] at h
        obtain ⟨-, rfl⟩ := h
        simp [Keeps, Exact, encode]
      | float text => simp [decode] at h
    | _ => simp [decode] at h
  | option s =>
    rw [Keeps, Exact]
    cases j with
    | null => simp
    | _ => exact or_congr_right (keeps_encode_iff hP s hs h)
  | custom =>
    obtain rfl := Option.some.inj h
    rw [Keeps, Exact, encode, ← hP, eq_comm]
  | seq s =>
    cases j with
    | array items =>
      rw [decode, Option.map_eq_some_iff] at h
      obtain ⟨values, hvalues, rfl⟩ := h
      rw [encode, encodeItems_eq_map, Keeps, Exact, List.forall₂_map_right_iff]
      exact forall₂_iff_forall (forall₂_of_mapM hvalues) fun j value hvalue =>
        keeps_encode_iff hP s hs hvalue
    | _ => simp [decode] at h
  | map s =>
    cases j with
    | object members =>
      rw [decode, Option.map_eq_some_iff] at h
      obtain ⟨values, hvalues, rfl⟩ := h
      rw [encode, encodeEntries_eq_map, Keeps, Exact, List.forall₂_map_right_iff]
      refine forall₂_iff_forall (forall₂_of_mapM hvalues) fun e entry hentry => ?_
      obtain ⟨value, hvalue, rfl⟩ := Option.map_eq_some_iff.1 hentry
      exact (and_iff_right rfl).trans (keeps_encode_iff hP s hs hvalue)
    | _ => simp [decode] at h
  | struct fields =>
    cases j with
    | object members =>
      rw [decode, Option.map_eq_some_iff] at h
      obtain ⟨values, hvalues, rfl⟩ := h
      exact membersKept_iff hP fields hs hvalues fun name _ => rfl
    | array items =>
      rw [decode, Option.map_eq_some_iff] at h
      obtain ⟨values, hvalues, rfl⟩ := h
      -- An array has no named members to keep.
      simp [Keeps, Exact]
    | _ => simp [decode] at h

/-- The members are kept by an object in which the names of the fields lead to what is
    written for them. -/
theorem membersKept_iff (hP : ∀ j, c.write (c.read j) = j ↔ P j)
    (fields : List (String × Shape)) (hs : fieldsDistinct fields)
    {members out : List (String × Json)} {values : List (String × Data V)}
    (h : decodeMembers c fields members = some values)
    (hout : ∀ name ∈ fields.map Prod.fst, out.lookup name = (encodeFields c values).lookup name) :
    MembersKept fields members out ↔ MembersExact P fields members := by
  match fields with
  | [] => exact Iff.rfl
  | (name, s) :: fields =>
    simp only [fieldsDistinct, Bool.and_eq_true, decide_eq_true_eq] at hs
    obtain ⟨hname, hs, hfields⟩ := hs
    obtain ⟨value, rest, hvalue, hrest, rfl⟩ := decodeMembers_cons h
    rw [MembersKept, MembersExact]
    refine and_congr ?_ (membersKept_iff hP fields hfields hrest fun name' hname' => ?_)
    · refine forall₃_congr fun j hj hnull => ?_
      rw [hj] at hvalue
      -- A value that is there is written, as only `null`s are absent.
      have habsent : value ≠ .absent := by
        rintro rfl
        exact hnull (eq_null_of_decode s hvalue)
      rw [hout name List.mem_cons_self, encodeFields_cons habsent, List.lookup_cons_self]
      simp only [Option.some.injEq, exists_eq_left']
      exact keeps_encode_iff hP s hs hvalue
    · rw [hout name' (List.mem_cons_of_mem _ hname')]
      have hne : name' ≠ name := ne_of_mem_of_not_mem hname' hname
      by_cases habsent : value = .absent
      · rw [habsent]
        rfl
      · rw [encodeFields_cons habsent, List.lookup_cons, beq_eq_false_iff_ne.2 hne]

end

end Serde
