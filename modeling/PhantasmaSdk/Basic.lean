import Mathlib.Tactic
import PhantasmaSdk.Codec.LittleEndian

/-!
# Errors, machine integers and text

What every part of the SDK rests on: its error type, and the values of the
source's own types. A computation of the source that is not pure ends in one of
three ways, told apart by `Result`: with a value, with an error it returns
(`Fault.error`), or in a panic (`Fault.panic`). Arithmetic that leaves its type
panics, as it does wherever overflow checks are on; what the source saturates,
wraps or checks itself is written out as such.

Text is `String`, whose UTF-8 bytes (`utf8`) are what is written and compared.
-/

namespace PhantasmaSdk

/-! ## Errors -/

/-- The error type of the SDK. -/
inductive PhantasmaError
  | encoding (message : String)
  | serialization (message : String)
  | crypto (message : String)
  | builder (message : String)
  | rpc (code : Option Int64) (message : String)
  | http (message : String)
  | json (message : String)
  | preflight (message : String)
  deriving DecidableEq, Repr

/-- The text of an error. -/
def PhantasmaError.toText : PhantasmaError → String
  | .encoding message => s!"encoding error: {message}"
  | .serialization message => s!"serialization error: {message}"
  | .crypto message => s!"crypto error: {message}"
  | .builder message => s!"builder error: {message}"
  | .rpc _ message => s!"rpc error: {message}"
  | .http message => s!"http error: {message}"
  | .json message => s!"json error: {message}"
  | .preflight message => s!"pre-flight refused the transaction: {message}"

/-- What a computation can panic of. -/
inductive Panic
  /-- An arithmetic result outside its type. -/
  | overflow
  /-- A value taken to be there, or to fit, that does not. -/
  | expect (message : String)
  /-- More nested calls than the stack holds. -/
  | stackOverflow
  deriving DecidableEq, Repr

/-- How a computation fails: with an error it returns, or in a panic. -/
inductive Fault
  | error (e : PhantasmaError)
  | panic (p : Panic)
  deriving DecidableEq, Repr

/-- The computation panicked. -/
def Fault.IsPanic : Fault → Prop
  | .error _ => False
  | .panic _ => True

instance : DecidablePred Fault.IsPanic
  | .error _ => inferInstanceAs (Decidable False)
  | .panic _ => inferInstanceAs (Decidable True)

@[simp] theorem Fault.not_isPanic_error (e : PhantasmaError) : ¬(Fault.error e).IsPanic := id

@[simp] theorem Fault.isPanic_panic (p : Panic) : (Fault.panic p).IsPanic := trivial

/-- The results of the SDK's computations. -/
abbrev Result (α : Type) := Except Fault α

variable {α β : Type}

def serialization (message : String) : Result α := .error (.error (.serialization message))

def crypto (message : String) : Result α := .error (.error (.crypto message))

def builder (message : String) : Result α := .error (.error (.builder message))

def rpc (code : Option Int64) (message : String) : Result α := .error (.error (.rpc code message))

def overflow : Result α := .error (.panic .overflow)

/-- A sequence gives a value iff its first part gives one, from which the second
    gives it. -/
theorem bind_eq_ok {x : Result α} {f : α → Result β} {b : β} :
    (x >>= f) = .ok b ↔ ∃ a, x = .ok a ∧ f a = .ok b := by
  cases x with
  | error e =>
    constructor
    · intro h; cases h
    · rintro ⟨a, h, _⟩; cases h
  | ok a =>
    constructor
    · exact fun h => ⟨a, rfl, h⟩
    · rintro ⟨_, h, hf⟩
      obtain rfl := Except.ok.inj h
      exact hf

theorem pure_eq_ok (a : α) : (pure a : Result α) = .ok a := rfl

@[simp] theorem ok_bind (a : α) (f : α → Result β) : ((.ok a : Result α) >>= f) = f a := rfl

@[simp] theorem error_bind (e : Fault) (f : α → Result β) :
    ((.error e : Result α) >>= f) = .error e := rfl

/-- The computation returns, a value or an error. -/
def NoPanic (x : Result α) : Prop := ∀ e, x = .error e → ¬e.IsPanic

theorem noPanic_ok (a : α) : NoPanic (.ok a : Result α) := nofun

@[simp] theorem noPanic_error_iff {e : Fault} : NoPanic (.error e : Result α) ↔ ¬e.IsPanic :=
  ⟨fun h => h e rfl, fun h _ he => Except.error.inj he ▸ h⟩

theorem noPanic_crypto (message : String) : NoPanic (crypto message : Result α) :=
  noPanic_error_iff.2 (Fault.not_isPanic_error _)

theorem noPanic_builder (message : String) : NoPanic (builder message : Result α) :=
  noPanic_error_iff.2 (Fault.not_isPanic_error _)

theorem noPanic_serialization (message : String) : NoPanic (serialization message : Result α) :=
  noPanic_error_iff.2 (Fault.not_isPanic_error _)

/-- A sequence panics in its first part, or in the second on what the first gives. -/
theorem noPanic_bind_iff {x : Result α} {f : α → Result β} :
    NoPanic (x >>= f) ↔ NoPanic x ∧ ∀ a, x = .ok a → NoPanic (f a) := by
  cases x with
  | error e =>
    rw [error_bind, noPanic_error_iff, noPanic_error_iff]
    exact ⟨fun h => ⟨h, nofun⟩, fun h => h.1⟩
  | ok a => exact ⟨fun h => ⟨noPanic_ok a, fun _ hb => Except.ok.inj hb ▸ h⟩, fun h => h.2 a rfl⟩

theorem NoPanic.bind {x : Result α} {f : α → Result β} (hx : NoPanic x)
    (hf : ∀ a, NoPanic (f a)) : NoPanic (x >>= f) :=
  noPanic_bind_iff.2 ⟨hx, fun a _ => hf a⟩

theorem NoPanic.mapM {f : α → Result β} {as : List α} (h : ∀ a ∈ as, NoPanic (f a)) :
    NoPanic (as.mapM f) := by
  induction as with
  | nil => exact noPanic_ok _
  | cons a as ih =>
    rw [List.mapM_cons]
    exact (h a List.mem_cons_self).bind fun b =>
      (ih fun a ha => h a (List.mem_cons_of_mem _ ha)).bind fun bs => noPanic_ok _

/-- Where only a panic stops an element, the list panics iff an element does. -/
theorem noPanic_mapM_iff {f : α → Result β} {as : List α}
    (h : ∀ a ∈ as, ∀ e, f a = .error e → e.IsPanic) :
    NoPanic (as.mapM f) ↔ ∀ a ∈ as, NoPanic (f a) := by
  refine ⟨fun hn => ?_, NoPanic.mapM⟩
  induction as with
  | nil => exact nofun
  | cons a as ih =>
    rw [List.mapM_cons, noPanic_bind_iff] at hn
    obtain ⟨hhead, hn⟩ := hn
    match hb : f a with
    | .error e => exact absurd (h a List.mem_cons_self e hb) (hhead e hb)
    | .ok b =>
      have htail := ih (fun a ha => h a (List.mem_cons_of_mem _ ha)) (noPanic_bind_iff.1 (hn b hb)).1
      exact List.forall_mem_cons.2 ⟨hhead, htail⟩

/-- A value to be computed. -/
theorem exists_ok_of_isSome {x : Result α} (h : x.toOption.isSome) : ∃ a, x = .ok a := by
  cases x with
  | error e => cases h
  | ok a => exact ⟨a, rfl⟩

theorem exists_ok_of_map {x : Result α} {f : α → β} {b : β} (h : x.toOption.map f = some b) :
    ∃ a, x = .ok a ∧ f a = b := by
  cases x with
  | error e => cases h
  | ok a => exact ⟨a, rfl, Option.some.inj h⟩

/-- `mapM` gives a list iff it gives each of its elements. -/
theorem mapM_eq_ok {f : α → Result β} {as : List α} {bs : List β} :
    as.mapM f = .ok bs ↔ List.Forall₂ (fun a b => f a = .ok b) as bs := by
  induction as generalizing bs with
  | nil =>
    rw [List.mapM_nil, List.forall₂_nil_left_iff]
    exact ⟨fun h => (Except.ok.inj h).symm, fun h => h ▸ rfl⟩
  | cons a as ih =>
    rw [List.mapM_cons, bind_eq_ok, List.forall₂_cons_left_iff]
    constructor
    · rintro ⟨b, hb, h⟩
      obtain ⟨cs, hcs, h⟩ := bind_eq_ok.1 h
      exact ⟨b, cs, hb, ih.1 hcs, (Except.ok.inj h).symm⟩
    · rintro ⟨b, cs, hb, hcs, rfl⟩
      exact ⟨b, hb, bind_eq_ok.2 ⟨cs, ih.2 hcs, rfl⟩⟩

/-- Two lists related all along are so by whatever the relation implies on the
    elements of the first. -/
theorem forall₂_imp_mem {R S : α → β → Prop} {as : List α} {bs : List β}
    (h : List.Forall₂ R as bs) (H : ∀ a ∈ as, ∀ b, R a b → S a b) : List.Forall₂ S as bs := by
  induction h with
  | nil => exact .nil
  | cons hab _ ih =>
    exact .cons (H _ List.mem_cons_self _ hab) (ih fun a ha => H a (List.mem_cons_of_mem _ ha))

/-- An element of a list related all along to another is related to one of it. -/
theorem exists_of_forall₂_mem {R : α → β → Prop} {as : List α} {bs : List β}
    (h : List.Forall₂ R as bs) {a : α} (ha : a ∈ as) : ∃ b, b ∈ bs ∧ R a b := by
  induction h with
  | nil => cases ha
  | cons hab _ ih =>
    rcases List.mem_cons.1 ha with rfl | ha
    · exact ⟨_, List.mem_cons_self, hab⟩
    · obtain ⟨b, hb, hR⟩ := ih ha
      exact ⟨b, List.mem_cons_of_mem _ hb, hR⟩

/-- Two lists related all along to the same one, so that elements related to the
    same one are equal, are equal. -/
theorem eq_of_forall₂ {R S : α → β → Prop} {as : List α} {bs cs : List β}
    (h : List.Forall₂ R as bs) (h' : List.Forall₂ S as cs)
    (H : ∀ a ∈ as, ∀ b c, R a b → S a c → b = c) : bs = cs := by
  induction h generalizing cs with
  | nil => exact (List.forall₂_nil_left_iff.1 h').symm
  | cons hab _ ih =>
    obtain ⟨c, cs, hac, hcs, rfl⟩ := List.forall₂_cons_left_iff.1 h'
    rw [H _ List.mem_cons_self _ _ hab hac,
      ih hcs fun a ha => H a (List.mem_cons_of_mem _ ha)]

/-- What `f` gives on an element of a list it gives a value on, all along. -/
theorem forall₂_of_isOk {f : α → Result β} {as : List α} (h : ∀ a ∈ as, ∃ b, f a = .ok b) :
    ∃ bs, List.Forall₂ (fun a b => f a = .ok b) as bs := by
  induction as with
  | nil => exact ⟨[], .nil⟩
  | cons a as ih =>
    obtain ⟨b, hb⟩ := h a List.mem_cons_self
    obtain ⟨bs, hbs⟩ := ih fun a' ha' => h a' (List.mem_cons_of_mem _ ha')
    exact ⟨b :: bs, .cons hb hbs⟩

/-! ## Bytes and text -/

abbrev Bytes := List UInt8

/-- A byte string of a fixed size. -/
structure FixedBytes (size : ℕ) where
  bytes : Bytes
  length_eq : bytes.length = size
  deriving DecidableEq

namespace FixedBytes

variable {size : ℕ}

instance : Repr (FixedBytes size) := ⟨fun b prec => reprPrec b.bytes prec⟩

@[ext] theorem ext {a b : FixedBytes size} (h : a.bytes = b.bytes) : a = b := by
  cases a; cases b; cases h; rfl

/-- The byte string of zeros. -/
def zero (size : ℕ) : FixedBytes size := ⟨List.replicate size 0, List.length_replicate⟩

end FixedBytes

abbrev Bytes16 := FixedBytes 16
abbrev Bytes32 := FixedBytes 32
abbrev Bytes64 := FixedBytes 64

def emptyBytes16 : Bytes16 := .zero 16
def emptyBytes32 : Bytes32 := .zero 32
def emptyBytes64 : Bytes64 := .zero 64

/-- The UTF-8 bytes of a text. -/
def utf8 (s : String) : Bytes := s.toByteArray.data.toList

/-- The text whose UTF-8 bytes are given. -/
def fromUtf8 (raw : Bytes) : Option String := String.fromUTF8? ⟨raw.toArray⟩

theorem utf8_injective : Function.Injective utf8 := by
  rintro ⟨⟨⟨a⟩⟩, _⟩ ⟨⟨⟨b⟩⟩, _⟩ h
  obtain rfl : a = b := h
  rfl

@[simp] theorem fromUtf8_utf8 (s : String) : fromUtf8 (utf8 s) = some s := by
  obtain ⟨⟨⟨a⟩⟩, h⟩ := s
  exact dif_pos h

theorem utf8_of_fromUtf8 {raw : Bytes} {s : String} (h : fromUtf8 raw = some s) :
    utf8 s = raw := by
  unfold fromUtf8 String.fromUTF8? at h
  split at h
  · obtain rfl := Option.some.inj h
    rfl
  · cases h

/-- Bytes in lowercase hexadecimal digits. -/
def hexEncode (raw : Bytes) : String :=
  String.ofList (raw.flatMap fun b => [Nat.digitChar (b.toNat / 16), Nat.digitChar (b.toNat % 16)])

end PhantasmaSdk
