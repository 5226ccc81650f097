import Mathlib.Data.List.Basic
import Mathlib.Tactic

/-!
# Dialogues

A *dialogue* is a computation that asks others: it is done, or it asks a question
and goes on with what is answered. Nothing is said of who answers, and an answer
need not be the one given to the same question before. What has been asked and
answered so far is a *log*: a dialogue ends after a log (`Ends`) or asks something
next (`Asks`); a sequence goes by its first part (`asks_bind`, `ends_bind`).

A dialogue that may fail is sequenced like its results: a failure ends it.
-/

namespace Machine

/-- A computation that asks questions in `Q`, a question `q` being answered in `A q`. -/
inductive Dialogue (Q : Type) (A : Q → Type) (α : Type)
  | done (a : α)
  | ask (q : Q) (next : A q → Dialogue Q A α)

namespace Dialogue

variable {Q : Type} {A : Q → Type} {ε α β : Type}

/-- The questions asked, each with its answer. -/
abbrev Log (A : Q → Type) := List (Σ q, A q)

def bind : Dialogue Q A α → (α → Dialogue Q A β) → Dialogue Q A β
  | done a, f => f a
  | ask q next, f => ask q fun x => (next x).bind f

/-- The value the dialogue gives if all questions are answered by `answer`. -/
def run (answer : ∀ q, A q) : Dialogue Q A α → α
  | done a => a
  | ask q next => (next (answer q)).run answer

/-- What is asked and answered, and the value the dialogue gives, if the questions are
    answered in turn. -/
def converse (answer : ℕ → ∀ q, A q) : Dialogue Q A α → Log A × α
  | done a => ([], a)
  | ask q next =>
    let rest := (next (answer 0 q)).converse fun n => answer (n + 1)
    (⟨q, answer 0 q⟩ :: rest.1, rest.2)

/-- The log is one the dialogue ends after, with the given value. -/
def Ends : Dialogue Q A α → Log A → α → Prop
  | done b, log, a => log = [] ∧ b = a
  | ask _ _, [], _ => False
  | ask q next, e :: log, a => ∃ x, e = ⟨q, x⟩ ∧ (next x).Ends log a

/-- After the log, the dialogue asks the given question. -/
def Asks : Dialogue Q A α → Log A → Q → Prop
  | done _, _, _ => False
  | ask q _, [], r => q = r
  | ask q next, e :: log, r => ∃ x, e = ⟨q, x⟩ ∧ (next x).Asks log r

variable {d : Dialogue Q A α} {f : α → Dialogue Q A β} {log : Log A} {a : α} {r : Q}

@[simp] theorem bind_done : (done a : Dialogue Q A α).bind f = f a := rfl

/-- The answers in the log are those given in turn. -/
theorem eq_of_getElem?_converse {answer : ℕ → ∀ q, A q} {i : ℕ} {e : Σ q, A q}
    (h : (d.converse answer).1[i]? = some e) : e.2 = answer i e.1 := by
  induction d generalizing answer i with
  | done a => cases h
  | ask q next ih =>
    cases i with
    | zero =>
      obtain rfl := Option.some.inj h
      rfl
    | succ i => exact @ih (answer 0 q) (fun n => answer (n + 1)) i h

theorem run_bind (answer : ∀ q, A q) : (d.bind f).run answer = (f (d.run answer)).run answer := by
  induction d with
  | done a => rfl
  | ask q next ih => exact ih _

@[simp] theorem ends_done {b : α} : (done b : Dialogue Q A α).Ends log a ↔ log = [] ∧ b = a := by
  cases log <;> exact Iff.rfl

@[simp] theorem asks_done : ¬(done a : Dialogue Q A α).Asks log r := by
  cases log <;> exact id

/-- What a sequence asks, its first part asks, or its second part does, once the
    first has ended. -/
theorem asks_bind : (d.bind f).Asks log r ↔
    d.Asks log r ∨ ∃ a l₁ l₂, log = l₁ ++ l₂ ∧ d.Ends l₁ a ∧ (f a).Asks l₂ r := by
  induction d generalizing log with
  | done a =>
    constructor
    · exact fun h => .inr ⟨a, [], log, rfl, ⟨rfl, rfl⟩, h⟩
    · rintro (h | ⟨b, l₁, l₂, rfl, h, hf⟩)
      · exact absurd h asks_done
      · obtain ⟨rfl, rfl⟩ := ends_done.1 h
        exact hf
  | ask q next ih =>
    cases log with
    | nil =>
      constructor
      · exact fun h => .inl h
      · rintro (h | ⟨b, l₁, l₂, hl, h, hf⟩)
        · exact h
        · obtain ⟨rfl, rfl⟩ := List.append_eq_nil_iff.1 hl.symm
          exact h.elim
    | cons e log =>
      constructor
      · rintro ⟨x, rfl, h⟩
        rcases (ih x).1 h with h | ⟨a, l₁, l₂, rfl, h, hf⟩
        · exact .inl ⟨x, rfl, h⟩
        · exact .inr ⟨a, ⟨q, x⟩ :: l₁, l₂, rfl, ⟨x, rfl, h⟩, hf⟩
      · rintro (⟨x, rfl, h⟩ | ⟨a, l₁, l₂, hl, h, hf⟩)
        · exact ⟨x, rfl, (ih x).2 (.inl h)⟩
        · cases l₁ with
          | nil => exact h.elim
          | cons e' l₁ =>
            obtain ⟨rfl, rfl⟩ := List.cons.inj hl
            obtain ⟨x, rfl, h⟩ := h
            exact ⟨x, rfl, (ih x).2 (.inr ⟨a, l₁, l₂, rfl, h, hf⟩)⟩

/-- A sequence ends when its second part does, once the first has ended. -/
theorem ends_bind {b : β} : (d.bind f).Ends log b ↔
    ∃ a l₁ l₂, log = l₁ ++ l₂ ∧ d.Ends l₁ a ∧ (f a).Ends l₂ b := by
  induction d generalizing log with
  | done a =>
    constructor
    · exact fun h => ⟨a, [], log, rfl, ⟨rfl, rfl⟩, h⟩
    · rintro ⟨c, l₁, l₂, rfl, h, hf⟩
      obtain ⟨rfl, rfl⟩ := ends_done.1 h
      exact hf
  | ask q next ih =>
    cases log with
    | nil =>
      refine ⟨fun h => h.elim, ?_⟩
      rintro ⟨c, l₁, l₂, hl, h, hf⟩
      obtain ⟨rfl, rfl⟩ := List.append_eq_nil_iff.1 hl.symm
      exact h.elim
    | cons e log =>
      constructor
      · rintro ⟨x, rfl, h⟩
        obtain ⟨a, l₁, l₂, rfl, h, hf⟩ := (ih x).1 h
        exact ⟨a, ⟨q, x⟩ :: l₁, l₂, rfl, ⟨x, rfl, h⟩, hf⟩
      · rintro ⟨a, l₁, l₂, hl, h, hf⟩
        cases l₁ with
        | nil => exact h.elim
        | cons e' l₁ =>
          obtain ⟨rfl, rfl⟩ := List.cons.inj hl
          obtain ⟨x, rfl, h⟩ := h
          exact ⟨x, rfl, (ih x).2 ⟨a, l₁, l₂, rfl, h, hf⟩⟩

/-! ## What a dialogue may ask -/

/-- Whatever the dialogue asks has the property. -/
def Only (P : Q → Prop) : Dialogue Q A α → Prop
  | done _ => True
  | ask q next => P q ∧ ∀ x, (next x).Only P

variable {P : Q → Prop}

theorem Only.asks (h : d.Only P) (hasks : d.Asks log r) : P r := by
  induction d generalizing log with
  | done a => exact absurd hasks asks_done
  | ask q next ih =>
    cases log with
    | nil => exact hasks ▸ h.1
    | cons e log =>
      obtain ⟨x, rfl, hasks⟩ := hasks
      exact ih x (h.2 x) hasks

theorem Only.ends (h : d.Only P) (hends : d.Ends log a) : ∀ e ∈ log, P e.1 := by
  induction d generalizing log with
  | done b =>
    obtain ⟨rfl, rfl⟩ := ends_done.1 hends
    exact fun _ h => absurd h List.not_mem_nil
  | ask q next ih =>
    cases log with
    | nil => exact hends.elim
    | cons e log =>
      obtain ⟨x, rfl, hends⟩ := hends
      exact List.forall_mem_cons.2 ⟨h.1, ih x (h.2 x) hends⟩

theorem Only.bind (h : d.Only P) (hf : ∀ a, (f a).Only P) : (d.bind f).Only P := by
  induction d with
  | done a => exact hf a
  | ask q next ih => exact ⟨h.1, fun x => ih x (h.2 x)⟩

/-! ## Dialogues that may fail -/

/-- The first part gives a value, and the second goes on with it; or it fails. -/
def andThen (d : Dialogue Q A (Except ε α)) (f : α → Dialogue Q A (Except ε β)) :
    Dialogue Q A (Except ε β) :=
  d.bind fun
    | .ok a => f a
    | .error e => done (.error e)

variable {d : Dialogue Q A (Except ε α)} {f : α → Dialogue Q A (Except ε β)}

@[simp] theorem done_ok_andThen : (done (.ok a) : Dialogue Q A (Except ε α)).andThen f = f a := rfl

theorem run_andThen (answer : ∀ q, A q) :
    (d.andThen f).run answer = (d.run answer).bind fun a => (f a).run answer := by
  rw [andThen, run_bind]
  cases d.run answer <;> rfl

/-- What a sequence asks, its first part asks, or its second part does, once the
    first has given a value. -/
theorem asks_andThen : (d.andThen f).Asks log r ↔
    d.Asks log r ∨ ∃ a l₁ l₂, log = l₁ ++ l₂ ∧ d.Ends l₁ (.ok a) ∧ (f a).Asks l₂ r := by
  rw [andThen, Dialogue.asks_bind]
  refine or_congr_right ⟨?_, fun ⟨a, l₁, l₂, hl, h, hf⟩ => ⟨.ok a, l₁, l₂, hl, h, hf⟩⟩
  rintro ⟨a | a, l₁, l₂, hl, h, hf⟩
  · exact absurd hf asks_done
  · exact ⟨a, l₁, l₂, hl, h, hf⟩

/-- A sequence gives a value when its second part does, once the first has. -/
theorem ends_andThen_ok {b : β} : (d.andThen f).Ends log (.ok b) ↔
    ∃ a l₁ l₂, log = l₁ ++ l₂ ∧ d.Ends l₁ (.ok a) ∧ (f a).Ends l₂ (.ok b) := by
  rw [andThen, ends_bind]
  constructor
  · rintro ⟨a | a, l₁, l₂, hl, h, hf⟩
    · exact nomatch (ends_done.1 hf).2
    · exact ⟨a, l₁, l₂, hl, h, hf⟩
  · exact fun ⟨a, l₁, l₂, hl, h, hf⟩ => ⟨.ok a, l₁, l₂, hl, h, hf⟩

theorem Only.andThen (h : d.Only P) (hf : ∀ a, (f a).Only P) : (d.andThen f).Only P := by
  refine Only.bind h fun a => ?_
  cases a with
  | error e => trivial
  | ok a => exact hf a

end Dialogue

end Machine
