import PhantasmaSdk.Machine.Dialogue

/-!
# Handlers

A question may stand for a dialogue of its own: a *handler* says which one answers it,
with whom it is held being left to another level. A dialogue is held through a handler
by holding, for each of its questions in turn, the dialogue that answers it
(`through`). Its log is made of theirs (`Answered`): it ends as it would have ended
with the answers they gave (`ends_through`).

Two kinds of dialogues that may fail are common: one for each element of a list
(`forEach`), and those in which a failed answer is the end (`Strict`).
-/

namespace Machine.Dialogue

variable {Q Q' ι : Type} {A : Q → Type} {A' : Q' → Type} {ε α β : Type}

/-! ## Through a handler -/

/-- The dialogue, each question answered by the dialogue the handler has for it. -/
def through (h : ∀ q, Dialogue Q' A' (A q)) : Dialogue Q A α → Dialogue Q' A' α
  | done a => done a
  | ask q next => (h q).bind fun x => (next x).through h

/-- The second log is made of the logs of the dialogues that gave the answers of the
    first. -/
inductive Answered (h : ∀ q, Dialogue Q' A' (A q)) : Log A → Log A' → Prop
  | nil : Answered h [] []
  | cons {q : Q} {x : A q} {l : Log A'} {log : Log A} {log' : Log A'} (hq : (h q).Ends l x)
    (hlog : Answered h log log') : Answered h (⟨q, x⟩ :: log) (l ++ log')

variable {h : ∀ q, Dialogue Q' A' (A q)} {d : Dialogue Q A α} {log log₁ log₂ : Log A}
  {log' : Log A'} {a : α}

theorem Answered.append {log₁' log₂' : Log A'} (h₁ : Answered h log₁ log₁')
    (h₂ : Answered h log₂ log₂') : Answered h (log₁ ++ log₂) (log₁' ++ log₂') := by
  induction h₁ with
  | nil => exact h₂
  | cons hq _ ih =>
    rw [List.append_assoc]
    exact .cons hq ih

theorem answered_append : Answered h (log₁ ++ log₂) log' ↔
    ∃ l₁ l₂, log' = l₁ ++ l₂ ∧ Answered h log₁ l₁ ∧ Answered h log₂ l₂ := by
  constructor
  · intro hlog
    induction log₁ generalizing log' with
    | nil => exact ⟨[], log', rfl, .nil, hlog⟩
    | cons e log₁ ih =>
      obtain ⟨⟩ | ⟨hq, hlog⟩ := hlog
      obtain ⟨l₁, l₂, rfl, h₁, h₂⟩ := ih hlog
      exact ⟨_, l₂, (List.append_assoc _ _ _).symm, .cons hq h₁, h₂⟩
  · rintro ⟨l₁, l₂, rfl, h₁, h₂⟩
    exact h₁.append h₂

/-- Each answer was given by a dialogue whose log is part of the whole. -/
theorem Answered.exists_of_mem (hlog : Answered h log log') {q : Q} {x : A q}
    (hmem : ⟨q, x⟩ ∈ log) : ∃ before l after, log' = before ++ l ++ after ∧ (h q).Ends l x := by
  obtain ⟨log₁, log₂, rfl⟩ := List.append_of_mem hmem
  obtain ⟨before, rest, rfl, -, hrest⟩ := answered_append.1 hlog
  obtain ⟨⟩ | ⟨hq, -⟩ := hrest
  exact ⟨before, _, _, (List.append_assoc _ _ _).symm, hq⟩

/-- What holds of the questions of the first log, and so of those that answer them, holds of
    the second. -/
theorem Answered.forall_mem {P : Q → Prop} {R : Q' → Prop} (hlog : Answered h log log')
    (hh : ∀ q l x, (h q).Ends l x → P q → ∀ e ∈ l, R e.1) (hP : ∀ e ∈ log, P e.1) :
    ∀ e ∈ log', R e.1 := by
  induction hlog with
  | nil => exact fun _ he => absurd he List.not_mem_nil
  | cons hq _ ih =>
    obtain ⟨hfirst, hrest⟩ := List.forall_mem_cons.1 hP
    exact List.forall_mem_append.2 ⟨hh _ _ _ hq hfirst, ih hrest⟩

/-- A dialogue ends through a handler as with the answers it was given. -/
theorem ends_through : (d.through h).Ends log' a ↔ ∃ log, d.Ends log a ∧ Answered h log log' := by
  induction d generalizing log' with
  | done b =>
    rw [through, ends_done]
    constructor
    · rintro ⟨rfl, rfl⟩
      exact ⟨[], ⟨rfl, rfl⟩, .nil⟩
    · rintro ⟨log, hends, hlog⟩
      obtain ⟨rfl, rfl⟩ := ends_done.1 hends
      cases hlog
      exact ⟨rfl, rfl⟩
  | ask q next ih =>
    rw [through, ends_bind]
    constructor
    · rintro ⟨x, l₁, l₂, rfl, hq, hends⟩
      obtain ⟨log, hends, hlog⟩ := (ih x).1 hends
      exact ⟨⟨q, x⟩ :: log, ⟨x, rfl, hends⟩, .cons hq hlog⟩
    · rintro ⟨log, hends, hlog⟩
      cases hlog with
      | nil => exact hends.elim
      | cons hq hlog =>
        obtain ⟨x, heq, hends⟩ := hends
        cases heq
        exact ⟨x, _, _, rfl, hq, (ih x).2 ⟨_, hends, hlog⟩⟩

/-- Where each question is answered by one other, the two logs go side by side. -/
theorem Answered.forall₂_of_ask {f : Q → Q'} {g : ∀ q, A' (f q) → A q}
    (hlog : Answered (fun q => .ask (f q) fun x => .done (g q x)) log log') :
    List.Forall₂ (fun e e' => ∃ x, e' = ⟨f e.1, x⟩ ∧ e.2 = g e.1 x) log log' := by
  induction hlog with
  | nil => exact .nil
  | @cons q x l log log' hq _ ih =>
    obtain _ | ⟨e, l⟩ := l
    · exact hq.elim
    obtain ⟨x', rfl, hq⟩ := hq
    obtain ⟨rfl, rfl⟩ := ends_done.1 hq
    exact .cons ⟨x', rfl, rfl⟩ ih

/-- Where all questions are answered alike, a log is one of answers given in turn. -/
theorem exists_converse_of_ends {R : Type} [Nonempty R] {d : Dialogue Q (fun _ => R) α}
    {log : Log fun _ : Q => R} (hends : d.Ends log a) :
    ∃ answers : ℕ → R, d.converse (fun i _ => answers i) = (log, a) := by
  induction d generalizing log with
  | done b =>
    obtain ⟨rfl, rfl⟩ := ends_done.1 hends
    exact ⟨fun _ => Classical.arbitrary R, rfl⟩
  | ask q next ih =>
    obtain _ | ⟨e, log⟩ := log
    · exact hends.elim
    obtain ⟨x, rfl, hends⟩ := hends
    obtain ⟨answers, hanswers⟩ := ih x hends
    refine ⟨fun i => i.casesOn x answers, ?_⟩
    exact congrArg (fun out : Log (fun _ : Q => R) × α => (⟨q, x⟩ :: out.1, out.2)) hanswers

theorem ends_converse (answer : ℕ → ∀ q, A q) :
    d.Ends (d.converse answer).1 (d.converse answer).2 := by
  induction d generalizing answer with
  | done a => exact ⟨rfl, rfl⟩
  | ask q next ih => exact ⟨answer 0 q, rfl, ih _ _⟩

/-! ## For each -/

/-- A dialogue for each element, in turn; the first that fails is the last. -/
def forEach (f : ι → Dialogue Q A (Except ε β)) : List ι → Dialogue Q A (Except ε (List β))
  | [] => done (.ok [])
  | i :: is => (f i).andThen fun b => (forEach f is).andThen fun bs => done (.ok (b :: bs))

/-- Where one question is asked for an element, of which it is told `t`, the log has one
    entry for each, in turn. -/
theorem exists_of_ends_forEach {T : Type} {f : ι → Dialogue Q A (Except ε β)}
    {entry : ι → T → Σ q, A q} {P : ι → T → β → Prop}
    (hf : ∀ i log b, (f i).Ends log (.ok b) → ∃ t, log = [entry i t] ∧ P i t b) {is : List ι}
    {bs : List β} (hends : (forEach f is).Ends log (.ok bs)) :
    ∃ ts : List T, ts.length = is.length ∧
      log = (is.zip ts).map (fun told => entry told.1 told.2) ∧
        List.Forall₂ (fun told b => P told.1 told.2 b) (is.zip ts) bs := by
  induction is generalizing log bs with
  | nil =>
    obtain ⟨rfl, hbs⟩ := ends_done.1 hends
    cases hbs
    exact ⟨[], rfl, rfl, .nil⟩
  | cons i is ih =>
    obtain ⟨b, l₁, l₂, rfl, hi, hrest⟩ := ends_andThen_ok.1 hends
    obtain ⟨bs', l₃, l₄, rfl, his, hdone⟩ := ends_andThen_ok.1 hrest
    obtain ⟨rfl, hbs⟩ := ends_done.1 hdone
    obtain rfl := Except.ok.inj hbs
    obtain ⟨t, rfl, ht⟩ := hf i l₁ b hi
    obtain ⟨ts, hlength, rfl, hts⟩ := ih his
    exact ⟨t :: ts, by rw [List.length_cons, hlength, List.length_cons], by simp, .cons ht hts⟩

/-! ## Failed answers -/

/-- A failed answer is the end: the dialogue fails. -/
def Strict (Fails : ∀ q, A q → Prop) (d : Dialogue Q A (Except ε α)) : Prop :=
  ∀ log result, d.Ends log result → ∀ e ∈ log, Fails e.1 e.2 → ∃ err, result = .error err

variable {Fails : ∀ q, A q → Prop} {d : Dialogue Q A (Except ε α)}
  {f : α → Dialogue Q A (Except ε β)}

/-- A sequence ends with the failure of its first part, or with its second part. -/
theorem ends_andThen {result : Except ε β} : (d.andThen f).Ends log result ↔
    (∃ e, d.Ends log (.error e) ∧ result = .error e) ∨
      ∃ a l₁ l₂, log = l₁ ++ l₂ ∧ d.Ends l₁ (.ok a) ∧ (f a).Ends l₂ result := by
  rw [andThen, ends_bind]
  constructor
  · rintro ⟨first, l₁, l₂, rfl, hfirst, hrest⟩
    cases first with
    | error e =>
      obtain ⟨rfl, rfl⟩ := ends_done.1 hrest
      exact .inl ⟨e, by rwa [List.append_nil], rfl⟩
    | ok a => exact .inr ⟨a, l₁, l₂, rfl, hfirst, hrest⟩
  · rintro (⟨e, hfirst, rfl⟩ | ⟨a, l₁, l₂, rfl, hfirst, hrest⟩)
    · exact ⟨.error e, log, [], (List.append_nil _).symm, hfirst, rfl, rfl⟩
    · exact ⟨.ok a, l₁, l₂, rfl, hfirst, hrest⟩

theorem strict_done (result : Except ε α) : (done result : Dialogue Q A (Except ε α)).Strict Fails := by
  intro log a hends e he
  obtain ⟨rfl, -⟩ := ends_done.1 hends
  exact absurd he List.not_mem_nil

theorem Strict.andThen (hd : d.Strict Fails) (hf : ∀ a, (f a).Strict Fails) :
    (d.andThen f).Strict Fails := by
  intro log result hends e he hfails
  obtain ⟨err, -, rfl⟩ | ⟨a, l₁, l₂, rfl, hfirst, hrest⟩ := ends_andThen.1 hends
  · exact ⟨err, rfl⟩
  rcases List.mem_append.1 he with he | he
  · obtain ⟨err, herr⟩ := hd _ _ hfirst e he hfails
    cases herr
  · exact hf a _ _ hrest e he hfails

/-- A dialogue is held strictly through a handler that fails on failed answers. -/
theorem Strict.through {Fails' : ∀ q, A' q → Prop} (hd : d.Strict Fails)
    (hh : ∀ q l x, (h q).Ends l x → ∀ e ∈ l, Fails' e.1 e.2 → Fails q x) :
    (d.through h).Strict Fails' := by
  intro log' result hends e he hfails
  obtain ⟨log, hlog, hanswered⟩ := ends_through.1 hends
  suffices hfailed : ∃ e ∈ log, Fails e.1 e.2 by
    obtain ⟨e, he, hfails⟩ := hfailed
    exact hd log result hlog e he hfails
  clear hends hlog
  induction hanswered with
  | nil => exact absurd he List.not_mem_nil
  | cons hq _ ih =>
    rcases List.mem_append.1 he with he | he
    · exact ⟨_, List.mem_cons_self, hh _ _ _ hq e he hfails⟩
    · obtain ⟨e', he', hfails'⟩ := ih he
      exact ⟨e', List.mem_cons_of_mem _ he', hfails'⟩

theorem Strict.forEach {f : ι → Dialogue Q A (Except ε β)} (hf : ∀ i, (f i).Strict Fails)
    (is : List ι) : (forEach f is).Strict Fails := by
  induction is with
  | nil => exact strict_done _
  | cons i is ih => exact (hf i).andThen fun b => ih.andThen fun bs => strict_done _

end Machine.Dialogue
