import PhantasmaSdk.Basic
import PhantasmaSdk.Machine.Dialogue

/-!
# Pages

A query that is answered in pages is read by asking for one page after the other, each
by the cursor that the page before it announced. Whatever the node answers, it is asked
for a bounded number of pages, and for none of them twice; what is read is what is in
the pages, in their order (`pagesRead_readAllPages`).
-/

namespace PhantasmaSdk

open Machine

structure CursorPaginatedResult (Item : Type) where
  result : Option (List Item)
  cursor : Option String

variable {Item : Type}

def CursorPaginatedResult.items (page : CursorPaginatedResult Item) : List Item :=
  page.result.getD []

def maxPages : ℕ := 1000

/-- The node is asked for the page at a cursor. -/
abbrev PageDialogue (Item : Type) : Type :=
  Dialogue String (fun _ => Result (CursorPaginatedResult Item)) (Result (List Item))

/-- Reads at most so many more pages, from a cursor on. -/
def readPages : ℕ → List String → String → List Item → PageDialogue Item
  | 0, _, _, _ => .done (rpc none s!"the node kept returning pages past {maxPages}")
  | n + 1, seen, cursor, items => .ask cursor fun
    | .error e => .done (.error e)
    | .ok page =>
      match page.cursor with
      | some next =>
        if next = "" then .done (.ok (items ++ page.items))
        else if next ∈ seen then .done (.ok (items ++ page.items))
        else readPages n (next :: seen) next (items ++ page.items)
      | none => .done (.ok (items ++ page.items))

def readAllPages : PageDialogue Item := readPages maxPages [] "" []

/-! ## What is read -/

variable {answers : ℕ → Result (CursorPaginatedResult Item)} {n : ℕ} {seen : List String}
  {cursor : String} {items : List Item}

/-- The questions and answers, and what is read, if the node gives the answers in turn. -/
def pagesFrom (answers : ℕ → Result (CursorPaginatedResult Item)) (d : PageDialogue Item) :
    Dialogue.Log (fun _ : String => Result (CursorPaginatedResult Item)) × Result (List Item) :=
  d.converse fun i _ => answers i

/-- The `i`-th answer announces a cursor that goes on, announced neither before nor by
    an answer before it. -/
def AnnouncesFresh (answers : ℕ → Result (CursorPaginatedResult Item)) (seen : List String)
    (i : ℕ) : Prop :=
  ∃ page next, answers i = .ok page ∧ page.cursor = some next ∧ next ≠ "" ∧ next ∉ seen ∧
    ∀ j < i, ∀ page', answers j = .ok page' → page'.cursor ≠ some next

/-- A page is asked for, and reading fails with it, ends with it, or goes on at a cursor
    that is new. -/
theorem pagesFrom_readPages_succ (answers : ℕ → Result (CursorPaginatedResult Item)) (n : ℕ)
    (seen : List String) (cursor : String) (items : List Item) :
    let out := pagesFrom answers (readPages (n + 1) seen cursor items)
    (∃ e, answers 0 = .error e ∧ out = ([⟨cursor, .error e⟩], .error e)) ∨
    (∃ page, answers 0 = .ok page ∧ (∀ next, page.cursor = some next → next = "" ∨ next ∈ seen) ∧
      out = ([⟨cursor, .ok page⟩], .ok (items ++ page.items))) ∨
    ∃ page next, answers 0 = .ok page ∧ page.cursor = some next ∧ next ≠ "" ∧ next ∉ seen ∧
      let rest := pagesFrom (fun i => answers (i + 1))
        (readPages n (next :: seen) next (items ++ page.items))
      out = (⟨cursor, .ok page⟩ :: rest.1, rest.2) := by
  rw [pagesFrom, readPages, Dialogue.converse]
  match hanswer : answers 0 with
  | .error e => exact .inl ⟨e, rfl, rfl⟩
  | .ok page =>
    refine .inr ?_
    match hcursor : page.cursor with
    | none =>
      simp only [hcursor]
      exact .inl ⟨page, rfl, fun _ h => (nomatch hcursor.symm.trans h), rfl⟩
    | some next =>
      simp only [hcursor]
      have hnext : ∀ next', page.cursor = some next' → next' = next :=
        fun _ h => (Option.some.inj (hcursor.symm.trans h)).symm
      by_cases hempty : next = ""
      · rw [if_pos hempty]
        exact .inl ⟨page, rfl, fun _ h => .inl (hnext _ h ▸ hempty), rfl⟩
      · by_cases hseen : next ∈ seen
        · rw [if_neg hempty, if_pos hseen]
          exact .inl ⟨page, rfl, fun _ h => .inr (hnext _ h ▸ hseen), rfl⟩
        · rw [if_neg hempty, if_neg hseen]
          exact .inr ⟨page, next, rfl, hcursor, hempty, hseen, rfl⟩

/-- At most so many pages are asked for. -/
theorem length_pagesFrom_le (answers : ℕ → Result (CursorPaginatedResult Item)) (n : ℕ)
    (seen : List String) (cursor : String) (items : List Item) :
    (pagesFrom answers (readPages n seen cursor items)).1.length ≤ n := by
  induction n generalizing answers seen cursor items with
  | zero => exact le_rfl
  | succ n ih =>
    obtain ⟨_, -, h⟩ | ⟨_, -, -, h⟩ | ⟨page, next, -, -, -, -, h⟩ :=
      pagesFrom_readPages_succ answers n seen cursor items
    · rw [h]
      exact Nat.succ_le_succ n.zero_le
    · rw [h]
      exact Nat.succ_le_succ n.zero_le
    · rw [h]
      exact Nat.succ_le_succ (ih _ _ _ _)

/-- The cursors asked for after the first are new ones, each once. -/
theorem cursors_pagesFrom (answers : ℕ → Result (CursorPaginatedResult Item)) (n : ℕ)
    (seen : List String) (cursor : String) (items : List Item) :
    ∃ rest, (pagesFrom answers (readPages n seen cursor items)).1.map (·.1) <+: cursor :: rest ∧
      rest.Nodup ∧ ∀ c ∈ rest, c ≠ "" ∧ c ∉ seen := by
  induction n generalizing answers seen cursor items with
  | zero => exact ⟨[], List.nil_prefix, List.nodup_nil, nofun⟩
  | succ n ih =>
    obtain ⟨_, -, h⟩ | ⟨_, -, -, h⟩ | ⟨page, next, -, -, hempty, hseen, h⟩ :=
      pagesFrom_readPages_succ answers n seen cursor items
    · rw [h]
      exact ⟨[], List.prefix_rfl, List.nodup_nil, nofun⟩
    · rw [h]
      exact ⟨[], List.prefix_rfl, List.nodup_nil, nofun⟩
    · obtain ⟨rest, hprefix, hnodup, hnew⟩ :=
        ih (fun i => answers (i + 1)) (next :: seen) next (items ++ page.items)
      rw [h]
      refine ⟨next :: rest, (List.prefix_cons_inj _).2 hprefix, ?_, ?_⟩
      · exact List.nodup_cons.2 ⟨fun hmem => (hnew next hmem).2 List.mem_cons_self, hnodup⟩
      · refine List.forall_mem_cons.2 ⟨⟨hempty, hseen⟩, fun c hc => ⟨(hnew c hc).1, fun hmem => ?_⟩⟩
        exact (hnew c hc).2 (List.mem_cons_of_mem _ hmem)

/-- What is read is what is in the pages, after what was there before. -/
theorem items_pagesFrom {read : List Item}
    (h : (pagesFrom answers (readPages n seen cursor items)).2 = .ok read) :
    ∃ pages : List (CursorPaginatedResult Item),
      (pagesFrom answers (readPages n seen cursor items)).1.map (·.2) = pages.map .ok ∧
      read = items ++ pages.flatMap CursorPaginatedResult.items := by
  induction n generalizing answers seen cursor items with
  | zero => cases h
  | succ n ih =>
    obtain ⟨_, -, hout⟩ | ⟨page, -, -, hout⟩ | ⟨page, next, -, -, -, -, hout⟩ :=
      pagesFrom_readPages_succ answers n seen cursor items
    · rw [hout] at h
      cases h
    · rw [hout] at h ⊢
      obtain rfl := Except.ok.inj h
      exact ⟨[page], rfl, by rw [List.flatMap_singleton]⟩
    · rw [hout] at h ⊢
      obtain ⟨pages, hpages, rfl⟩ := ih h
      exact ⟨page :: pages, congrArg _ hpages, by rw [List.flatMap_cons, List.append_assoc]⟩

/-- If asking for a page fails, reading does. -/
theorem failed_pagesFrom {fault : Fault} (h : .error fault ∈
      (pagesFrom answers (readPages n seen cursor items)).1.map (·.2)) :
    (pagesFrom answers (readPages n seen cursor items)).2 = .error fault := by
  induction n generalizing answers seen cursor items with
  | zero => cases h
  | succ n ih =>
    obtain ⟨e, -, hout⟩ | ⟨page, -, -, hout⟩ | ⟨page, next, -, -, -, -, hout⟩ :=
      pagesFrom_readPages_succ answers n seen cursor items
    · rw [hout] at h ⊢
      exact congrArg _ (Except.error.inj (List.mem_singleton.1 h)).symm
    · rw [hout] at h
      exact nomatch List.mem_singleton.1 h
    · rw [hout] at h ⊢
      obtain h | h := List.mem_cons.1 h
      · cases h
      · exact ih h

/-- A node that always announces a new cursor is not read to the end. -/
theorem endless_pagesFrom (h : ∀ i < n, AnnouncesFresh answers seen i) :
    (pagesFrom answers (readPages n seen cursor items)).2 =
      rpc none s!"the node kept returning pages past {maxPages}" := by
  induction n generalizing answers seen cursor items with
  | zero => rfl
  | succ n ih =>
    obtain ⟨page, next, hanswer, hcursor, hempty, hseen, -⟩ := h 0 n.succ_pos
    obtain ⟨e, he, -⟩ | ⟨page', hpage', hend, -⟩ | ⟨page', next', hpage', hcursor', -, -, hout⟩ :=
      pagesFrom_readPages_succ answers n seen cursor items
    · exact nomatch hanswer.symm.trans he
    · obtain rfl := Except.ok.inj (hanswer.symm.trans hpage')
      exact ((hend next hcursor).elim hempty hseen).elim
    · obtain rfl := Except.ok.inj (hanswer.symm.trans hpage')
      obtain rfl := Option.some.inj (hcursor.symm.trans hcursor')
      rw [hout]
      refine ih fun i hi => ?_
      -- What is announced later was not announced by this page either.
      obtain ⟨page₁, next₁, hanswer₁, hcursor₁, hempty₁, hseen₁, hbefore⟩ :=
        h (i + 1) (Nat.succ_lt_succ hi)
      refine ⟨page₁, next₁, hanswer₁, hcursor₁, hempty₁, ?_, fun j hj => ?_⟩
      · refine List.mem_cons.not.2 (not_or.2 ⟨fun heq => ?_, hseen₁⟩)
        exact hbefore 0 i.succ_pos page hanswer (heq ▸ hcursor)
      · exact hbefore (j + 1) (Nat.succ_lt_succ hj)

/-- How a node that answers in turn is read. -/
structure PagesRead (answers : ℕ → Result (CursorPaginatedResult Item))
    (log : Dialogue.Log fun _ : String => Result (CursorPaginatedResult Item))
    (result : Result (List Item)) : Prop where
  answered : ∀ i e, log[i]? = some e → e.2 = answers i
  /-- It is asked for a thousand pages at most. -/
  length_le : log.length ≤ 1000
  /-- It is asked for no page twice. -/
  nodup : (log.map (·.1)).Nodup
  /-- What is read is what is in the pages, in their order. -/
  items : ∀ items, result = .ok items →
    ∃ pages : List (CursorPaginatedResult Item), log.map (·.2) = pages.map .ok ∧
      items = pages.flatMap CursorPaginatedResult.items
  failed : ∀ fault, .error fault ∈ log.map (·.2) → result = .error fault
  endless : (∀ i < 1000, AnnouncesFresh answers [] i) →
    result = rpc none "the node kept returning pages past 1000"

/-- Whatever a node answers, it is read so. -/
theorem pagesRead_readAllPages (answers : ℕ → Result (CursorPaginatedResult Item)) :
    PagesRead answers (pagesFrom answers readAllPages).1 (pagesFrom answers readAllPages).2 where
  answered _ _ h := Dialogue.eq_of_getElem?_converse h
  length_le := length_pagesFrom_le answers maxPages [] "" []
  nodup := by
    obtain ⟨rest, hprefix, hnodup, hnew⟩ := cursors_pagesFrom answers maxPages [] "" []
    refine hprefix.sublist.nodup (List.nodup_cons.2 ⟨fun hmem => ?_, hnodup⟩)
    exact (hnew "" hmem).1 rfl
  items _ h := by
    obtain ⟨pages, hpages, rfl⟩ := items_pagesFrom h
    exact ⟨pages, hpages, rfl⟩
  failed _ h := failed_pagesFrom h
  endless h := endless_pagesFrom h

end PhantasmaSdk
