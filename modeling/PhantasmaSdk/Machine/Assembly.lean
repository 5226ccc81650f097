import Mathlib.Data.List.Basic
import Mathlib.Tactic

/-!
# Assembling code with labels

Code is put together from *pieces*: code as it is, labels, which are marked in the
code and name the place after their mark, and slots, which are to hold the place of
a label. A slot is emitted blank, as its label may be put down later, and what it
is to hold is written over it in the end.

`emitted` is the code before that and `render` the code after it. Writing over the
slots one by one turns the one into the other (`foldl_overwrite`); what is not in a
slot stays (`getElem?_render`), and the place of a label is right after its mark
(`exists_of_target`).
-/

namespace Machine

/-- What is written over a list from a place on. -/
def overwrite {β : Type} (l : List β) (offset : ℕ) (new : List β) : List β :=
  l.take offset ++ new ++ l.drop (offset + new.length)

/-- A piece of code: a slot is of some kind, which may tell what it holds. -/
inductive Piece (β κ L : Type)
  | raw (code : List β)
  | label (name : L)
  | slot (kind : κ) (name : L)
  deriving DecidableEq, Repr

namespace Piece

variable {β κ L : Type} (mark blank : List β)

/-- The code that is emitted for a piece, given the mark of a label and a blank slot. -/
def text : Piece β κ L → List β
  | raw code => code
  | label _ => mark
  | slot _ _ => blank

/-- The code of the pieces, one after the other, with the slots still blank. -/
def emitted (ps : List (Piece β κ L)) : List β := ps.flatMap (text mark blank)

/-- The slots of code that begins at a place, each with the place it is at. -/
def slots : ℕ → List (Piece β κ L) → List (ℕ × κ × L)
  | _, [] => []
  | n, slot kind name :: ps => (n, kind, name) :: slots (n + blank.length) ps
  | n, p :: ps => slots (n + (p.text mark blank).length) ps

/-- The place of a label that is put down at `n`. -/
def place [DecidableEq L] (name : L) (n : ℕ) : Piece β κ L → Option ℕ
  | label name' => if name' = name then some (n + mark.length) else none
  | _ => none

/-- The place of a label in code that begins at a place: where it was put down last. -/
def target [DecidableEq L] (name : L) : ℕ → List (Piece β κ L) → Option ℕ
  | _, [] => none
  | n, p :: ps => (target name (n + (p.text mark blank).length) ps).or (p.place mark name n)

/-- The code with the slots filled. -/
def render (fill : κ → L → List β) (ps : List (Piece β κ L)) : List β :=
  ps.flatMap fun
    | slot kind name => fill kind name
    | p => p.text mark blank

variable {mark blank} {ps qs : List (Piece β κ L)} {p : Piece β κ L} {n o : ℕ} {kind : κ} {name : L}
  {fill : κ → L → List β}

@[simp] theorem emitted_nil : emitted mark blank ([] : List (Piece β κ L)) = [] := rfl

@[simp] theorem emitted_cons :
    emitted mark blank (p :: ps) = p.text mark blank ++ emitted mark blank ps := rfl

@[simp] theorem emitted_append :
    emitted mark blank (ps ++ qs) = emitted mark blank ps ++ emitted mark blank qs :=
  List.flatMap_append

/-- The slots of the second part begin where the first part ends. -/
theorem slots_append : slots mark blank n (ps ++ qs) =
    slots mark blank n ps ++ slots mark blank (n + (emitted mark blank ps).length) qs := by
  induction ps generalizing n with
  | nil => rfl
  | cons p ps ih =>
    cases p <;> simp only [List.cons_append, slots, ih, emitted_cons, List.length_append, text,
      Nat.add_assoc]

/-- A label put down in the second part hides one in the first part. -/
theorem target_append [DecidableEq L] : target mark blank name n (ps ++ qs) =
    (target mark blank name (n + (emitted mark blank ps).length) qs).or
      (target mark blank name n ps) := by
  induction ps generalizing n with
  | nil => simp [target]
  | cons p ps ih =>
    rw [List.cons_append, target, ih, target, emitted_cons, List.length_append, Option.or_assoc,
      Nat.add_assoc]

/-! One piece more. -/

theorem emitted_concat :
    emitted mark blank (ps ++ [p]) = emitted mark blank ps ++ p.text mark blank := by
  rw [emitted_append, emitted_cons, emitted_nil, List.append_nil]

theorem slots_concat_raw {code : List β} :
    slots mark blank n (ps ++ [raw code]) = slots mark blank n ps := by
  rw [slots_append, show slots mark blank _ [raw code] = [] from rfl, List.append_nil]

theorem slots_concat_label :
    slots mark blank n (ps ++ [label name]) = slots mark blank n ps := by
  rw [slots_append, show slots mark blank _ [label name] = [] from rfl, List.append_nil]

theorem slots_concat_slot : slots mark blank n (ps ++ [slot kind name]) =
    slots mark blank n ps ++ [(n + (emitted mark blank ps).length, kind, name)] := slots_append

theorem target_concat_raw [DecidableEq L] {code : List β} :
    target mark blank name n (ps ++ [raw code]) = target mark blank name n ps := target_append

theorem target_concat_slot [DecidableEq L] {name' : L} :
    target mark blank name n (ps ++ [slot kind name']) = target mark blank name n ps :=
  target_append

theorem target_concat_label [DecidableEq L] {name' : L} :
    target mark blank name n (ps ++ [label name']) =
      if name' = name then some (n + (emitted mark blank ps).length + mark.length)
      else target mark blank name n ps := by
  rw [target_append, target, target, place, Option.none_or]
  split <;> rfl

/-- A slot is where the code before it ends. -/
theorem mem_slots : (o, kind, name) ∈ slots mark blank n ps ↔
    ∃ pre post, ps = pre ++ slot kind name :: post ∧ o = n + (emitted mark blank pre).length := by
  induction ps generalizing n with
  | nil => simp [slots]
  | cons p ps ih =>
    have hstep : (∃ pre post, p :: ps = pre ++ slot kind name :: post ∧
        o = n + (emitted mark blank pre).length) ↔ (p = slot kind name ∧ o = n) ∨
        (o, kind, name) ∈ slots mark blank (n + (p.text mark blank).length) ps := by
      rw [ih]
      constructor
      · rintro ⟨pre, post, hps, ho⟩
        cases pre with
        | nil => exact .inl ⟨(List.cons.inj hps).1, ho⟩
        | cons q pre =>
          obtain ⟨rfl, rfl⟩ := List.cons.inj hps
          refine .inr ⟨pre, post, rfl, ?_⟩
          rw [ho, emitted_cons, List.length_append, Nat.add_assoc]
      · rintro (⟨rfl, rfl⟩ | ⟨pre, post, rfl, ho⟩)
        · exact ⟨[], ps, rfl, rfl⟩
        · refine ⟨p :: pre, post, rfl, ?_⟩
          rw [ho, emitted_cons, List.length_append, Nat.add_assoc]
    rw [hstep]
    cases p with
    | slot kind' name' =>
      simp only [slots, List.mem_cons, Prod.mk.injEq, slot.injEq, text]
      exact or_congr_left ⟨fun ⟨ho, hk, hn⟩ => ⟨⟨hk.symm, hn.symm⟩, ho⟩,
        fun ⟨⟨hk, hn⟩, ho⟩ => ⟨ho, hk.symm, hn.symm⟩⟩
    | _ => simp [slots]

/-- The place of a label is right after the mark that was put down for it last. -/
theorem exists_of_target [DecidableEq L] {t : ℕ} (h : target mark blank name n ps = some t) :
    ∃ pre post, ps = pre ++ label name :: post ∧
      t = n + (emitted mark blank pre).length + mark.length ∧ label name ∉ post := by
  have hmem : ∀ {ps : List (Piece β κ L)} {n : ℕ}, target mark blank name n ps = none →
      label name ∉ ps := by
    intro ps
    induction ps with
    | nil => simp
    | cons p ps ih =>
      intro n h
      rw [target, Option.or_eq_none_iff] at h
      rintro hp
      rcases List.mem_cons.1 hp with rfl | hp
      · simp [place] at h
      · exact ih h.1 hp
  induction ps generalizing n with
  | nil => cases h
  | cons p ps ih =>
    rw [target, Option.or_eq_some_iff] at h
    rcases h with h | ⟨hnone, h⟩
    · obtain ⟨pre, post, rfl, rfl, hpost⟩ := ih h
      refine ⟨p :: pre, post, rfl, ?_, hpost⟩
      rw [emitted_cons, List.length_append, Nat.add_assoc n]
    · cases p with
      | label name' =>
        rw [place] at h
        split at h
        next heq =>
          subst heq
          exact ⟨[], ps, rfl, (Option.some.inj h).symm, hmem hnone⟩
        next => cases h
      | _ => cases h

/-! ## Filling the slots -/

@[simp] theorem render_nil : render mark blank fill ([] : List (Piece β κ L)) = [] := rfl

@[simp] theorem render_append : render mark blank fill (ps ++ qs) =
    render mark blank fill ps ++ render mark blank fill qs := List.flatMap_append

theorem render_cons_slot : render mark blank fill (slot kind name :: ps) =
    fill kind name ++ render mark blank fill ps := rfl

theorem render_cons_label : render mark blank fill (label name :: ps) =
    mark ++ render mark blank fill ps := rfl

theorem render_cons_raw {code : List β} : render mark blank fill (raw code :: ps) =
    code ++ render mark blank fill ps := rfl

/-- Filling the slots does not move anything. -/
theorem length_render (hfill : ∀ kind name, (fill kind name).length = blank.length) :
    (render mark blank fill ps).length = (emitted mark blank ps).length := by
  induction ps with
  | nil => rfl
  | cons p ps ih =>
    cases p with
    | raw code =>
      rw [render_cons_raw, emitted_cons, List.length_append, List.length_append, ih, text]
    | label name =>
      rw [render_cons_label, emitted_cons, List.length_append, List.length_append, ih, text]
    | slot kind name =>
      rw [render_cons_slot, emitted_cons, List.length_append, List.length_append, ih, hfill, text]

/-- What is written over a part of the same length takes its place. -/
theorem overwrite_append {pre old new post : List β} (h : new.length = old.length) :
    overwrite (pre ++ (old ++ post)) pre.length new = pre ++ (new ++ post) := by
  rw [overwrite, List.take_left, h, ← List.length_append, ← List.append_assoc pre, List.drop_left,
    List.append_assoc]

theorem length_overwrite {l new : List β} (h : o + new.length ≤ l.length) :
    (overwrite l o new).length = l.length := by
  rw [overwrite, List.length_append, List.length_append, List.length_take, List.length_drop]
  omega

/-- Writing over the slots one by one fills them all. -/
theorem foldl_overwrite (hfill : ∀ kind name, (fill kind name).length = blank.length)
    (pre : List β) :
    (slots mark blank pre.length ps).foldl (fun l s => overwrite l s.1 (fill s.2.1 s.2.2))
      (pre ++ emitted mark blank ps) = pre ++ render mark blank fill ps := by
  induction ps generalizing pre with
  | nil => rfl
  | cons p ps ih =>
    cases p with
    | raw code =>
      have := ih (pre ++ code)
      rwa [List.length_append, List.append_assoc, List.append_assoc] at this
    | label name =>
      have := ih (pre ++ mark)
      rwa [List.length_append, List.append_assoc, List.append_assoc] at this
    | slot kind name =>
      have := ih (pre ++ fill kind name)
      rw [List.length_append, hfill, List.append_assoc, List.append_assoc] at this
      rw [slots, List.foldl_cons, emitted_cons, text, overwrite_append (hfill kind name), this,
        render_cons_slot]

/-! ## Where the slots are -/

/-- A slot is within the code. -/
theorem le_of_mem_slots (h : (o, kind, name) ∈ slots mark blank n ps) :
    n ≤ o ∧ o + blank.length ≤ n + (emitted mark blank ps).length := by
  obtain ⟨pre, post, rfl, rfl⟩ := mem_slots.1 h
  simp only [emitted_append, emitted_cons, List.length_append, text]
  omega

/-- The slots do not overlap. -/
theorem pairwise_slots : (slots mark blank n ps).Pairwise fun s s' =>
    s.1 + blank.length ≤ s'.1 := by
  induction ps generalizing n with
  | nil => exact .nil
  | cons p ps ih =>
    cases p with
    | slot kind name => exact .cons (fun s hs => (le_of_mem_slots hs).1) ih
    | _ => exact ih

/-- Two slots are the same or do not overlap. -/
theorem slots_disjoint {s s' : ℕ × κ × L} (h : s ∈ slots mark blank n ps)
    (h' : s' ∈ slots mark blank n ps) :
    s = s' ∨ s.1 + blank.length ≤ s'.1 ∨ s'.1 + blank.length ≤ s.1 := by
  let apart (s s' : ℕ × κ × L) : Prop :=
    s.1 + blank.length ≤ s'.1 ∨ s'.1 + blank.length ≤ s.1
  have : Std.Symm apart := ⟨fun _ _ => Or.symm⟩
  have hpairwise : (slots mark blank n ps).Pairwise apart := pairwise_slots.imp .inl
  by_cases heq : s = s'
  · exact .inl heq
  · exact .inr (hpairwise.forall h h' heq)

/-- A slot holds what it was filled with. -/
theorem render_of_mem_slots (hfill : ∀ kind name, (fill kind name).length = blank.length)
    (h : (o, kind, name) ∈ slots mark blank 0 ps) :
    ((render mark blank fill ps).drop o).take blank.length = fill kind name := by
  obtain ⟨pre, post, rfl, rfl⟩ := mem_slots.1 h
  rw [render_append, render_cons_slot, Nat.zero_add, ← length_render hfill, List.drop_left,
    ← hfill kind name, List.take_left]

/-- What is not in a slot is as it was emitted. -/
theorem getElem?_render (hfill : ∀ kind name, (fill kind name).length = blank.length) {i : ℕ}
    (h : ∀ s ∈ slots mark blank n ps, i + n < s.1 ∨ s.1 + blank.length ≤ i + n) :
    (render mark blank fill ps)[i]? = (emitted mark blank ps)[i]? := by
  induction ps generalizing n i with
  | nil => rfl
  | cons p ps ih =>
    -- Before the end of the first piece, or within the rest.
    have hrest {a b : List β} (hlen : a.length = b.length)
        (hab : i < b.length → a[i]? = b[i]?)
        (hslots : ∀ s ∈ slots mark blank (n + b.length) ps,
          i + n < s.1 ∨ s.1 + blank.length ≤ i + n) :
        (a ++ render mark blank fill ps)[i]? = (b ++ emitted mark blank ps)[i]? := by
      by_cases hi : i < b.length
      · rw [List.getElem?_append_left (hlen ▸ hi), List.getElem?_append_left hi, hab hi]
      · rw [List.getElem?_append_right (by omega), List.getElem?_append_right (by omega), hlen]
        refine ih (n := n + b.length) fun s hs => ?_
        have := hslots s hs
        omega
    cases p with
    | raw code => exact hrest rfl (fun _ => rfl) h
    | label name => exact hrest rfl (fun _ => rfl) h
    | slot kind name =>
      have hslot : i + n < n ∨ n + blank.length ≤ i + n := h _ List.mem_cons_self
      have hout : ¬i < blank.length := by omega
      exact hrest (hfill kind name) (fun hi => absurd hi hout)
        fun s hs => h s (List.mem_cons_of_mem _ hs)

/-- The mark of a label stands before its place, whatever the slots hold. -/
theorem render_of_target [DecidableEq L]
    (hfill : ∀ kind name, (fill kind name).length = blank.length) {t : ℕ}
    (h : target mark blank name 0 ps = some t) : mark.length ≤ t ∧
      ((render mark blank fill ps).drop (t - mark.length)).take mark.length = mark ∧
        t ≤ (emitted mark blank ps).length := by
  obtain ⟨pre, post, rfl, rfl, -⟩ := exists_of_target h
  refine ⟨by omega, ?_, ?_⟩
  · rw [Nat.add_sub_cancel, Nat.zero_add, render_append, render_cons_label, ← length_render hfill,
      List.drop_left, List.take_left]
  · simp only [emitted_append, emitted_cons, List.length_append, text]
    omega

end Piece

end Machine
