import PhantasmaSdk.Codec.Decoder

/-!
# Extents

A decoder that checks a count against what is left of the input may refuse an
encoding at the end of the input, and read it when more follows. The *extent* of
an encoding is how long it is and how many symbols must follow it. In a sequence,
what the first encoding needs may be what the second is made of, so that extents
compose: `ReadsWithin d x enc a`, i.e., that `d` reads `a` off `enc` exactly where
what the extent needs does follow, has a rule per combinator, as `Reads` does.
-/

namespace Codec

/-- How long an encoding is, and how many symbols must follow it for it to be
    read. -/
structure Extent where
  length : ℕ
  need : ℕ
  deriving DecidableEq, Repr

namespace Extent

/-- Of an encoding that is read whatever follows. -/
def plain (length : ℕ) : Extent := ⟨length, 0⟩

@[simp] theorem length_plain (n : ℕ) : (plain n).length = n := rfl

@[simp] theorem need_plain (n : ℕ) : (plain n).need = 0 := rfl

/-- Of one encoding and then another. -/
def append (x y : Extent) : Extent := ⟨x.length + y.length, max (x.need - y.length) y.need⟩

instance : Append Extent := ⟨append⟩

@[simp] theorem length_append (x y : Extent) : (x ++ y).length = x.length + y.length := rfl

/-- Enough follows a sequence iff enough follows both its parts. -/
@[simp] theorem need_append_le_iff {x y : Extent} {n : ℕ} :
    (x ++ y).need ≤ n ↔ x.need ≤ y.length + n ∧ y.need ≤ n := by
  change max (x.need - y.length) y.need ≤ n ↔ _
  rw [max_le_iff, Nat.sub_le_iff_le_add']

theorem need_append_eq_zero {x y : Extent} (hx : x.need = 0) (hy : y.need = 0) :
    (x ++ y).need = 0 := by
  rw [← Nat.le_zero, need_append_le_iff, hx, hy]
  exact ⟨Nat.zero_le _, le_rfl⟩

@[simp] theorem plain_zero_append (x : Extent) : plain 0 ++ x = x := by
  change Extent.mk (0 + x.length) (max (0 - x.length) x.need) = x
  rw [Nat.zero_add, Nat.zero_sub, Nat.max_eq_right (Nat.zero_le _)]

/-- Of one encoding after the other. -/
def concat (xs : List Extent) : Extent := xs.foldr (· ++ ·) (plain 0)

@[simp] theorem concat_nil : concat [] = plain 0 := rfl

@[simp] theorem concat_cons (x : Extent) (xs : List Extent) : concat (x :: xs) = x ++ concat xs :=
  rfl

theorem need_concat_eq_zero {xs : List Extent} (h : ∀ x ∈ xs, x.need = 0) :
    (concat xs).need = 0 := by
  induction xs with
  | nil => rfl
  | cons x xs ih =>
    exact need_append_eq_zero (h x List.mem_cons_self)
      (ih fun y hy => h y (List.mem_cons_of_mem _ hy))

theorem length_le_concat {xs : List Extent} (h : ∀ x ∈ xs, 1 ≤ x.length) :
    xs.length ≤ (concat xs).length := by
  induction xs with
  | nil => rfl
  | cons x xs ih =>
    have hx := h x List.mem_cons_self
    have hxs := ih fun y hy => h y (List.mem_cons_of_mem _ hy)
    rw [concat_cons, length_append, List.length_cons]
    omega

end Extent

namespace Decoder

variable {σ ε α β γ : Type}

/-- On `enc`, followed by as much as its extent needs, `d` reads `a` and leaves what
    follows; followed by less, it fails. -/
structure ReadsWithin (d : Decoder σ ε α) (x : Extent) (enc : List σ) (a : α) : Prop where
  length_eq : enc.length = x.length
  ok : ∀ suffix : List σ, x.need ≤ suffix.length → d.run (enc ++ suffix) = .ok (a, suffix)
  error : ∀ suffix : List σ, suffix.length < x.need → ∃ e, d.run (enc ++ suffix) = .error e

variable {d : Decoder σ ε α} {x y : Extent} {enc t : List σ} {a : α} {b : β}

theorem Reads.within (h : d.Reads enc a) : d.ReadsWithin (.plain enc.length) enc a where
  length_eq := rfl
  ok suffix _ := h suffix
  error _ hlt := absurd hlt (Nat.not_lt_zero _)

/-- Where nothing needs to follow, the value is read whatever does. -/
theorem ReadsWithin.reads (h : d.ReadsWithin x enc a) (hx : x.need = 0) : d.Reads enc a :=
  fun suffix => h.ok suffix (hx ▸ Nat.zero_le _)

/-- The encoding alone is read iff nothing needs to follow it. -/
theorem ReadsWithin.run_self_iff (h : d.ReadsWithin x enc a) :
    d.run enc = .ok (a, []) ↔ x.need = 0 := by
  constructor
  · intro hrun
    by_contra hx
    obtain ⟨e, he⟩ := h.error [] (Nat.pos_of_ne_zero hx)
    rw [List.append_nil, hrun] at he
    cases he
  · exact fun hx => (h.reads hx).run_self

theorem ReadsWithin.bind {f : α → Decoder σ ε β} (hd : d.ReadsWithin x enc a)
    (hf : (f a).ReadsWithin y t b) : (d >>= f).ReadsWithin (x ++ y) (enc ++ t) b where
  length_eq := by rw [List.length_append, hd.length_eq, hf.length_eq, Extent.length_append]
  ok suffix hle := by
    obtain ⟨hx, hy⟩ := Extent.need_append_le_iff.1 hle
    rw [List.append_assoc, run_bind_of_ok (hd.ok _ _), hf.ok suffix hy]
    rwa [List.length_append, hf.length_eq]
  error suffix hlt := by
    rw [List.append_assoc]
    -- Either the first part wants more than the second and what follows, or it is
    -- read, and the second wants more than what follows.
    by_cases hx : x.need ≤ (t ++ suffix).length
    · rw [run_bind_of_ok (hd.ok _ hx)]
      refine hf.error suffix (lt_of_not_ge fun hy => hlt.not_ge ?_)
      rw [List.length_append, hf.length_eq] at hx
      exact Extent.need_append_le_iff.2 ⟨hx, hy⟩
    · obtain ⟨e, he⟩ := hd.error _ (lt_of_not_ge hx)
      exact ⟨e, run_bind_of_error he⟩

/-- The value is built from what was read. -/
theorem ReadsWithin.map (hd : d.ReadsWithin x enc a) (f : α → β) :
    (d >>= fun a => pure (f a)).ReadsWithin x enc (f a) where
  length_eq := hd.length_eq
  ok suffix hle := by
    rw [run_bind_of_ok (hd.ok suffix hle)]
    rfl
  error suffix hlt :=
    let ⟨e, he⟩ := hd.error suffix hlt
    ⟨e, run_bind_of_error he⟩

/-- After a decoder that reads nothing. -/
theorem ReadsWithin.bind_nil {f : α → Decoder σ ε β} (hd : d.Reads [] a)
    (hf : (f a).ReadsWithin y t b) : (d >>= f).ReadsWithin y t b := by
  have h := hd.within.bind hf
  rwa [List.length_nil, Extent.plain_zero_append, List.nil_append] at h

/-- One decoder for each of a list of `c`s, one after the other. -/
theorem within_mapM {f : γ → Decoder σ ε α} {extent : γ → Extent} {value : γ → α} {cs : List γ}
    {encs : List (List σ)}
    (h : List.Forall₂ (fun c enc => (f c).ReadsWithin (extent c) enc (value c)) cs encs) :
    (cs.mapM f).ReadsWithin (.concat (cs.map extent)) encs.flatten (cs.map value) := by
  induction h with
  | nil => exact (reads_pure []).within
  | cons hc _ ih =>
    rw [List.mapM_cons]
    exact hc.bind (ih.map _)

theorem replicate_eq_mapM (d : Decoder σ ε α) (cs : List γ) :
    d.replicate cs.length = cs.mapM fun _ => d := by
  induction cs with
  | nil => rfl
  | cons c cs ih => rw [List.mapM_cons, List.length_cons, replicate, ih]

end Decoder

end Codec
