import PhantasmaSdk.Codec.Decoder

/-!
# Framings

A *form* of a value is a list of symbols that a decoder reads the value off, leaving
nothing over. A decoder may accept several forms of a value. An encoder *frames* the
values if it writes each of them in its shortest form, and no form, whether written or
not, begins another (`Framing`): a framed value can be followed by anything.

A framing is shown by listing the forms (`Framing.of_forms`). Where forms follow each
other, the shortest ones are together the shortest (`NoLonger.append`).
-/

namespace Codec

variable {σ ε α : Type}

/-! ## Lengths -/

/-- `enc` is the given list of symbols, or shorter. -/
def NoLonger (enc form : List σ) : Prop := form = enc ∨ enc.length < form.length

namespace NoLonger

variable {enc enc' form form' : List σ}

theorem refl (enc : List σ) : NoLonger enc enc := .inl rfl

theorem length_le (h : NoLonger enc form) : enc.length ≤ form.length := by
  rcases h with rfl | h
  · exact le_rfl
  · exact h.le

theorem append (h : NoLonger enc form) (h' : NoLonger enc' form') :
    NoLonger (enc ++ enc') (form ++ form') := by
  have hle := h.length_le
  have hle' := h'.length_le
  rcases h with rfl | h
  · rcases h' with rfl | h'
    · exact .refl _
    · exact .inr (by simpa using h')
  · exact .inr (by rw [List.length_append, List.length_append]; omega)

theorem flatten {encs forms : List (List σ)} (h : List.Forall₂ NoLonger encs forms) :
    NoLonger encs.flatten forms.flatten := by
  induction h with
  | nil => exact .refl _
  | cons h _ ih => exact h.append ih

end NoLonger

/-! ## Forms -/

namespace Decoder

/-- `a` is what `d` reads off `form`, leaving nothing over. -/
def IsForm (d : Decoder σ ε α) (form : List σ) (a : α) : Prop := d.run form = .ok (a, [])

variable {d : Decoder σ ε α} {P : α → List σ → Prop}

theorem Reads.isForm {form : List σ} {a : α} (h : d.Reads form a) : d.IsForm form a := h.run_self

/-- The forms are those listed, if `d` reads values off these and yields no others. -/
theorem isForm_iff (hreads : ∀ a form, P a form → d.Reads form a) (hyields : d.Yields P)
    {form : List σ} {a : α} : d.IsForm form a ↔ P a form := by
  constructor
  · intro h
    obtain ⟨used, rfl, hP⟩ := hyields _ _ _ h
    rwa [List.append_nil]
  · exact fun h => (hreads a form h).isForm

end Decoder

open Decoder

/-- Each value is written in its shortest form, and no form begins another. -/
structure Framing (encode : α → List σ) (decode : Decoder σ ε α) : Prop where
  reads : ∀ a, decode.Reads (encode a) a
  /-- Any other form of the value is longer. -/
  shortest : ∀ a form, decode.IsForm form a → form = encode a ∨ (encode a).length < form.length
  prefix_free : ∀ a a' form form', decode.IsForm form a → decode.IsForm form' a' →
    form <+: form' → form = form'

namespace Framing

variable {encode : α → List σ} {decode : Decoder σ ε α}

/-- A framing, by the list `P` of the forms: they are what the decoder reads, and what is
    written of a value is the shortest of its forms. -/
theorem of_forms {P : α → List σ → Prop} (hreads : ∀ a form, P a form → decode.Reads form a)
    (hyields : decode.Yields P) (hencode : ∀ a, P a (encode a))
    (hshortest : ∀ a form, P a form → form = encode a ∨ (encode a).length < form.length) :
    Framing encode decode where
  reads a := hreads a _ (hencode a)
  shortest a form h := hshortest a form ((isForm_iff hreads hyields).1 h)
  prefix_free a a' form form' h h' hbegins := by
    obtain ⟨more, rfl⟩ := hbegins
    have hform := hreads a form ((isForm_iff hreads hyields).1 h)
    have hform' := hreads a' _ ((isForm_iff hreads hyields).1 h')
    -- The second form is read as the first, which leaves the more over.
    obtain ⟨-, hmore⟩ := hform.append_inj hform' (List.append_nil (form ++ more)).symm
    rw [hmore, List.append_nil]

/-- Values that are framed are the same if what is written of one begins what is written
    of the other. -/
theorem eq_of_prefix (h : Framing encode decode) {a a' : α} (hbegins : encode a <+: encode a') :
    a = a' := by
  have heq := h.prefix_free a a' _ _ (h.reads a).isForm (h.reads a').isForm hbegins
  exact ((h.reads a).append_inj (h.reads a') (congrArg (· ++ []) heq)).1

end Framing

end Codec
