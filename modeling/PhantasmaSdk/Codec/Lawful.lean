import PhantasmaSdk.Codec.Decoder

/-!
# Lawful codecs

An encoder and a decoder of the same values obey the *codec laws* when each
undoes the other as far as it can: what is encoded of a value that fits is read
back, and what is read fits and is encoded again, as it was read if the value is
*exact*, i.e., has one encoding. The laws carry over from the fields to the
record (`Lawful.pair`, `Lawful.iso`), which is how the codec of a record is
shown to be lawful: its encoder and its decoder are those of the tuple of its
fields.
-/

namespace Codec

open Decoder

variable {σ ε α β γ : Type}

/-- The codec laws, for the values that fit and those that are exact. No value is
    encoded in fewer than `minLength` symbols. -/
structure Lawful (encode : α → Except ε (List σ)) (decode : Decoder σ ε α)
    (Fits Exact : α → Prop) (minLength : ℕ) : Prop where
  reads : ∀ a enc, Fits a → encode a = .ok enc → decode.Reads enc a
  yields : decode.Yields fun a used => Fits a ∧ ∃ enc, encode a = .ok enc ∧ (Exact a → enc = used)
  length_le : ∀ a enc, encode a = .ok enc → minLength ≤ enc.length

namespace Lawful

variable {encode : α → Except ε (List σ)} {decode : Decoder σ ε α} {Fits Exact : α → Prop}
  {encode' : β → Except ε (List σ)} {decode' : Decoder σ ε β} {Fits' Exact' : β → Prop}
  {minLength minLength' : ℕ}

/-- Where every value is exact, what is read is what was encoded. -/
theorem run_eq_ok_iff (h : Lawful encode decode Fits Exact minLength) (hexact : ∀ a, Exact a)
    {input rest : List σ} {a : α} : decode.run input = .ok (a, rest) ↔
      Fits a ∧ ∃ enc, encode a = .ok enc ∧ input = enc ++ rest := by
  constructor
  · intro hrun
    obtain ⟨used, rfl, hfits, enc, henc, hused⟩ := h.yields _ _ _ hrun
    exact ⟨hfits, enc, henc, by rw [hused (hexact a)]⟩
  · rintro ⟨hfits, enc, henc, rfl⟩
    exact h.reads a enc hfits henc rest

/-- Where every value is exact, what is read of a prefix is read of the whole. -/
theorem steady {bad : ε → Prop} (h : Lawful encode decode Fits Exact minLength)
    (hexact : ∀ a, Exact a) (hsafe : ∀ input, decode.SafeOn bad input) : decode.Steady bad := by
  refine steady_of_reads h.yields (fun a used ha => ?_) hsafe
  obtain ⟨hfits, enc, henc, hused⟩ := ha
  exact hused (hexact a) ▸ h.reads a enc hfits henc

/-- A value, and then another whose codec it says: the laws hold of the pair. -/
theorem dep (h : Lawful encode decode Fits Exact minLength)
    {encode' : α → β → Except ε (List σ)} {decode' : α → Decoder σ ε β} {Fits' Exact' : α → β → Prop}
    (h' : ∀ a, Lawful (encode' a) (decode' a) (Fits' a) (Exact' a) minLength') :
    Lawful
      (fun p : α × β => do
        let enc ← encode p.1
        let enc' ← encode' p.1 p.2
        pure (enc ++ enc'))
      (do let a ← decode; let b ← decode' a; pure (a, b))
      (fun p => Fits p.1 ∧ Fits' p.1 p.2) (fun p => Exact p.1 ∧ Exact' p.1 p.2)
      (minLength + minLength') := by
  have hok : ∀ (p : α × β) {enc : List σ},
      (do let e ← encode p.1; let e' ← encode' p.1 p.2; pure (e ++ e') :
        Except ε (List σ)) = .ok enc →
        ∃ e e', encode p.1 = .ok e ∧ encode' p.1 p.2 = .ok e' ∧ e ++ e' = enc := by
    intro p enc hw
    cases h₁ : encode p.1 with
    | error _ => rw [h₁] at hw; cases hw
    | ok e =>
      cases h₂ : encode' p.1 p.2 with
      | error _ => rw [h₁, h₂] at hw; cases hw
      | ok e' =>
        rw [h₁, h₂] at hw
        exact ⟨e, e', rfl, rfl, Except.ok.inj hw⟩
  refine ⟨fun p enc hp hw => ?_, ?_, fun p enc hw => ?_⟩
  · obtain ⟨e, e', h₁, h₂, rfl⟩ := hok p hw
    exact (h.reads _ _ hp.1 h₁).bind (((h' p.1).reads _ _ hp.2 h₂).map _)
  · refine h.yields.bind fun a used ha => (h' a).yields.bind fun b used' hb => yields_pure ?_
    obtain ⟨hfits, e, he, hexact⟩ := ha
    obtain ⟨hfits', e', he', hexact'⟩ := hb
    refine ⟨⟨hfits, hfits'⟩, e ++ e', ?_, fun hp => ?_⟩
    · simp only [he, he']
      rfl
    · rw [hexact hp.1, hexact' hp.2, List.append_nil]
  · obtain ⟨e, e', h₁, h₂, rfl⟩ := hok p hw
    have := h.length_le _ _ h₁
    have := (h' p.1).length_le _ _ h₂
    rw [List.length_append]
    omega

/-- A value and then another: the laws hold of the pair. -/
theorem pair (h : Lawful encode decode Fits Exact minLength)
    (h' : Lawful encode' decode' Fits' Exact' minLength') :
    Lawful
      (fun p : α × β => do
        let enc ← encode p.1
        let enc' ← encode' p.2
        pure (enc ++ enc'))
      (do let a ← decode; let b ← decode'; pure (a, b))
      (fun p => Fits p.1 ∧ Fits' p.2) (fun p => Exact p.1 ∧ Exact' p.2)
      (minLength + minLength') :=
  h.dep fun _ => h'

/-- The laws carry over to another form of the same values, under other names of
    those that fit and of those that are exact. -/
theorem iso (h : Lawful encode decode Fits Exact minLength) (pack : α → γ) (unpack : γ → α)
    {encode'' : γ → Except ε (List σ)} {decode'' : Decoder σ ε γ} {Fits'' Exact'' : γ → Prop}
    (hencode : ∀ c, encode'' c = encode (unpack c))
    (hdecode : decode'' = (do let a ← decode; pure (pack a)))
    (hfits : ∀ c, Fits'' c ↔ Fits (unpack c)) (hexact : ∀ c, Exact'' c ↔ Exact (unpack c))
    (hpack : ∀ c, pack (unpack c) = c := by intro c; rfl)
    (hunpack : ∀ a, unpack (pack a) = a := by intro a; rfl) :
    Lawful encode'' decode'' Fits'' Exact'' minLength := by
  refine ⟨fun c enc hc hw => ?_, ?_, fun c enc hw => h.length_le _ _ (hencode c ▸ hw)⟩
  · rw [hencode] at hw
    rw [hdecode, ← hpack c]
    exact (h.reads _ _ ((hfits c).1 hc) hw).map pack
  · rw [hdecode]
    refine h.yields.bind fun a used ha => yields_pure ?_
    rw [hfits, hexact, hencode, hunpack, List.append_nil]
    exact ha

end Lawful

end Codec
