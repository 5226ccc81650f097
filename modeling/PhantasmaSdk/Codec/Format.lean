import PhantasmaSdk.Codec.Lawful

/-!
# Formats

A *format* is a lawful codec that any input may be given to: its decoder never
fails badly, asks for no more capacity than is left, and reads alike with more
input. Like the laws, this carries over from the fields to the record, also where
a field says how those after it are encoded (`Format.dep`): a tail that some values
have and others lack is a choice (`Format.ite`) between a format and no field at
all (`format_absent`).

What is encoded in a format is then refused when it is cut short
(`Format.refuse_short`), and no encoding begins another (`Format.append_inj`).
-/

namespace Codec

open Decoder

variable {σ ε α β γ : Type} {bad : ε → Prop}

/-- A lawful codec whose decoder is safe on any input, and steady. -/
structure Format (bad : ε → Prop) (encode : α → Except ε (List σ)) (decode : Decoder σ ε α)
    (Fits Exact : α → Prop) (minLength : ℕ) : Prop
    extends Lawful encode decode Fits Exact minLength where
  safe : ∀ input, decode.SafeOn bad input
  steady : decode.Steady bad

/-- A field that is not there, which has its default. -/
theorem format_absent (default : α) : Format bad (fun _ => .ok ([] : List σ)) (pure default)
    (fun a => a = default) (fun _ => True) 0 where
  reads a enc ha hw := by
    obtain rfl := Except.ok.inj hw
    exact ha ▸ reads_pure a
  yields := yields_pure ⟨rfl, [], rfl, fun _ => rfl⟩
  length_le _ _ _ := Nat.zero_le _
  safe input := safeOn_pure default input
  steady := steady_pure default

namespace Format

variable {encode : α → Except ε (List σ)} {decode : Decoder σ ε α} {Fits Exact : α → Prop}
  {encode' : β → Except ε (List σ)} {decode' : Decoder σ ε β} {Fits' Exact' : β → Prop}
  {minLength minLength' : ℕ}

/-- Where every value has one encoding, the laws and safety make a format. -/
theorem of_exact (h : Lawful encode decode Fits (fun _ => True) minLength)
    (hsafe : ∀ input, decode.SafeOn bad input) :
    Format bad encode decode Fits (fun _ => True) minLength :=
  ⟨h, hsafe, h.steady (fun _ => trivial) hsafe⟩

/-- A value, and then another whose format it says. -/
theorem dep (h : Format bad encode decode Fits Exact minLength)
    {encode' : α → β → Except ε (List σ)} {decode' : α → Decoder σ ε β} {Fits' Exact' : α → β → Prop}
    (h' : ∀ a, Format bad (encode' a) (decode' a) (Fits' a) (Exact' a) minLength') :
    Format bad
      (fun p : α × β => do
        let enc ← encode p.1
        let enc' ← encode' p.1 p.2
        pure (enc ++ enc'))
      (do let a ← decode; let b ← decode' a; pure (a, b))
      (fun p => Fits p.1 ∧ Fits' p.1 p.2) (fun p => Exact p.1 ∧ Exact' p.1 p.2)
      (minLength + minLength') where
  toLawful := h.toLawful.dep fun a => (h' a).toLawful
  safe input := (h.safe input).bind fun a => ((h' a).safe _).bind fun _ => safeOn_pure _ _
  steady := h.steady.bind fun a => (h' a).steady.bind fun _ => steady_pure _

/-- A value and then another. -/
theorem pair (h : Format bad encode decode Fits Exact minLength)
    (h' : Format bad encode' decode' Fits' Exact' minLength') :
    Format bad
      (fun p : α × β => do
        let enc ← encode p.1
        let enc' ← encode' p.2
        pure (enc ++ enc'))
      (do let a ← decode; let b ← decode'; pure (a, b))
      (fun p => Fits p.1 ∧ Fits' p.2) (fun p => Exact p.1 ∧ Exact' p.2)
      (minLength + minLength') :=
  h.dep fun _ => h'

/-- Another form of the same values. -/
theorem iso (h : Format bad encode decode Fits Exact minLength) (pack : α → γ) (unpack : γ → α)
    {encode'' : γ → Except ε (List σ)} {decode'' : Decoder σ ε γ} {Fits'' Exact'' : γ → Prop}
    (hencode : ∀ c, encode'' c = encode (unpack c))
    (hdecode : decode'' = (do let a ← decode; pure (pack a)))
    (hfits : ∀ c, Fits'' c ↔ Fits (unpack c)) (hexact : ∀ c, Exact'' c ↔ Exact (unpack c))
    (hpack : ∀ c, pack (unpack c) = c := by intro c; rfl)
    (hunpack : ∀ a, unpack (pack a) = a := by intro a; rfl) :
    Format bad encode'' decode'' Fits'' Exact'' minLength where
  toLawful := h.toLawful.iso pack unpack hencode hdecode hfits hexact hpack hunpack
  safe input := hdecode ▸ (h.safe input).bind fun _ => safeOn_pure _ _
  steady := hdecode ▸ h.steady.bind fun _ => steady_pure _

/-- One of two formats, by a condition. -/
theorem ite {encode' : α → Except ε (List σ)} {decode' : Decoder σ ε α} {Fits' Exact' : α → Prop}
    (c : Prop) [Decidable c] (h : Format bad encode decode Fits Exact minLength)
    (h' : Format bad encode' decode' Fits' Exact' minLength') :
    Format bad (fun a => if c then encode a else encode' a) (if c then decode else decode')
      (fun a => if c then Fits a else Fits' a) (fun a => if c then Exact a else Exact' a)
      (min minLength minLength') := by
  split
  next =>
    exact ⟨⟨h.reads, h.yields, fun a enc hw => (min_le_left _ _).trans (h.length_le a enc hw)⟩,
      h.safe, h.steady⟩
  next =>
    exact ⟨⟨h'.reads, h'.yields, fun a enc hw => (min_le_right _ _).trans (h'.length_le a enc hw)⟩,
      h'.safe, h'.steady⟩

/-- An encoding that is cut short is refused, and not badly. -/
theorem refuse_short (h : Format bad encode decode Fits Exact minLength) {a : α}
    {short more : List σ} (hfits : Fits a) (hw : encode a = .ok (short ++ more)) (hmore : more ≠ []) :
    ∃ e, decode.run short = .error e ∧ ¬bad e :=
  h.steady.refuse_short (h.reads a _ hfits hw).run_self hmore

/-- Values encoded one after the other are told apart: no encoding begins another. -/
theorem append_inj (h : Format bad encode decode Fits Exact minLength) {a a' : α}
    {enc enc' suffix suffix' : List σ} (hfits : Fits a) (hfits' : Fits a') (hw : encode a = .ok enc)
    (hw' : encode a' = .ok enc') (heq : enc ++ suffix = enc' ++ suffix') :
    a = a' ∧ suffix = suffix' :=
  (h.reads a enc hfits hw).append_inj (h.reads a' enc' hfits' hw') heq

end Format

end Codec
