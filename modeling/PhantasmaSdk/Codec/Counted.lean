import PhantasmaSdk.Codec.Decoder

/-!
# Counting decoders

A decoder may count, along its run, how often it does something. Forgetting the count
it is a decoder as any other (`Counts`). It is *paced* when it counts no more than it
reads, and one more if it fails: whatever it is told to repeat, it is done when its
input is.
-/

namespace Codec

variable {σ ε α β : Type}

/-- A decoder that counts: what it reads, or an error, and the count. -/
def Counted (σ ε α : Type) := List σ → Except ε (α × List σ) × ℕ

namespace Counted

def result (d : Counted σ ε α) (input : List σ) : Except ε (α × List σ) := (d input).1

def count (d : Counted σ ε α) (input : List σ) : ℕ := (d input).2

protected def pure (a : α) : Counted σ ε α := fun input => (.ok (a, input), 0)

protected def bind (d : Counted σ ε α) (f : α → Counted σ ε β) : Counted σ ε β := fun input =>
  match d input with
  | (.ok (a, rest), n) => ((f a rest).1, n + (f a rest).2)
  | (.error e, n) => (.error e, n)

instance : Monad (Counted σ ε) where
  pure := Counted.pure
  bind := Counted.bind

/-- A decoder that counts nothing. -/
def uncounted (d : Decoder σ ε α) : Counted σ ε α := fun input => (d.run input, 0)

/-- Counts one, besides what the decoder counts. -/
def tick (d : Counted σ ε α) : Counted σ ε α := fun input => ((d input).1, (d input).2 + 1)

def replicate (d : Counted σ ε α) : ℕ → Counted σ ε (List α)
  | 0 => pure []
  | n + 1 => do
    let a ← d
    let as ← replicate d n
    pure (a :: as)

@[simp] theorem result_pure (a : α) (input : List σ) :
    (pure a : Counted σ ε α).result input = .ok (a, input) := rfl

@[simp] theorem count_pure (a : α) (input : List σ) :
    (pure a : Counted σ ε α).count input = 0 := rfl

@[simp] theorem result_tick (d : Counted σ ε α) (input : List σ) :
    d.tick.result input = d.result input := rfl

@[simp] theorem count_tick (d : Counted σ ε α) (input : List σ) :
    d.tick.count input = d.count input + 1 := rfl

variable {c : Counted σ ε α} {f : α → Counted σ ε β} {d : Decoder σ ε α} {input rest : List σ}

theorem result_bind_of_ok {a : α} (h : c.result input = .ok (a, rest)) :
    (c >>= f).result input = (f a).result rest ∧
      (c >>= f).count input = c.count input + (f a).count rest := by
  change (c.bind f input).1 = _ ∧ (c.bind f input).2 = _
  rw [Counted.bind, show c input = (.ok (a, rest), c.count input) from Prod.ext h rfl]
  exact ⟨rfl, rfl⟩

theorem result_bind_of_error {e : ε} (h : c.result input = .error e) :
    (c >>= f).result input = .error e ∧ (c >>= f).count input = c.count input := by
  change (c.bind f input).1 = _ ∧ (c.bind f input).2 = _
  rw [Counted.bind, show c input = (.error e, c.count input) from Prod.ext h rfl]
  exact ⟨rfl, rfl⟩

/-! ## Forgetting the count -/

/-- The count forgotten, it is the decoder. -/
def Counts (c : Counted σ ε α) (d : Decoder σ ε α) : Prop :=
  ∀ input, c.result input = d.run input

theorem counts_uncounted (d : Decoder σ ε α) : (uncounted d).Counts d := fun _ => rfl

theorem counts_pure (a : α) : (pure a : Counted σ ε α).Counts (pure a) := fun _ => rfl

theorem Counts.tick (h : c.Counts d) : c.tick.Counts d := h

theorem Counts.bind {g : α → Decoder σ ε β} (h : c.Counts d) (hf : ∀ a, (f a).Counts (g a)) :
    (c >>= f).Counts (d >>= g) := by
  intro input
  match hrun : d.run input with
  | .ok (a, rest) =>
    rw [(result_bind_of_ok ((h input).trans hrun)).1, Decoder.run_bind_of_ok hrun, hf a rest]
  | .error e =>
    rw [(result_bind_of_error ((h input).trans hrun)).1, Decoder.run_bind_of_error hrun]

theorem Counts.replicate (h : c.Counts d) (n : ℕ) : (c.replicate n).Counts (d.replicate n) := by
  induction n with
  | zero => exact counts_pure []
  | succ n ih => exact h.bind fun a => ih.bind fun as => counts_pure _

/-! ## Pace -/

/-- What is counted is at most what is read, and one more where nothing is. -/
structure Paced (c : Counted σ ε α) : Prop where
  ok : ∀ {input rest : List σ} {a : α}, c.result input = .ok (a, rest) →
    rest.length + c.count input ≤ input.length
  error : ∀ {input : List σ} {e : ε}, c.result input = .error e →
    c.count input ≤ input.length + 1

theorem paced_pure (a : α) : (pure a : Counted σ ε α).Paced where
  ok h := by
    obtain ⟨rfl, rfl⟩ := Prod.mk.inj (Except.ok.inj h)
    exact le_rfl
  error := nofun

/-- A decoder reads a part of its input off the front, and counts nothing. -/
theorem paced_uncounted {P : α → List σ → Prop} (h : d.Yields P) : (uncounted d).Paced where
  ok hrun := by
    obtain ⟨used, rfl, -⟩ := h _ _ _ hrun
    simp [count, uncounted]
  error _ := Nat.zero_le _

theorem Paced.bind (h : c.Paced) (hf : ∀ a, (f a).Paced) : (c >>= f).Paced where
  ok {input rest b} hrun := by
    match hfirst : c.result input with
    | .ok (a, mid) =>
      obtain ⟨hresult, hcount⟩ := result_bind_of_ok (f := f) hfirst
      have hmid := h.ok hfirst
      have hrest := (hf a).ok (hresult.symm.trans hrun)
      rw [hcount]
      omega
    | .error e => exact nomatch (result_bind_of_error (f := f) hfirst).1.symm.trans hrun
  error {input e} hrun := by
    match hfirst : c.result input with
    | .ok (a, mid) =>
      obtain ⟨hresult, hcount⟩ := result_bind_of_ok (f := f) hfirst
      have hmid := h.ok hfirst
      have hrest := (hf a).error (hresult.symm.trans hrun)
      rw [hcount]
      omega
    | .error e =>
      rw [(result_bind_of_error (f := f) hfirst).2]
      exact h.error hfirst

theorem Paced.replicate (h : c.Paced) (n : ℕ) : (c.replicate n).Paced := by
  induction n with
  | zero => exact paced_pure []
  | succ n ih => exact h.bind fun a => ih.bind fun as => paced_pure _

theorem paced_tick_fail (e : ε) : (uncounted (Decoder.fail e : Decoder σ ε α)).tick.Paced where
  ok h := nomatch h
  error _ := Nat.succ_le_succ (Nat.zero_le _)

/-- One may be counted for a decoder that reads something first. -/
theorem Paced.tick_bind (hd : d.Yields fun _ used => 0 < used.length) (hf : ∀ a, (f a).Paced) :
    (uncounted d >>= f).tick.Paced where
  ok {input rest b} hrun := by
    match hfirst : d.run input with
    | .ok (a, mid) =>
      obtain ⟨hresult, hcount⟩ := result_bind_of_ok (c := uncounted d) (f := f) hfirst
      obtain ⟨used, rfl, hpos⟩ := hd _ _ _ hfirst
      have hrest := (hf a).ok (hresult.symm.trans hrun)
      rw [count_tick, hcount, List.length_append, count, uncounted]
      omega
    | .error e =>
      exact nomatch (result_bind_of_error (c := uncounted d) (f := f) hfirst).1.symm.trans hrun
  error {input e} hrun := by
    match hfirst : d.run input with
    | .ok (a, mid) =>
      obtain ⟨hresult, hcount⟩ := result_bind_of_ok (c := uncounted d) (f := f) hfirst
      obtain ⟨used, rfl, hpos⟩ := hd _ _ _ hfirst
      have hrest := (hf a).error (hresult.symm.trans hrun)
      rw [count_tick, hcount, List.length_append, count, uncounted]
      omega
    | .error e =>
      rw [count_tick, (result_bind_of_error (c := uncounted d) (f := f) hfirst).2, count, uncounted]
      omega

end Counted

end Codec
