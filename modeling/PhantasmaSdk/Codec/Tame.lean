import PhantasmaSdk.Codec.Decoder

/-!
# Tame decoders and nesting

A decoder is *tame* if, on any input, it does not fail badly, leaves no more than it
is given, asks for no more capacity than its input is long, and is steady. (Asking
for more than is left where it asks is tame, other than safe.)

A format whose values nest is read by a decoder that calls itself, as many times
deep as a parameter says. Such a decoder is tame where its depth exceeds what the
input can make of it, and greater depths read alike: on input no longer than `n` it
*settles* (`Settles`). A call that is made after something was read settles on less,
which is what the induction on the depth is about. At a smaller depth it reads alike,
or is *cut* short (`Cut`): it fails for its depth, having asked for no more by then.
-/

namespace Codec.Decoder

variable {σ ε α β γ : Type} {bad : ε → Prop}

/-- On no input does `d` fail badly, leave more than it is given, or ask for more than
    that; and with more input it reads alike. -/
structure Tame (bad : ε → Prop) (d : Decoder σ ε α) : Prop where
  mild : ∀ {input : List σ} {e : ε}, d.run input = .error e → ¬bad e
  rest_le : ∀ {input rest : List σ} {a : α}, d.run input = .ok (a, rest) →
    rest.length ≤ input.length
  count_le : ∀ {input : List σ}, ∀ r ∈ d.requests input, r.count ≤ input.length
  steady : d.Steady bad

theorem tame_pure (a : α) : (pure a : Decoder σ ε α).Tame bad where
  mild h := nomatch h
  rest_le h := by
    obtain ⟨-, rfl⟩ := Prod.mk.inj (Except.ok.inj h)
    exact le_rfl
  count_le := by simp
  steady := steady_pure a

theorem tame_fail {e : ε} (h : ¬bad e) : (fail e : Decoder σ ε α).Tame bad where
  mild he := Except.error.inj he ▸ h
  rest_le h := nomatch h
  count_le := by simp
  steady := steady_fail e

theorem tame_lift {r : Except ε α} (h : ∀ e, r = .error e → ¬bad e) :
    (lift r : Decoder σ ε α).Tame bad := by
  cases r with
  | ok a => exact tame_pure a
  | error e => exact tame_fail (h e rfl)

theorem tame_take (count : ℕ) {short : ε} (h : ¬bad short) :
    (take count short : Decoder σ ε (List σ)).Tame bad where
  mild := (safeOn_take count h _).1 _
  rest_le hrun := by
    obtain ⟨used, rfl, -⟩ := yields_take count short _ _ _ hrun
    rw [List.length_append]
    exact Nat.le_add_left _ _
  count_le := by simp
  steady := steady_take count h

/-- The decoder asks for no capacity. -/
def Quiet (d : Decoder σ ε α) : Prop := ∀ input, d.requests input = []

theorem Quiet.bind {d : Decoder σ ε α} {f : α → Decoder σ ε β} (hd : d.Quiet)
    (hf : ∀ a, (f a).Quiet) : (d >>= f).Quiet := by
  intro input
  cases hrun : d.run input with
  | error e => rw [requests_bind_of_error hrun, hd]
  | ok p => rw [requests_bind_of_ok hrun, hd, hf, List.append_nil]

/-- A safe decoder that asks for no capacity is tame if it is steady. -/
theorem Quiet.tame {d : Decoder σ ε α} {P : α → List σ → Prop} (hq : d.Quiet)
    (hsafe : ∀ input, d.SafeOn bad input) (hy : d.Yields P) (hs : d.Steady bad) : d.Tame bad where
  mild := (hsafe _).1 _
  rest_le h := by
    obtain ⟨used, rfl, -⟩ := hy _ _ _ h
    rw [List.length_append]
    exact Nat.le_add_left _ _
  count_le {input} r hr := by
    rw [hq input] at hr
    cases hr
  steady := hs

/-- A tame decoder, and then one that is tame whatever the first reads. -/
theorem Tame.bind {d : Decoder σ ε α} {f : α → Decoder σ ε β} (hd : d.Tame bad)
    (hf : ∀ a, (f a).Tame bad) : (d >>= f).Tame bad where
  mild h := by
    rcases run_bind_eq_error.1 h with he | ⟨a, mid, -, he⟩
    · exact hd.mild he
    · exact (hf a).mild he
  rest_le h := by
    obtain ⟨a, mid, ha, hb⟩ := run_bind_eq_ok.1 h
    exact ((hf a).rest_le hb).trans (hd.rest_le ha)
  count_le {input} r hr := by
    cases hrun : d.run input with
    | error e =>
      rw [requests_bind_of_error hrun] at hr
      exact hd.count_le r hr
    | ok p =>
      obtain ⟨a, mid⟩ := p
      rw [requests_bind_of_ok hrun, List.mem_append] at hr
      rcases hr with hr | hr
      · exact hd.count_le r hr
      · exact ((hf a).count_le r hr).trans (hd.rest_le hrun)
  steady := hd.steady.bind fun a => (hf a).steady

theorem Tame.map {d : Decoder σ ε α} (hd : d.Tame bad) (pack : α → β) :
    (do let a ← d; pure (pack a) : Decoder σ ε β).Tame bad := hd.bind fun _ => tame_pure _

theorem Tame.replicate {d : Decoder σ ε α} (hd : d.Tame bad) (count : ℕ) :
    (d.replicate count).Tame bad := by
  induction count with
  | zero => exact tame_pure []
  | succ count ih => exact hd.bind fun a => ih.bind fun as => tame_pure _

/-- On input no longer than `n`, `d` reads as `d'` does, and does not fail badly, leave
    more than it is given or ask for more than `bound`. -/
structure Settles (bad : ε → Prop) (bound n : ℕ) (d d' : Decoder σ ε α) : Prop where
  run_eq : ∀ {input : List σ}, input.length ≤ n → d.run input = d'.run input
  requests_eq : ∀ {input : List σ}, input.length ≤ n → d.requests input = d'.requests input
  mild : ∀ {input : List σ} {e : ε}, input.length ≤ n → d.run input = .error e → ¬bad e
  rest_le : ∀ {input rest : List σ} {a : α}, input.length ≤ n → d.run input = .ok (a, rest) →
    rest.length ≤ input.length
  count_le : ∀ {input : List σ}, input.length ≤ n → ∀ r ∈ d.requests input, r.count ≤ bound

variable {bound n : ℕ} {d d' : Decoder σ ε α}

theorem Tame.settles (hd : d.Tame bad) (hn : n ≤ bound) : Settles bad bound n d d where
  run_eq _ := rfl
  requests_eq _ := rfl
  mild _ h := hd.mild h
  rest_le _ h := hd.rest_le h
  count_le hinput r hr := (hd.count_le r hr).trans (hinput.trans hn)

namespace Settles

theorem of_le (h : Settles bad bound n d d') {m : ℕ} (hm : m ≤ n) : Settles bad bound m d d' where
  run_eq hinput := h.run_eq (hinput.trans hm)
  requests_eq hinput := h.requests_eq (hinput.trans hm)
  mild hinput := h.mild (hinput.trans hm)
  rest_le hinput := h.rest_le (hinput.trans hm)
  count_le hinput := h.count_le (hinput.trans hm)

/-- Depth after depth: what reads as a decoder that settles does settles. -/
theorem trans {d'' : Decoder σ ε α} (h : Settles bad bound n d d') (h' : Settles bad bound n d' d'') :
    Settles bad bound n d d'' where
  run_eq hinput := (h.run_eq hinput).trans (h'.run_eq hinput)
  requests_eq hinput := (h.requests_eq hinput).trans (h'.requests_eq hinput)
  mild := h.mild
  rest_le := h.rest_le
  count_le := h.count_le

/-- What follows settles on what is left. -/
theorem bind {f f' : α → Decoder σ ε β} (hd : Settles bad bound n d d')
    (hf : ∀ {input mid : List σ} {a : α}, input.length ≤ n → d.run input = .ok (a, mid) →
      Settles bad bound mid.length (f a) (f' a)) : Settles bad bound n (d >>= f) (d' >>= f') where
  run_eq {input} hinput := by
    have heq := hd.run_eq hinput
    cases hrun : d.run input with
    | error e => rw [run_bind_of_error hrun, run_bind_of_error (heq ▸ hrun)]
    | ok p =>
      obtain ⟨a, mid⟩ := p
      rw [run_bind_of_ok hrun, run_bind_of_ok (heq ▸ hrun), (hf hinput hrun).run_eq le_rfl]
  requests_eq {input} hinput := by
    have heq := hd.run_eq hinput
    cases hrun : d.run input with
    | error e =>
      rw [requests_bind_of_error hrun, requests_bind_of_error (heq ▸ hrun), hd.requests_eq hinput]
    | ok p =>
      obtain ⟨a, mid⟩ := p
      rw [requests_bind_of_ok hrun, requests_bind_of_ok (heq ▸ hrun), hd.requests_eq hinput,
        (hf hinput hrun).requests_eq le_rfl]
  mild hinput h := by
    rcases run_bind_eq_error.1 h with he | ⟨a, mid, ha, he⟩
    · exact hd.mild hinput he
    · exact (hf hinput ha).mild le_rfl he
  rest_le hinput h := by
    obtain ⟨a, mid, ha, hb⟩ := run_bind_eq_ok.1 h
    exact ((hf hinput ha).rest_le le_rfl hb).trans (hd.rest_le hinput ha)
  count_le {input} hinput r hr := by
    cases hrun : d.run input with
    | error e =>
      rw [requests_bind_of_error hrun] at hr
      exact hd.count_le hinput r hr
    | ok p =>
      obtain ⟨a, mid⟩ := p
      rw [requests_bind_of_ok hrun, List.mem_append] at hr
      rcases hr with hr | hr
      · exact hd.count_le hinput r hr
      · exact (hf hinput hrun).count_le le_rfl r hr

/-- What follows settles, whatever is left. -/
theorem bind_of_le {f f' : α → Decoder σ ε β} (hd : Settles bad bound n d d')
    (hf : ∀ a, Settles bad bound n (f a) (f' a)) : Settles bad bound n (d >>= f) (d' >>= f') :=
  hd.bind fun hinput hrun => (hf _).of_le ((hd.rest_le hinput hrun).trans hinput)

theorem map (hd : Settles bad bound n d d') (hn : n ≤ bound) (pack : α → β) :
    Settles bad bound n (do let a ← d; pure (pack a)) (do let a ← d'; pure (pack a)) :=
  hd.bind_of_le fun a => (tame_pure (pack a)).settles hn

theorem replicate (hd : Settles bad bound n d d') (hn : n ≤ bound) (count : ℕ) :
    Settles bad bound n (d.replicate count) (d'.replicate count) := by
  induction count with
  | zero => exact (tame_pure []).settles hn
  | succ count ih => exact hd.bind_of_le fun a => ih.map hn fun as => a :: as

theorem mapM {f f' : γ → Decoder σ ε α} (hn : n ≤ bound) {cs : List γ}
    (hf : ∀ c ∈ cs, Settles bad bound n (f c) (f' c)) :
    Settles bad bound n (cs.mapM f) (cs.mapM f') := by
  induction cs with
  | nil =>
    rw [List.mapM_nil, List.mapM_nil]
    exact (tame_pure []).settles hn
  | cons c cs ih =>
    rw [List.mapM_cons, List.mapM_cons]
    exact (hf c List.mem_cons_self).bind_of_le fun a =>
      (ih fun c hc => hf c (List.mem_cons_of_mem _ hc)).map hn fun as => a :: as

end Settles

/-- From a depth that input no longer than `n` can make use of, all depths read alike. -/
theorem settles_deep {d : ℕ → Decoder σ ε α} {reach : ℕ → ℕ}
    (h : ∀ {bound n depth : ℕ}, n ≤ bound → n < reach depth →
      Settles bad bound n (d depth) (d (depth + 1)))
    (hmono : Monotone reach) {n depth : ℕ} (hdepth : n < reach depth) (more : ℕ) :
    Settles bad n n (d depth) (d (depth + more)) := by
  induction more with
  | zero =>
    have hstep := h (le_refl n) hdepth
    exact ⟨fun _ => rfl, fun _ => rfl, hstep.mild, hstep.rest_le, hstep.count_le⟩
  | succ more ih =>
    exact ih.trans (h le_rfl (hdepth.trans_le (hmono (Nat.le_add_right depth more))))

/-- A decoder that is given the depth its input can make use of is tame. -/
theorem tame_of_settles {d : ℕ → Decoder σ ε α} {reach : ℕ → ℕ}
    (h : ∀ {bound n depth : ℕ}, n ≤ bound → n < reach depth →
      Settles bad bound n (d depth) (d (depth + 1)))
    (hmono : Monotone reach) (hreach : ∀ n, n < reach (n + 1))
    (hs : ∀ depth, (d depth).Steady bad) :
    Tame bad fun input => d (input.length + 1) input := by
  have hdeep : ∀ (more n : ℕ), Settles bad n n (d (n + 1)) (d (n + 1 + more)) :=
    fun more n => settles_deep (d := d) h hmono (hreach n) more
  refine ⟨fun {input _} he => (hdeep 0 input.length).mild le_rfl he,
    fun {input _ _} he => (hdeep 0 input.length).rest_le le_rfl he,
    fun {input} => (hdeep 0 input.length).count_le le_rfl, ?_, ?_⟩
  · intro input rest a hrun more
    have heq := (hdeep more.length input.length).run_eq (le_refl input.length)
    have hsteady := (hs (input.length + 1 + more.length)).ok (heq.symm.trans hrun) more
    rw [show input.length + 1 + more.length = (input ++ more).length + 1 by
      rw [List.length_append]; omega] at hsteady
    exact hsteady
  · intro input e hrun hbad
    exact absurd hbad ((hdeep 0 input.length).mild le_rfl hrun)

/-! ## Less depth -/

/-- On any input, `d` fails with `e` or reads as `d'` does, and asks for nothing that `d'`
    does not ask for. -/
structure Cut (e : ε) (d d' : Decoder σ ε α) : Prop where
  run : ∀ input, d.run input = .error e ∨ d.run input = d'.run input
  requests_subset : ∀ input, d.requests input ⊆ d'.requests input

namespace Cut

variable {e : ε} {d'' : Decoder σ ε α}

theorem refl (e : ε) (d : Decoder σ ε α) : Cut e d d where
  run _ := .inr rfl
  requests_subset _ := List.Subset.refl _

theorem fail (e : ε) (d' : Decoder σ ε α) : Cut e (Decoder.fail e) d' where
  run _ := .inl rfl
  requests_subset input := by simp

theorem trans (h : Cut e d d') (h' : Cut e d' d'') : Cut e d d'' where
  run input := by
    rcases h.run input with herror | heq
    · exact .inl herror
    · rw [heq]
      exact h'.run input
  requests_subset input := List.Subset.trans (h.requests_subset input) (h'.requests_subset input)

theorem bind {f f' : α → Decoder σ ε β} (hd : Cut e d d') (hf : ∀ a, Cut e (f a) (f' a)) :
    Cut e (d >>= f) (d' >>= f') where
  run input := by
    rcases hd.run input with herror | heq
    · exact .inl (run_bind_of_error herror)
    · cases hrun : d.run input with
      | error e' => exact .inr (by rw [run_bind_of_error hrun, run_bind_of_error (heq ▸ hrun)])
      | ok p =>
        obtain ⟨a, mid⟩ := p
        rw [run_bind_of_ok hrun, run_bind_of_ok (heq ▸ hrun)]
        exact (hf a).run mid
  requests_subset input := by
    have hfirst := hd.requests_subset input
    have hbefore : d'.requests input ⊆ (d' >>= f').requests input := by
      cases hrun : d'.run input with
      | error e' => rw [requests_bind_of_error hrun]; exact List.Subset.refl _
      | ok p => rw [requests_bind_of_ok hrun]; exact List.subset_append_left _ _
    cases hrun : d.run input with
    | error e' =>
      rw [requests_bind_of_error hrun]
      exact List.Subset.trans hfirst hbefore
    | ok p =>
      -- What is read is what `d'` reads.
      obtain ⟨a, mid⟩ := p
      have hrun' : d'.run input = .ok (a, mid) := by
        rcases hd.run input with herror | heq
        · rw [hrun] at herror
          cases herror
        · rw [← heq, hrun]
      rw [requests_bind_of_ok hrun, requests_bind_of_ok hrun']
      exact List.append_subset.2 ⟨List.Subset.trans hfirst (List.subset_append_left _ _),
        List.Subset.trans ((hf a).requests_subset mid) (List.subset_append_right _ _)⟩

theorem map (hd : Cut e d d') (pack : α → β) :
    Cut e (do let a ← d; pure (pack a)) (do let a ← d'; pure (pack a)) := hd.bind fun _ => refl e _

theorem replicate (hd : Cut e d d') (count : ℕ) : Cut e (d.replicate count) (d'.replicate count) := by
  induction count with
  | zero => exact refl e _
  | succ count ih => exact hd.bind fun a => ih.map fun as => a :: as

theorem mapM {f f' : γ → Decoder σ ε α} {cs : List γ} (hf : ∀ c ∈ cs, Cut e (f c) (f' c)) :
    Cut e (cs.mapM f) (cs.mapM f') := by
  induction cs with
  | nil => exact refl e _
  | cons c cs ih =>
    rw [List.mapM_cons, List.mapM_cons]
    exact (hf c List.mem_cons_self).bind fun a =>
      (ih fun c hc => hf c (List.mem_cons_of_mem _ hc)).map fun as => a :: as

end Cut

/-- `d` reads as `whole` does, at any depth, or is cut short with `e`; at a depth that
    input of some length cannot make use of, it is not cut short on input of that length. -/
structure Deepens (bad : ε → Prop) (e : ε) (reach : ℕ → ℕ) (d : ℕ → Decoder σ ε α)
    (whole : Decoder σ ε α) : Prop where
  tame : whole.Tame bad
  steady : ∀ depth, (d depth).Steady bad
  cut : ∀ depth, Cut e (d depth) whole
  run_eq : ∀ {depth : ℕ} {input : List σ}, input.length < reach depth →
    (d depth).run input = whole.run input

theorem Tame.deepens (hd : d.Tame bad) (e : ε) (reach : ℕ → ℕ) :
    Deepens bad e reach (fun _ => d) d where
  tame := hd
  steady _ := hd.steady
  cut _ := .refl e d
  run_eq _ := rfl

namespace Deepens

variable {e : ε} {reach : ℕ → ℕ} {d : ℕ → Decoder σ ε α} {whole : Decoder σ ε α}

/-- A decoder that calls itself, as many times deep as its input can make it. -/
theorem of_settles (h : ∀ {bound n depth : ℕ}, n ≤ bound → n < reach depth →
      Settles bad bound n (d depth) (d (depth + 1)))
    (hmono : Monotone reach) (hreach : ∀ n, n < reach (n + 1))
    (hs : ∀ depth, (d depth).Steady bad) (hcut : ∀ depth, Cut e (d depth) (d (depth + 1))) :
    Deepens bad e reach d fun input => d (input.length + 1) input where
  tame := tame_of_settles h hmono hreach hs
  steady := hs
  cut depth := by
    have hless : ∀ more, Cut e (d depth) (d (depth + more)) := by
      intro more
      induction more with
      | zero => exact .refl e _
      | succ more ih => exact ih.trans (hcut _)
    -- a depth that is no less than the one given, nor than the one that is enough
    refine ⟨fun input => ?_, fun input => ?_⟩
    · have hdeep := (settles_deep (d := d) h hmono (hreach input.length) depth).run_eq le_rfl
      rw [add_comm _ depth] at hdeep
      exact ((hless _).run input).imp_right fun heq => heq.trans hdeep.symm
    · have hdeep := (settles_deep (d := d) h hmono (hreach input.length) depth).requests_eq le_rfl
      rw [add_comm _ depth] at hdeep
      have hsub := (hless (input.length + 1)).requests_subset input
      rw [← hdeep] at hsub
      exact hsub
  run_eq {depth input} hlt := by
    have hdeep := (settles_deep (d := d) h hmono (hreach input.length) depth).run_eq le_rfl
    have hown := (settles_deep (d := d) h hmono hlt (input.length + 1)).run_eq le_rfl
    rw [add_comm _ depth] at hdeep
    exact hown.trans hdeep.symm

/-- What follows is read at the same depth, off no more input. -/
theorem bind {f : ℕ → α → Decoder σ ε β} {g : α → Decoder σ ε β} (hd : Deepens bad e reach d whole)
    (hf : ∀ a, Deepens bad e reach (fun depth => f depth a) (g a)) :
    Deepens bad e reach (fun depth => d depth >>= f depth) (whole >>= g) where
  tame := hd.tame.bind fun a => (hf a).tame
  steady depth := (hd.steady depth).bind fun a => (hf a).steady depth
  cut depth := (hd.cut depth).bind fun a => (hf a).cut depth
  run_eq {depth input} hlt := by
    have heq := hd.run_eq hlt
    cases hrun : whole.run input with
    | error e => rw [run_bind_of_error hrun, run_bind_of_error (heq.trans hrun)]
    | ok p =>
      obtain ⟨a, mid⟩ := p
      have hmid := hd.tame.rest_le hrun
      rw [run_bind_of_ok hrun, run_bind_of_ok (heq.trans hrun)]
      exact (hf a).run_eq (hmid.trans_lt hlt)

theorem map (hd : Deepens bad e reach d whole) (pack : α → β) :
    Deepens bad e reach (fun depth => do let a ← d depth; pure (pack a))
      (do let a ← whole; pure (pack a)) :=
  hd.bind fun a => (tame_pure (pack a)).deepens e reach

/-- Something else is read first. -/
theorem after {first : Decoder σ ε γ} {f : ℕ → γ → Decoder σ ε α} {g : γ → Decoder σ ε α}
    (hfirst : first.Tame bad) (hf : ∀ c, Deepens bad e reach (fun depth => f depth c) (g c)) :
    Deepens bad e reach (fun depth => first >>= f depth) (first >>= g) :=
  (hfirst.deepens e reach).bind hf

/-- It fails badly only for its depth, on input that is long enough. -/
theorem eq_of_bad (h : Deepens bad e reach d whole) {depth : ℕ} {input : List σ} {e' : ε}
    (hrun : (d depth).run input = .error e') (hbad : bad e') :
    e' = e ∧ reach depth ≤ input.length := by
  have hwhole : whole.run input ≠ .error e' := fun hw => h.tame.mild hw hbad
  refine ⟨?_, not_lt.1 fun hlt => hwhole (h.run_eq hlt ▸ hrun)⟩
  rcases (h.cut depth).run input with herror | heq
  · exact Except.error.inj (hrun.symm.trans herror)
  · exact absurd (heq ▸ hrun) hwhole

theorem count_le (h : Deepens bad e reach d whole) {depth : ℕ} {input : List σ} :
    ∀ r ∈ (d depth).requests input, r.count ≤ input.length :=
  fun r hr => h.tame.count_le r ((h.cut depth).requests_subset input hr)

end Deepens

theorem Steady.mapM {f : γ → Decoder σ ε α} {cs : List γ} (hf : ∀ c ∈ cs, (f c).Steady bad) :
    (cs.mapM f : Decoder σ ε (List α)).Steady bad := by
  induction cs with
  | nil =>
    rw [List.mapM_nil]
    exact steady_pure []
  | cons c cs ih =>
    rw [List.mapM_cons]
    exact (hf c List.mem_cons_self).bind fun a =>
      (ih fun c hc => hf c (List.mem_cons_of_mem _ hc)).bind fun as => steady_pure _

end Codec.Decoder
