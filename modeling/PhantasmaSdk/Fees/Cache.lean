import PhantasmaSdk.Fees.Config
import PhantasmaSdk.Machine.Run

/-!
# The planner's cache

A client and its clones share one slot for the gas config. A read looks at the slot
and, unless it finds a config that has not expired, asks the node, makes an entry of
the answer, and writes it to the slot. Between these steps other reads go on and the
cache is invalidated: an answer may come, and be written, long after its request was
sent.

`step` is one step of one read or of a caller, and a run any interleaving of them. A
config is *fresh* for a read if its request was sent no earlier than any invalidation
that came before the read, and than the request of any refresh that ended before it.
All reads of a run are fresh, and will be whoever asks next, exactly when every entry
that is written is as fresh as a read beginning there would want it
(`fresh_iff`): nothing in the code sees to that.
-/

namespace PhantasmaSdk

open Machine

/-! ## Entries -/

/-- What the planner takes from an answer besides the prices, in milliseconds. -/
structure ChainFeeParams where
  expiryWindow : ℕ
  blockRateTarget : ℕ
  gasModelVersion : UInt32
  deriving DecidableEq, Repr

/-- An entry of the cache, `fetchedAt` being an instant. -/
structure CachedGasConfig where
  config : GasConfig
  params : ChainFeeParams
  fetchedAt : ℕ
  deriving DecidableEq, Repr

/-- The entry made of an answer at an instant. -/
def GasConfigResult.entry (result : GasConfigResult) (now : ℕ) : Result CachedGasConfig := do
  let config ← result.toGasConfig
  pure {
    config
    params := {
      expiryWindow := result.expiryWindow.toNat
      blockRateTarget := result.blockRateTarget.toNat
      gasModelVersion := result.gasModelVersion }
    fetchedAt := now }

namespace FeePlanner

/-! ## Reads -/

/-- Where a read is. What it holds of the node's is told by the step at which its
    request was sent. -/
inductive Phase
  /-- It has not looked at the slot. -/
  | called
  /-- It is about to ask the node. -/
  | missed
  /-- The answer is outstanding. -/
  | awaiting (sentAt : ℕ)
  /-- The entry is made and not yet written. -/
  | fetched (sentAt : ℕ) (entry : CachedGasConfig)
  | returned (sentAt : ℕ) (entry : CachedGasConfig)
  | failed (fault : Fault)
  deriving DecidableEq, Repr

/-- A read, by a client with the given time to live. (`floors` is for the record: what
    its config has to be as new as.) -/
structure Read where
  refresh : Bool
  ttl : ℕ
  phase : Phase := .called
  floors : List ℕ
  deriving DecidableEq, Repr

/-- The slot the clients share, and their reads. (For the record: the step at which
    the request of the entry in the slot was sent, the number of steps so far, the
    steps of the invalidations and of the requests of the refreshes that ended.) -/
structure Cache where
  now : ℕ := 0
  slot : Option (ℕ × CachedGasConfig) := none
  reads : List Read := []
  steps : ℕ := 0
  floors : List ℕ := []
  deriving DecidableEq, Repr

inductive Action
  /-- `config`, `chain_params` or `plan` is called. -/
  | call (refresh : Bool) (ttl : ℕ)
  | look (i : ℕ)
  | send (i : ℕ)
  | answer (i : ℕ) (result : Result GasConfigResult)
  | store (i : ℕ)
  | invalidate
  | pass (duration : ℕ)
  deriving DecidableEq, Repr

/-- The read goes on to the next phase. -/
def Cache.move (s : Cache) (i : ℕ) (phase : Phase) : Cache :=
  { s with reads := s.reads.modify i fun r => { r with phase }, steps := s.steps + 1 }

/-- What a read without `refresh` makes of the slot: an entry that has not expired is
    returned. -/
def Cache.lookup (s : Cache) (ttl : ℕ) : Phase :=
  match s.slot with
  | some (sentAt, cached) =>
    if s.now - cached.fetchedAt < ttl then .returned sentAt cached else .missed
  | none => .missed

/-- The phase the answer of the node leads to. -/
def Cache.fetch (s : Cache) (sentAt : ℕ) (result : Result GasConfigResult) : Phase :=
  match result with
  | .error fault => .failed fault
  | .ok result =>
    match result.entry s.now with
    | .error fault => .failed fault
    | .ok entry => .fetched sentAt entry

def step (s : Cache) : Action → Option Cache
  | .call refresh ttl =>
    some { s with reads := s.reads ++ [{ refresh, ttl, floors := s.floors }], steps := s.steps + 1 }
  | .look i =>
    match s.reads[i]? with
    | some ⟨refresh, ttl, .called, _⟩ =>
      some (s.move i (if refresh then .missed else s.lookup ttl))
    | _ => none
  | .send i =>
    match s.reads[i]? with
    | some ⟨_, _, .missed, _⟩ => some (s.move i (.awaiting s.steps))
    | _ => none
  | .answer i result =>
    match s.reads[i]? with
    | some ⟨_, _, .awaiting sentAt, _⟩ => some (s.move i (s.fetch sentAt result))
    | _ => none
  | .store i =>
    match s.reads[i]? with
    | some ⟨refresh, _, .fetched sentAt entry, _⟩ =>
      some { s.move i (.returned sentAt entry) with
        slot := some (sentAt, entry)
        floors := if refresh then sentAt :: s.floors else s.floors }
    | _ => none
  | .invalidate => some { s with slot := none, steps := s.steps + 1, floors := s.steps :: s.floors }
  | .pass duration => some { s with now := s.now + duration, steps := s.steps + 1 }

/-- The cache of a new client. -/
def start : Cache := {}

/-- A read is fresh if what it returned is as new as it has to be. -/
def Read.Fresh (r : Read) : Prop :=
  match r.phase with
  | .returned sentAt _ => ∀ floor ∈ r.floors, floor ≤ sentAt
  | _ => True

def Cache.Fresh (s : Cache) : Prop := ∀ r ∈ s.reads, r.Fresh

instance (r : Read) : Decidable r.Fresh := by
  rw [Read.Fresh.eq_def]
  split <;> infer_instance

instance (s : Cache) : Decidable s.Fresh := inferInstanceAs (Decidable (∀ r ∈ s.reads, r.Fresh))

/-- An entry is written only if its request was sent no earlier than any invalidation
    so far, and than the request of any refresh that has ended. -/
def Punctual (s : Cache) : Action → Prop
  | .store i =>
    match s.reads[i]? with
    | some ⟨_, _, .fetched sentAt _, _⟩ => ∀ floor ∈ s.floors, floor ≤ sentAt
    | _ => True
  | _ => True

/-! ## What punctual steps keep -/

/-- The step the read's request was sent at, once it has been. -/
def Phase.sentAt : Phase → Option ℕ
  | .awaiting sentAt | .fetched sentAt _ | .returned sentAt _ => some sentAt
  | _ => none

/-- What a read has of the node's is as new as it has to be. -/
def Read.Timely (s : Cache) (r : Read) : Prop :=
  r.floors ⊆ s.floors ∧ ∀ t, r.phase.sentAt = some t → (∀ floor ∈ r.floors, floor ≤ t) ∧ t < s.steps

/-- The slot holds what any read that begins now may have, and every read is timely. -/
structure Cache.Timely (s : Cache) : Prop where
  slot : ∀ t entry, s.slot = some (t, entry) → t < s.steps ∧ ∀ floor ∈ s.floors, floor ≤ t
  floors : ∀ floor ∈ s.floors, floor < s.steps
  reads : ∀ r ∈ s.reads, r.Timely s

variable {s s' : Cache} {r : Read} {a : Action} {actions : List Action} {i t ttl : ℕ}
  {phase : Phase} {entry : CachedGasConfig} {refresh : Bool} {floors : List ℕ}

theorem Read.Timely.fresh (h : r.Timely s) : r.Fresh := by
  obtain ⟨refresh, ttl, phase, floors⟩ := r
  cases phase with
  | returned t entry => exact (h.2 t rfl).1
  | _ => trivial

theorem Cache.Timely.fresh (h : s.Timely) : s.Fresh := fun r hr => (h.reads r hr).fresh

/-- A read stays timely as time goes on. -/
theorem Read.Timely.later (h : r.Timely s) (hsteps : s.steps ≤ s'.steps)
    (hfloors : s.floors ⊆ s'.floors) : r.Timely s' :=
  ⟨List.Subset.trans h.1 hfloors, fun t ht => ⟨(h.2 t ht).1, (h.2 t ht).2.trans_le hsteps⟩⟩

/-- A step that leaves the slot and the floors as they are keeps the cache timely, if it keeps
    the reads so. -/
theorem Cache.Timely.of_reads (h : s.Timely) (hslot : s'.slot = s.slot)
    (hfloors : s'.floors = s.floors) (hsteps : s'.steps = s.steps + 1)
    (hreads : ∀ r ∈ s'.reads, r.Timely s') : s'.Timely where
  slot t entry ht := by
    obtain ⟨hlt, hle⟩ := h.slot t entry (hslot ▸ ht)
    exact ⟨hsteps ▸ hlt.trans (Nat.lt_succ_self _), hfloors ▸ hle⟩
  floors floor hf := hsteps ▸ (h.floors floor (hfloors ▸ hf)).trans (Nat.lt_succ_self _)
  reads := hreads

/-- The cache stays timely when one of the reads goes on, if what that read then has
    is as new as it has to be. -/
theorem Cache.Timely.move (h : s.Timely) (hi : s.reads[i]? = some r)
    (hphase : ∀ t, phase.sentAt = some t → (∀ floor ∈ r.floors, floor ≤ t) ∧ t ≤ s.steps) :
    (s.move i phase).Timely := by
  refine h.of_reads rfl rfl rfl fun r' hr' => ?_
  obtain ⟨j, hj⟩ := List.mem_iff_getElem?.1 hr'
  rw [Cache.move, List.getElem?_modify, Option.map_eq_map, Option.map_eq_some_iff] at hj
  obtain ⟨q, hq, rfl⟩ := hj
  by_cases hij : i = j
  · -- The read that goes on.
    obtain rfl : r = q := Option.some.inj (hi.symm.trans (hij ▸ hq))
    rw [if_pos hij]
    exact ⟨(h.reads r (List.mem_of_getElem? hi)).1,
      fun t ht => ⟨(hphase t ht).1, Nat.lt_succ_of_le (hphase t ht).2⟩⟩
  · rw [if_neg hij]
    exact (h.reads q (List.mem_of_getElem? hq)).later (Nat.le_succ _) fun _ hf => hf

/-- An entry that is as new as a read beginning now has to find it may be written. -/
theorem Cache.Timely.store (h : s.Timely)
    (hi : s.reads[i]? = some ⟨refresh, ttl, .fetched t entry, floors⟩)
    (ht : ∀ floor ∈ s.floors, floor ≤ t) :
    { s.move i (.returned t entry) with
      slot := some (t, entry)
      floors := if refresh then t :: s.floors else s.floors }.Timely := by
  have hr := (h.reads _ (List.mem_of_getElem? hi)).2 t rfl
  have hmove : (s.move i (.returned t entry)).Timely :=
    h.move hi fun t' ht' => Option.some.inj ht' ▸ ⟨hr.1, hr.2.le⟩
  have hlt : t < s.steps + 1 := hr.2.trans (Nat.lt_succ_self _)
  -- A refresh that ends asks of later reads to be as new as its own request.
  have hfloors : ∀ floor ∈ (if refresh then t :: s.floors else s.floors),
      floor = t ∨ floor ∈ s.floors := by
    intro floor hf
    split at hf
    · exact List.mem_cons.1 hf
    · exact .inr hf
  refine ⟨fun t' e ht' => ?_, fun floor hf => ?_, fun r hr' => ?_⟩
  · cases ht'
    exact ⟨hlt, fun floor hf => (hfloors floor hf).elim le_of_eq (ht floor)⟩
  · exact (hfloors floor hf).elim (fun hf => hf ▸ hlt) (hmove.floors floor)
  · refine (hmove.reads r hr').later le_rfl fun floor hf => ?_
    dsimp only
    split
    · exact List.mem_cons_of_mem _ hf
    · exact hf

/-- What the slot gives a read is as new as it has to be. -/
theorem Cache.Timely.lookup (h : s.Timely) (ht : (s.lookup ttl).sentAt = some t) :
    (∀ floor ∈ s.floors, floor ≤ t) ∧ t ≤ s.steps := by
  rw [Cache.lookup] at ht
  split at ht
  next sentAt cached hslot =>
    split at ht
    · obtain rfl := Option.some.inj ht
      exact ⟨(h.slot _ _ hslot).2, (h.slot _ _ hslot).1.le⟩
    · cases ht
  next => cases ht

theorem Cache.sentAt_fetch {sent : ℕ} {result : Result GasConfigResult}
    (ht : (s.fetch sent result).sentAt = some t) : t = sent := by
  rw [Cache.fetch.eq_def] at ht
  split at ht
  · cases ht
  · split at ht
    · cases ht
    · exact (Option.some.inj ht).symm

theorem timely_start : start.Timely where
  slot _ _ h := nomatch h
  floors _ h := absurd h List.not_mem_nil
  reads _ h := absurd h List.not_mem_nil

/-- A punctual step keeps the cache timely. -/
theorem Cache.Timely.step (h : s.Timely) (ha : Punctual s a) (hstep : step s a = some s') :
    s'.Timely := by
  cases a with
  | call refresh ttl =>
    obtain rfl := Option.some.inj hstep
    refine h.of_reads rfl rfl rfl fun r hr => ?_
    rcases List.mem_append.1 hr with hr | hr
    · exact (h.reads r hr).later (Nat.le_succ _) fun _ hf => hf
    · obtain rfl := List.mem_singleton.1 hr
      exact ⟨fun _ hf => hf, fun t ht => nomatch ht⟩
  | look i =>
    rw [FeePlanner.step] at hstep
    split at hstep
    next refresh ttl floors hi =>
      obtain rfl := Option.some.inj hstep
      refine h.move hi fun t ht => ?_
      split at ht
      · cases ht
      · have hsub : floors ⊆ s.floors := (h.reads _ (List.mem_of_getElem? hi)).1
        exact ⟨fun floor hf => (h.lookup ht).1 floor (hsub hf), (h.lookup ht).2⟩
    next => cases hstep
  | send i =>
    rw [FeePlanner.step] at hstep
    split at hstep
    next refresh ttl floors hi =>
      obtain rfl := Option.some.inj hstep
      refine h.move hi fun t ht => ?_
      obtain rfl := Option.some.inj ht
      have hsub : floors ⊆ s.floors := (h.reads _ (List.mem_of_getElem? hi)).1
      exact ⟨fun floor hf => (h.floors floor (hsub hf)).le, le_rfl⟩
    next => cases hstep
  | answer i result =>
    rw [FeePlanner.step] at hstep
    split at hstep
    next refresh ttl sentAt floors hi =>
      obtain rfl := Option.some.inj hstep
      refine h.move hi fun t ht => ?_
      obtain rfl := Cache.sentAt_fetch ht
      have hr := (h.reads _ (List.mem_of_getElem? hi)).2 t rfl
      exact ⟨hr.1, hr.2.le⟩
    next => cases hstep
  | store i =>
    rw [FeePlanner.step] at hstep
    split at hstep
    next refresh ttl sentAt entry floors hi =>
      obtain rfl := Option.some.inj hstep
      rw [Punctual, hi] at ha
      exact h.store hi ha
    next => cases hstep
  | invalidate =>
    obtain rfl := Option.some.inj hstep
    refine ⟨fun t entry ht => (nomatch ht), fun floor hf => ?_, fun r hr =>
      (h.reads r hr).later (Nat.le_succ _) (List.subset_cons_self _ _)⟩
    rcases List.mem_cons.1 hf with rfl | hf
    · exact Nat.lt_succ_self _
    · exact (h.floors floor hf).trans (Nat.lt_succ_self _)
  | pass duration =>
    obtain rfl := Option.some.inj hstep
    exact h.of_reads rfl rfl rfl fun r hr =>
      (h.reads r hr).later (Nat.le_succ _) fun _ hf => hf

/-- A run of punctual steps leads to a timely cache. -/
theorem timely_of_along (h : Along step Punctual start actions)
    (hrun : run step start actions = some s) : s.Timely :=
  h.invariant (fun _ _ _ hs ha hstep => hs.step ha hstep) timely_start hrun

/-! ## What others lead to -/

theorem modify_length_append {α : Type} {f : α → α} {b : α} {l : List α} :
    (l ++ [b]).modify l.length f = l ++ [f b] := by
  induction l with
  | nil => rfl
  | cons c l ih => rw [List.cons_append, List.length_cons, List.modify_succ_cons, ih, List.cons_append]

/-- The next read, if it looks at the slot before it expires, returns what is there. -/
theorem run_call_look (h : s.slot = some (t, entry)) :
    run step s [.call false (s.now - entry.fetchedAt + 1), .look s.reads.length] = some
      { s with
        reads := s.reads ++ [⟨false, s.now - entry.fetchedAt + 1, .returned t entry, s.floors⟩]
        steps := s.steps + 1 + 1 } := by
  have hget : (s.reads ++ [(⟨false, s.now - entry.fetchedAt + 1, .called, s.floors⟩ : Read)])[
      s.reads.length]? = some ⟨false, s.now - entry.fetchedAt + 1, .called, s.floors⟩ := by
    rw [List.getElem?_append_right le_rfl, Nat.sub_self]
    rfl
  simp only [run, step, Option.bind_some, hget, Cache.move, Cache.lookup, h, Nat.lt_succ_self,
    if_true, Bool.false_eq_true, if_false, modify_length_append]

/-- After an entry that is not punctual, whoever asks next may get a stale one. -/
theorem not_fresh_of_not_punctual (ha : ¬Punctual s a) : ∃ s', step s a = some s' ∧
    ∃ ttl s'', run step s' [.call false ttl, .look s'.reads.length] = some s'' ∧ ¬s''.Fresh := by
  rw [Punctual.eq_def] at ha
  split at ha
  next i =>
    split at ha
    next refresh ttl sentAt entry floors hi =>
      push Not at ha
      obtain ⟨floor, hfloor, hlt⟩ := ha
      refine ⟨_, by rw [step, hi], _, _, run_call_look rfl, fun hfresh => ?_⟩
      have hle : floor ≤ sentAt := by
        refine hfresh _ (List.mem_append_right _ (List.mem_singleton_self _)) floor ?_
        dsimp only
        split
        · exact List.mem_cons_of_mem _ hfloor
        · exact hfloor
      exact absurd hle (Nat.not_le.2 hlt)
    next => exact absurd trivial ha
  next => exact absurd trivial ha

/-- All along a run every read is fresh, and whoever would ask next, exactly if every
    entry it writes is punctual. -/
theorem fresh_iff (actions : List Action) :
    (∀ pre s, pre <+: actions → run step start pre = some s → s.Fresh ∧
      ∀ ttl s', run step s [.call false ttl, .look s.reads.length] = some s' → s'.Fresh) ↔
    Along step Punctual start actions := by
  constructor
  · intro h
    by_contra hnot
    obtain ⟨pre, a, post, s, rfl, hs, ha⟩ := not_along_iff.1 hnot
    obtain ⟨s', hstep, ttl, s'', hrun, hstale⟩ := not_fresh_of_not_punctual ha
    have hpre : pre ++ [a] <+: pre ++ a :: post := ⟨post, by simp⟩
    have hs' : run step start (pre ++ [a]) = some s' := by
      rw [run_append_of_eq hs, run_cons, hstep, Option.bind_some, run_nil]
    exact hstale ((h _ s' hpre hs').2 ttl s'' hrun)
  · rintro h pre s ⟨post, rfl⟩ hs
    have htimely : s.Timely := timely_of_along (along_append_iff.1 h).1 hs
    refine ⟨htimely.fresh, fun ttl s' hrun => Cache.Timely.fresh ?_⟩
    -- To ask and to look is punctual.
    have hnext : Along step Punctual s [.call false ttl, .look s.reads.length] :=
      ⟨trivial, fun _ _ => ⟨trivial, fun _ _ => trivial⟩⟩
    exact hnext.invariant (fun _ _ _ hs ha hstep => hs.step ha hstep) htimely hrun

/-- What a node answers that charges nothing. -/
def free : GasConfigResult where
  gasConfig := some {
    feeMultiplier := "0", gasTokenId := "0", dataTokenId := "0", minimumGasOffer := "0",
    dataEscrowPerRow := "0", gasFeeTransfer := "0", gasFeeQuery := "0",
    gasFeeCreateTokenBase := "0", gasFeeCreateTokenSymbol := "0", gasFeeCreateTokenSeries := "0",
    gasFeePerByte := "0", gasFeeRegisterName := "0", gasBurnRatioMul := "0" }

/-- A read is not always fresh: here the cache is invalidated while an answer is
    outstanding, which is then written, and given to a read that begins after. -/
theorem not_fresh : ¬∀ actions s, run step start actions = some s → s.Fresh := by
  intro h
  have hfresh := h [.call false 60000, .look 0, .send 0, .invalidate, .answer 0 (.ok free),
    .store 0, .call false 60000, .look 1] _ rfl
  revert hfresh
  decide +kernel

end FeePlanner

end PhantasmaSdk
