import PhantasmaSdk.Fees.Preflight
import PhantasmaSdk.Rpc.Holdings

/-!
# What sending commits to

A message is signed, by each of its signers, and sent once, the last thing that is done
with it. Whatever the node, the planner's cache and the signers answer, sending ends in
one of three ways (`Outcome`): refused before any signer is asked, unsigned, or sent with
the signatures that were given. What is signed is the message with its own limits, or with
those of a plan, for prices that the cache had or the node told, and for the holdings of
burned NFTs that the node has told before.

Here the node is asked question by question, also for what a burned NFT holds, which is
many of them (`sendTxMsgAsked`): the dialogue of the session is held through a handler,
and ends as the session does with the answers that were put together for it
(`outcome_sendTxMsgAsked`).
-/

namespace PhantasmaSdk

open Machine

/-! ## What is signed -/

section Settled

variable (priced : GasConfig → Prop) (held : ℕ → BurnedInstance → List InfusedAsset → Prop)

/-- The NFTs hold this together, the first being the `i`-th. -/
def HeldBy : ℕ → List BurnedInstance → List InfusedAsset → Prop
  | _, [], infusions => infusions = []
  | i, burned :: rest, infusions => ∃ first others, held i burned first ∧
      HeldBy (i + 1) rest others ∧ infusions = first ++ others

/-- The facts are those of the caller, with what the burned NFTs hold if it does not state
    it. -/
def FactsBy (msg : TxMsg) (facts supplied : FeePlanOptions) : Prop :=
  if facts.infusions.isSome ∨ (burnedInstances msg).isEmpty then supplied = facts
  else ∃ infusions, HeldBy held 0 (burnedInstances msg) infusions ∧
    supplied = { facts with infusions := some infusions }

/-- The message has its own limits, or those of a plan for the prices and the holdings. -/
def SettledBy (msg : TxMsg) (signers : List TxSigner) (facts : FeePlanOptions)
    (settled : TxMsg) : Prop :=
  if msg.maxGas = 0 then ∃ counted config supplied plan,
    countSigners msg facts signers.length "send_tx_msg: too many signers" = .ok counted ∧
      priced config ∧ FactsBy held msg counted supplied ∧ planFees msg config supplied = .ok plan ∧
        settled = plan.apply msg
  else settled = msg

variable {priced held} {priced' : GasConfig → Prop}
  {held' : ℕ → BurnedInstance → List InfusedAsset → Prop}

theorem HeldBy.mono (hh : ∀ i burned assets, held i burned assets → held' i burned assets)
    {i : ℕ} {burned : List BurnedInstance} {infusions : List InfusedAsset}
    (h : HeldBy held i burned infusions) : HeldBy held' i burned infusions := by
  induction burned generalizing i infusions with
  | nil => exact h
  | cons b rest ih =>
    obtain ⟨first, others, hfirst, hothers, rfl⟩ := h
    exact ⟨first, others, hh _ _ _ hfirst, ih hothers, rfl⟩

theorem FactsBy.mono (hh : ∀ i burned assets, held i burned assets → held' i burned assets)
    {msg : TxMsg} {facts supplied : FeePlanOptions} (h : FactsBy held msg facts supplied) :
    FactsBy held' msg facts supplied := by
  rw [FactsBy] at h ⊢
  split at h
  next hstated => rwa [if_pos hstated]
  next hstated =>
    rw [if_neg hstated]
    obtain ⟨infusions, hheld, hsupplied⟩ := h
    exact ⟨infusions, hheld.mono hh, hsupplied⟩

theorem SettledBy.mono (hp : ∀ config, priced config → priced' config)
    (hh : ∀ i burned assets, held i burned assets → held' i burned assets) {msg : TxMsg}
    {signers : List TxSigner} {facts : FeePlanOptions} {settled : TxMsg}
    (h : SettledBy priced held msg signers facts settled) :
    SettledBy priced' held' msg signers facts settled := by
  rw [SettledBy] at h ⊢
  split at h
  next hgas =>
    rw [if_pos hgas]
    obtain ⟨counted, config, supplied, plan, hcounted, hconfig, hfacts, hplan⟩ := h
    exact ⟨counted, config, supplied, plan, hcounted, hp config hconfig, hfacts.mono hh, hplan⟩
  next hgas => rwa [if_neg hgas]

end Settled

/-- The prices are those of the cache, if it has any and is not passed over, or those that
    were told instead. -/
def PricedBy (cached : Option GasConfig → Prop) (told : Bool → GasConfig → Prop)
    (refresh : Bool) (config : GasConfig) : Prop :=
  if refresh then told true config else cached (some config) ∨ cached none ∧ told false config

theorem PricedBy.mono {cached cached' : Option GasConfig → Prop}
    {told told' : Bool → GasConfig → Prop} (hc : ∀ c, cached c → cached' c)
    (ht : ∀ refresh c, told refresh c → told' refresh c) {refresh : Bool} {config : GasConfig}
    (h : PricedBy cached told refresh config) : PricedBy cached' told' refresh config := by
  rw [PricedBy] at h ⊢
  split at h
  next hrefresh =>
    rw [if_pos hrefresh]
    exact ht _ _ h
  next hrefresh =>
    rw [if_neg hrefresh]
    exact h.imp (hc _) (And.imp (hc _) (ht _ _))

/-! ## How sending ends -/

section Outcome

variable {Q : Type} {A : Q → Type}

/-- All that was asked is signers for their signatures of the bytes. -/
def SignersAsked (signs : TxSigner → Bytes → Result Bytes64 → Σ q, A q) (signers : List TxSigner)
    (message : Bytes) (log : Dialogue.Log A) : Prop :=
  ∀ e ∈ log, ∃ signer ∈ signers, ∃ answer, e = signs signer message answer

/-- All that was asked is signers for their signatures of the bytes, and they gave them. -/
def SignersSigned (signs : TxSigner → Bytes → Result Bytes64 → Σ q, A q) (signers : List TxSigner)
    (message : Bytes) (log : Dialogue.Log A) : Prop :=
  ∀ e ∈ log, ∃ signer ∈ signers, ∃ signature, e = signs signer message (.ok signature)

/-- Each witness has the signature that the signer of its address gave. -/
def WitnessedIn (signs : TxSigner → Bytes → Result Bytes64 → Σ q, A q) (signers : List TxSigner)
    (message : Bytes) (log : Dialogue.Log A) (witnesses : List Witness) : Prop :=
  ∀ witness ∈ witnesses, ∃ signer ∈ signers, signer.publicKey = witness.address ∧
    signs signer message (.ok witness.signature) ∈ log

/-- Refused before any signer is asked; not signed; or sent, signed by all who were asked,
    the last thing that is asked. -/
inductive Outcome (Commits : Q → Prop) (signs : TxSigner → Bytes → Result Bytes64 → Σ q, A q)
    (sends : Bytes → Result String → Σ q, A q) (Settles : Dialogue.Log A → TxMsg → Prop)
    (signers : List TxSigner) : Dialogue.Log A → Result String → Prop
  | refused {log : Dialogue.Log A} (hlog : ∀ e ∈ log, ¬Commits e.1) (fault : Fault) :
    Outcome Commits signs sends Settles signers log (.error fault)
  | unsigned {log signatures : Dialogue.Log A} {settled : TxMsg} {message : Bytes}
    (hlog : ∀ e ∈ log, ¬Commits e.1) (hsettled : Settles log settled)
    (hmessage : serialize settled = .ok message)
    (hasked : SignersAsked signs signers message signatures) (fault : Fault) :
    Outcome Commits signs sends Settles signers (log ++ signatures) (.error fault)
  | sent {log signatures : Dialogue.Log A} {settled : TxMsg} {message : Bytes}
    {witnesses : List Witness} {envelope : Bytes}
    (hlog : ∀ e ∈ log, ¬Commits e.1) (hsettled : Settles log settled)
    (hmessage : serialize settled = .ok message)
    (hsigned : SignersSigned signs signers message signatures)
    (hwitnesses : WitnessedIn signs signers message signatures witnesses)
    (henvelope : serialize (⟨settled, witnesses⟩ : SignedTxMsg) = .ok envelope)
    (result : Result String) :
    Outcome Commits signs sends Settles signers (log ++ (signatures ++ [sends envelope result]))
      result

end Outcome

/-- A signer that was asked to sign, with its answer. -/
def Query.signed (signer : TxSigner) (message : Bytes) (answer : Result Bytes64) :
    Σ q : Query, q.Answer := ⟨.sign signer message, answer⟩

namespace Session

variable {msg settled : TxMsg} {signers : List TxSigner} {options : SendTransactionOptions}
  {log : Dialogue.Log Query.Answer}

/-- The message is settled by what is in the log. -/
def SettledFrom (msg : TxMsg) (signers : List TxSigner) (options : SendTransactionOptions)
    (log : Dialogue.Log Query.Answer) (settled : TxMsg) : Prop :=
  SettledBy
    (PricedBy (fun cached => ⟨.cachedConfig, cached⟩ ∈ log)
      (fun refresh config => ⟨.gasConfig refresh, .ok config⟩ ∈ log) options.plan.refreshConfig)
    (fun i burned assets => ⟨.infusedAssets i burned, .ok assets⟩ ∈ log) msg signers
    options.plan.facts settled

theorem SettledFrom.mono {log' : Dialogue.Log Query.Answer} (hsub : log ⊆ log')
    (h : SettledFrom msg signers options log settled) :
    SettledFrom msg signers options log' settled :=
  SettledBy.mono
    (fun _ hconfig => hconfig.mono (fun _ hcached => hsub hcached) fun _ _ htold => hsub htold)
    (fun _ _ _ hheld => hsub hheld) h

theorem ends_request {q : Query} {x : q.Answer} : (request q).Ends log x ↔ log = [⟨q, x⟩] := by
  rw [request]
  constructor
  · intro h
    obtain _ | ⟨e, log⟩ := log
    · exact h.elim
    obtain ⟨x', rfl, hdone⟩ := h
    obtain ⟨rfl, rfl⟩ := Dialogue.ends_done.1 hdone
    rfl
  · rintro rfl
    exact ⟨x, rfl, rfl, rfl⟩

theorem heldBy_of_readInfusions {i : ℕ} {burned : List BurnedInstance}
    {infusions : List InfusedAsset} (h : (readInfusions i burned).Ends log (.ok infusions)) :
    HeldBy (fun i burned assets => ⟨.infusedAssets i burned, .ok assets⟩ ∈ log) i burned
      infusions := by
  induction burned generalizing i log infusions with
  | nil =>
    obtain ⟨rfl, hnone⟩ := Dialogue.ends_done.1 h
    exact (Except.ok.inj hnone).symm
  | cons b rest ih =>
    obtain _ | ⟨e, log⟩ := log
    · exact h.elim
    obtain ⟨answer, rfl, hrest⟩ := h
    rcases answer with (e | p) | held
    · cases (Dialogue.ends_done.1 hrest).2
    · cases (Dialogue.ends_done.1 hrest).2
    · obtain ⟨others, l₁, l₂, rfl, hothers, hdone⟩ := Dialogue.ends_andThen_ok.1 hrest
      obtain ⟨rfl, hall⟩ := Dialogue.ends_done.1 hdone
      refine ⟨held, others, List.mem_cons_self, (ih hothers).mono fun i b assets he => ?_,
        (Except.ok.inj hall).symm⟩
      exact List.mem_cons_of_mem _ (List.mem_append_left _ he)

theorem factsBy_of_withInfusions {facts supplied : FeePlanOptions}
    (h : (withInfusions msg facts).Ends log (.ok supplied)) :
    FactsBy (fun i burned assets => ⟨.infusedAssets i burned, .ok assets⟩ ∈ log) msg facts
      supplied := by
  rw [FactsBy]
  rw [withInfusions] at h
  split
  next hstated =>
    rw [if_pos hstated] at h
    exact (Except.ok.inj (Dialogue.ends_done.1 h).2).symm
  next hstated =>
    rw [if_neg hstated] at h
    obtain ⟨infusions, l₁, l₂, rfl, hread, hdone⟩ := Dialogue.ends_andThen_ok.1 h
    refine ⟨infusions, ?_, (Except.ok.inj (Dialogue.ends_done.1 hdone).2).symm⟩
    exact (heldBy_of_readInfusions hread).mono fun i b assets he => List.mem_append_left _ he

theorem pricedBy_of_config {refresh : Bool} {prices : GasConfig}
    (h : (config refresh).Ends log (.ok prices)) :
    PricedBy (fun cached => ⟨.cachedConfig, cached⟩ ∈ log)
      (fun refresh config => ⟨.gasConfig refresh, .ok config⟩ ∈ log) refresh prices := by
  cases refresh with
  | true =>
    rw [ends_request.1 h]
    exact List.mem_singleton_self _
  | false =>
    obtain _ | ⟨e, log⟩ := log
    · exact h.elim
    obtain ⟨answer, rfl, hrest⟩ := h
    rcases answer with _ | cached
    · rw [ends_request.1 hrest]
      exact .inr ⟨List.mem_cons_self, List.mem_cons_of_mem _ (List.mem_singleton_self _)⟩
    · obtain ⟨rfl, hcached⟩ := Dialogue.ends_done.1 hrest
      obtain rfl := Except.ok.inj hcached
      exact .inl List.mem_cons_self

theorem settledFrom_of_planned (h : (planned msg signers options).Ends log (.ok settled)) :
    SettledFrom msg signers options log settled := by
  rw [SettledFrom, SettledBy]
  rw [planned] at h
  split
  next hgas =>
    rw [if_pos hgas] at h
    obtain ⟨counted, l₁, l₂, rfl, hcounted, hplanned⟩ := Dialogue.ends_andThen_ok.1 h
    obtain ⟨rfl, hcount⟩ := Dialogue.ends_done.1 hcounted
    obtain ⟨plan, l₃, l₄, rfl, hplan, happly⟩ := Dialogue.ends_andThen_ok.1 hplanned
    obtain ⟨config, l₅, l₆, rfl, hconfig, hfacts⟩ := Dialogue.ends_andThen_ok.1 hplan
    obtain ⟨supplied, l₇, l₈, rfl, hsupplied, hdone⟩ := Dialogue.ends_andThen_ok.1 hfacts
    refine ⟨counted, config, supplied, plan, hcount, ?_, ?_, (Dialogue.ends_done.1 hdone).2,
      (Except.ok.inj (Dialogue.ends_done.1 happly).2).symm⟩
    · refine (pricedBy_of_config hconfig).mono (fun c hc => ?_) fun _ c hc => ?_
      · simp [hc]
      · simp [hc]
    · refine (factsBy_of_withInfusions hsupplied).mono fun i b assets he => ?_
      simp [he]
  next hgas =>
    rw [if_neg hgas] at h
    exact (Except.ok.inj (Dialogue.ends_done.1 h).2).symm

theorem signersAsked_of_askOnce {message : Bytes} {asked : Fin signers.length → Option Bytes64}
    {slots : List (Bytes32 × Fin signers.length)} {result : Result (List Witness)}
    (h : (askOnce signers message asked slots).Ends log result) :
    SignersAsked Query.signed signers message log := by
  have honly (asked : Fin signers.length → Option Bytes64)
      (slots : List (Bytes32 × Fin signers.length)) : (askOnce signers message asked slots).Only
        fun q => ∃ signer ∈ signers, q = .sign signer message := by
    induction slots generalizing asked with
    | nil => trivial
    | cons slot slots ih =>
      refine Dialogue.Only.andThen ?_ fun signature => (ih _).andThen fun _ => trivial
      cases asked slot.2 with
      | some signature => trivial
      | none => exact ⟨⟨_, List.get_mem _ _, rfl⟩, fun _ => trivial⟩
  rintro ⟨q, answer⟩ he
  obtain ⟨signer, hmem, rfl⟩ := (honly asked slots).ends h _ he
  exact ⟨signer, hmem, answer, rfl⟩

/-- The witnesses of the slots have the signatures given now, or those kept from before. -/
theorem signed_of_askOnce {message : Bytes} {asked : Fin signers.length → Option Bytes64}
    {slots : List (Bytes32 × Fin signers.length)} {before : Dialogue.Log Query.Answer}
    {witnesses : List Witness}
    (h : (askOnce signers message asked slots).Ends log (.ok witnesses))
    (hslots : ∀ slot ∈ slots, (signers.get slot.2).publicKey = slot.1)
    (hasked : ∀ i signature, asked i = some signature →
      Query.signed (signers.get i) message (.ok signature) ∈ before) :
    SignersSigned Query.signed signers message log ∧
      WitnessedIn Query.signed signers message (before ++ log) witnesses := by
  induction slots generalizing asked before log witnesses with
  | nil =>
    obtain ⟨rfl, hnone⟩ := Dialogue.ends_done.1 h
    obtain rfl := Except.ok.inj hnone
    exact ⟨fun _ he => absurd he List.not_mem_nil, fun _ hw => absurd hw List.not_mem_nil⟩
  | cons slot slots ih =>
    obtain ⟨address, i⟩ := slot
    obtain ⟨haddress, hrest⟩ := List.forall_mem_cons.1 hslots
    obtain ⟨signature, l₁, _, rfl, hfirst, h⟩ := Dialogue.ends_andThen_ok.1 h
    obtain ⟨others, l₂, _, rfl, hothers, hdone⟩ := Dialogue.ends_andThen_ok.1 h
    obtain ⟨rfl, hall⟩ := Dialogue.ends_done.1 hdone
    obtain rfl := Except.ok.inj hall
    -- The signature is one that was kept, or is asked for now.
    obtain ⟨hsigned, hmem⟩ : SignersSigned Query.signed signers message l₁ ∧
        Query.signed (signers.get i) message (.ok signature) ∈ before ++ l₁ := by
      cases hi : asked i with
      | none =>
        rw [hi] at hfirst
        obtain rfl := ends_request.1 hfirst
        exact ⟨List.forall_mem_singleton.2 ⟨_, List.get_mem _ _, signature, rfl⟩,
          List.mem_append_right _ (List.mem_singleton_self _)⟩
      | some kept =>
        rw [hi] at hfirst
        obtain ⟨rfl, hkept⟩ := Dialogue.ends_done.1 hfirst
        obtain rfl := Except.ok.inj hkept
        exact ⟨fun _ he => absurd he List.not_mem_nil,
          List.mem_append_left _ (hasked i _ hi)⟩
    have hkept : ∀ i' signature', Function.update asked i (some signature) i' = some signature' →
        Query.signed (signers.get i') message (.ok signature') ∈ before ++ l₁ := by
      intro i' signature' hi'
      by_cases hsame : i' = i
      · subst hsame
        rw [Function.update_self] at hi'
        exact Option.some.inj hi' ▸ hmem
      · rw [Function.update_of_ne hsame] at hi'
        exact List.mem_append_left _ (hasked i' _ hi')
    obtain ⟨hsigned', hwitnessed⟩ := ih hothers hrest hkept
    rw [List.append_nil]
    rw [List.append_assoc] at hwitnessed
    refine ⟨List.forall_mem_append.2 ⟨hsigned, hsigned'⟩, List.forall_mem_cons.2 ⟨?_, hwitnessed⟩⟩
    refine ⟨_, List.get_mem _ i, haddress, ?_⟩
    rw [← List.append_assoc]
    exact List.mem_append_left _ hmem

/-- Signing fails before any signer is asked, or asks signers for the message's bytes; what
    it gives is the message with witnesses of the signatures that were given. -/
theorem signing_cases {result : Result Bytes}
    (h : (signAndSerializeTxMsgWith msg signers).Ends log result) :
    (log = [] ∧ ∃ fault, result = .error fault) ∨ ∃ message, serialize msg = .ok message ∧
      SignersAsked Query.signed signers message log ∧ ∀ envelope, result = .ok envelope →
        SignersSigned Query.signed signers message log ∧ ∃ witnesses,
          WitnessedIn Query.signed signers message log witnesses ∧
            serialize (⟨msg, witnesses⟩ : SignedTxMsg) = .ok envelope := by
  obtain ⟨fault, hsigned, rfl⟩ | ⟨signed, l, _, rfl, hsigned, hserialized⟩ :=
    Dialogue.ends_andThen.1 h
  all_goals
    obtain ⟨fault', hfault, hresult⟩ | ⟨⟨slots, message⟩, _, l', rfl, hsign, hasked⟩ :=
      Dialogue.ends_andThen.1 hsigned
  · exact .inl ⟨(Dialogue.ends_done.1 hfault).1, fault, rfl⟩
  · obtain ⟨rfl, hfound⟩ := Dialogue.ends_done.1 hsign
    obtain ⟨-, hslots, hmessage⟩ := toSign_eq_ok.1 hfound
    refine .inr ⟨message, hmessage, ?_, fun _ h => nomatch h⟩
    obtain ⟨_, hwitnesses, -⟩ | ⟨_, l₁, l₂, rfl, hwitnesses, hdone⟩ := Dialogue.ends_andThen.1 hasked
    · exact signersAsked_of_askOnce hwitnesses
    · cases (Dialogue.ends_done.1 hdone).2
  · cases hresult
  · obtain ⟨rfl, hfound⟩ := Dialogue.ends_done.1 hsign
    obtain ⟨-, hslots, hmessage⟩ := toSign_eq_ok.1 hfound
    obtain ⟨rfl, rfl⟩ := Dialogue.ends_done.1 hserialized
    obtain ⟨witnesses, l₁, _, rfl, hwitnesses, hdone⟩ := Dialogue.ends_andThen_ok.1 hasked
    obtain ⟨rfl, hmsg⟩ := Dialogue.ends_done.1 hdone
    obtain rfl := Except.ok.inj hmsg
    simp only [List.append_nil, List.nil_append]
    refine .inr ⟨message, hmessage, signersAsked_of_askOnce hwitnesses, fun envelope henv => ?_⟩
    have hnone : ∀ (i : Fin signers.length) (signature : Bytes64), none = some signature →
        Query.signed (signers.get i) message (.ok signature) ∈ [] := nofun
    obtain ⟨hall, hwitnessed⟩ := signed_of_askOnce hwitnesses
      (fun slot hslot => ((address_of_witnessSlots hslots).2 slot hslot).2) hnone
    exact ⟨hall, witnesses, hwitnessed, henv⟩

/-- How sending ends, as seen by the session. -/
theorem outcome_of_ends {result : Result String}
    (h : (sendTxMsg msg signers options).Ends log result) :
    Outcome Query.Commits Query.signed (fun envelope answer => ⟨.send envelope, answer⟩)
      (SettledFrom msg signers options) signers log result := by
  have hplans : ∀ {l : Dialogue.Log Query.Answer}, (∀ e ∈ l, Query.Plans e.1) →
      ∀ e ∈ l, ¬e.1.Commits := by
    rintro l hl ⟨q, x⟩ he hcommits
    have hq := hl _ he
    cases q <;> first | exact hq.elim | exact hcommits.elim
  -- Each part ends the session by failing, or goes on to the next.
  obtain ⟨fault, hfault, rfl⟩ | ⟨_, l₁, _, rfl, hpreflight, hrest⟩ := Dialogue.ends_andThen.1 h
  · exact .refused (only_preflight.ends hfault) fault
  have hbefore := only_preflight.ends hpreflight
  obtain ⟨fault, hfault, rfl⟩ | ⟨settled, l₂, _, rfl, hplanned, hsign⟩ :=
    Dialogue.ends_andThen.1 hrest
  · exact .refused (List.forall_mem_append.2
      ⟨hbefore, hplans (only_planned.ends hfault)⟩) fault
  have hnone : ∀ e ∈ l₁ ++ l₂, ¬e.1.Commits :=
    List.forall_mem_append.2 ⟨hbefore, hplans (only_planned.ends hplanned)⟩
  have hsettled := (settledFrom_of_planned hplanned).mono (List.subset_append_right l₁ l₂)
  -- What commits, the signing and the sending, is asked for only from here on.
  rw [← List.append_assoc]
  obtain ⟨fault, hfault, rfl⟩ | ⟨envelope, l₃, l₄, rfl, hsigned, hsent⟩ :=
    Dialogue.ends_andThen.1 hsign
  · rcases signing_cases hfault with ⟨rfl, -⟩ | ⟨message, hmessage, hasked, -⟩
    · rw [List.append_nil]
      exact .refused hnone fault
    · exact .unsigned hnone hsettled hmessage hasked fault
  · obtain ⟨-, _, hfails⟩ | ⟨message, hmessage, -, hgave⟩ := signing_cases hsigned
    · cases hfails
    · obtain ⟨hall, witnesses, hwitnessed, henvelope⟩ := hgave envelope rfl
      rw [ends_request.1 hsent]
      exact .sent hnone hsettled hmessage hall hwitnessed henvelope result

end Session

/-! ## Question by question -/

/-- What is asked, a question at a time. -/
inductive RpcQuery
  | session (q : Query)
  | holding (q : HoldingQuery)

abbrev RpcQuery.Answer : RpcQuery → Type
  | session q => q.Answer
  | holding q => q.Answer

def RpcQuery.Commits : RpcQuery → Prop
  | session q => q.Commits
  | holding _ => False

abbrev RpcDialogue (α : Type) : Type := Dialogue RpcQuery RpcQuery.Answer α

section

-- How text is shown in quotes.
variable (quoted : String → String)

/-- What a burned NFT holds, asked for question by question. -/
def askHoldings (burned : BurnedInstance) : RpcDialogue (Result (List InfusedAsset)) :=
  (infusedAssets quoted burned.tokenId burned.instanceId).through fun q => .ask (.holding q) .done

/-- The dialogues that answer the questions of a session. -/
def askRpc : ∀ q : Query, RpcDialogue q.Answer
  | .infusedAssets _ burned => askHoldings quoted burned
  | .tokenWithId symbol tokenId => .ask (.session (.tokenWithId symbol tokenId)) .done
  | .controlTokenId => .ask (.session .controlTokenId) .done
  | .cachedConfig => .ask (.session .cachedConfig) .done
  | .gasConfig refresh => .ask (.session (.gasConfig refresh)) .done
  | .sign signer message => .ask (.session (.sign signer message)) .done
  | .send envelope => .ask (.session (.send envelope)) .done

def sendTxMsgAsked (msg : TxMsg) (signers : List TxSigner) (options : SendTransactionOptions) :
    RpcDialogue (Result String) :=
  (Session.sendTxMsg msg signers options).through (askRpc quoted)

end

/-- What the session asks, as a question of its own. -/
def inSession (e : Σ q : Query, q.Answer) : Σ q : RpcQuery, q.Answer := ⟨.session e.1, e.2⟩

/-- A signer that was asked to sign, with its answer. -/
def RpcQuery.signed (signer : TxSigner) (message : Bytes) (answer : Result Bytes64) :
    Σ q : RpcQuery, q.Answer := ⟨.session (.sign signer message), answer⟩

/-- The NFT was told to hold this, in a part of the log. -/
def HeldIn (log : Dialogue.Log RpcQuery.Answer) (burned : BurnedInstance)
    (assets : List InfusedAsset) : Prop :=
  ∃ before after, ∃ told : Holdings, told.Lists assets ∧ log = before ++
    (told.log (hexEncode (getNftAddress burned.tokenId burned.instanceId).bytes)).map
      (fun e => ⟨.holding e.1, e.2⟩) ++ after

/-- The message is settled by what was told in the log. -/
def SettledIn (msg : TxMsg) (signers : List TxSigner) (options : SendTransactionOptions)
    (log : Dialogue.Log RpcQuery.Answer) (settled : TxMsg) : Prop :=
  SettledBy
    (PricedBy (fun cached => ⟨.session .cachedConfig, cached⟩ ∈ log)
      (fun refresh config => ⟨.session (.gasConfig refresh), .ok config⟩ ∈ log)
      options.plan.refreshConfig)
    (fun _ burned assets => HeldIn log burned assets) msg signers options.plan.facts settled

variable {quoted : String → String} {log : Dialogue.Log RpcQuery.Answer}

theorem ends_askHoldings {burned : BurnedInstance} {assets : List InfusedAsset}
    (h : (askHoldings quoted burned).Ends log (.ok assets)) :
    ∃ told : Holdings, told.Lists assets ∧
      log = (told.log (hexEncode (getNftAddress burned.tokenId burned.instanceId).bytes)).map
        (fun e => ⟨.holding e.1, e.2⟩) := by
  obtain ⟨asked, hasked, hanswered⟩ := Dialogue.ends_through.1 h
  obtain ⟨told, rfl, hlists⟩ := holdings_of_ends hasked
  refine ⟨told, hlists, eq_map_of_forall₂ (hanswered.forall₂_of_ask.imp fun e e' => ?_)⟩
  rintro ⟨x, rfl, hx⟩
  rw [hx]

theorem ends_ask {q : RpcQuery} {x : q.Answer}
    (h : (Dialogue.ask q .done : RpcDialogue q.Answer).Ends log x) : log = [⟨q, x⟩] := by
  obtain _ | ⟨e, log⟩ := log
  · exact h.elim
  obtain ⟨x', rfl, hdone⟩ := h
  obtain ⟨rfl, rfl⟩ := Dialogue.ends_done.1 hdone
  rfl

/-- Putting together what an NFT holds commits to nothing. -/
theorem not_commits_of_ends_askRpc {q : Query} {x : q.Answer} (h : (askRpc quoted q).Ends log x)
    (hq : ¬q.Commits) : ∀ e ∈ log, ¬e.1.Commits := by
  cases q with
  | infusedAssets i burned =>
    obtain ⟨asked, -, hanswered⟩ := Dialogue.ends_through.1 h
    intro e he
    obtain ⟨_, -, _, rfl, -⟩ := exists_of_forall₂_mem hanswered.forall₂_of_ask.flip he
    exact id
  | tokenWithId | controlTokenId | cachedConfig | gasConfig =>
    rw [ends_ask h]
    exact List.forall_mem_singleton.2 id
  | sign | send => exact absurd trivial hq

/-- Questions of the session that are asked as they are, are in the log as they are. -/
theorem eq_map_of_answered {asked : Dialogue.Log Query.Answer}
    (hdirect : ∀ e ∈ asked, askRpc quoted e.1 = .ask (.session e.1) .done)
    (h : Dialogue.Answered (askRpc quoted) asked log) : log = asked.map inSession := by
  induction h with
  | nil => rfl
  | cons hends _ ih =>
    obtain ⟨hq, hdirect⟩ := List.forall_mem_cons.1 hdirect
    rw [hq] at hends
    rw [ends_ask hends, ih hdirect]
    rfl

theorem eq_map_of_answered_signed {signers : List TxSigner} {message : Bytes}
    {signatures : Dialogue.Log Query.Answer}
    (hasked : SignersAsked Query.signed signers message signatures)
    (h : Dialogue.Answered (askRpc quoted) signatures log) :
    log = signatures.map inSession := by
  refine eq_map_of_answered (fun e he => ?_) h
  obtain ⟨signer, -, answer, rfl⟩ := hasked e he
  rfl

theorem not_commits_of_answered {asked : Dialogue.Log Query.Answer}
    (h : Dialogue.Answered (askRpc quoted) asked log) (hasked : ∀ e ∈ asked, ¬e.1.Commits) :
    ∀ e ∈ log, ¬e.1.Commits :=
  h.forall_mem (P := fun q => ¬q.Commits) (R := fun q => ¬q.Commits)
    (fun _ _ _ hends hq => not_commits_of_ends_askRpc hends hq) hasked

theorem settledIn_of_settledFrom {msg settled : TxMsg} {signers : List TxSigner}
    {options : SendTransactionOptions} {asked : Dialogue.Log Query.Answer}
    (hanswered : Dialogue.Answered (askRpc quoted) asked log)
    (h : Session.SettledFrom msg signers options asked settled) :
    SettledIn msg signers options log settled := by
  have htold : ∀ {q : Query} {x : q.Answer}, askRpc quoted q = .ask (.session q) .done →
      ⟨q, x⟩ ∈ asked → inSession ⟨q, x⟩ ∈ log := by
    intro q x hq hmem
    obtain ⟨before, l, after, rfl, hends⟩ := hanswered.exists_of_mem hmem
    rw [hq] at hends
    rw [ends_ask hends]
    exact List.mem_append_left _ (List.mem_append_right _ (List.mem_singleton_self _))
  refine SettledBy.mono (fun config hconfig => ?_) (fun i burned assets hheld => ?_) h
  · exact hconfig.mono (fun _ hcached => htold rfl hcached) fun _ _ htold' => htold rfl htold'
  · obtain ⟨before, l, after, rfl, hends⟩ := hanswered.exists_of_mem hheld
    obtain ⟨told, hlists, rfl⟩ := ends_askHoldings hends
    exact ⟨before, after, told, hlists, rfl⟩

/-- Whatever is answered, sending a message ends so: no signer is asked before what the
    message is settled by was told, what was signed is all that is sent, and it is sent
    once. -/
theorem outcome_sendTxMsgAsked (quoted : String → String) (msg : TxMsg)
    (signers : List TxSigner) (options : SendTransactionOptions)
    (answers : ℕ → ∀ q : RpcQuery, q.Answer) :
    Outcome RpcQuery.Commits RpcQuery.signed
      (fun envelope answer => ⟨.session (.send envelope), answer⟩)
      (SettledIn msg signers options) signers
      ((sendTxMsgAsked quoted msg signers options).converse answers).1
      ((sendTxMsgAsked quoted msg signers options).converse answers).2 := by
  obtain ⟨asked, hasked, hanswered⟩ :=
    Dialogue.ends_through.1 (Dialogue.ends_converse answers :
      (sendTxMsgAsked quoted msg signers options).Ends _ _)
  generalize ((sendTxMsgAsked quoted msg signers options).converse answers).1 = log at *
  generalize ((sendTxMsgAsked quoted msg signers options).converse answers).2 = result at *
  cases Session.outcome_of_ends hasked with
  | refused hlog fault => exact .refused (not_commits_of_answered hanswered hlog) fault
  | unsigned hlog hsettled hmessage hsigners fault =>
    obtain ⟨before, _, rfl, hbefore, hafter⟩ := Dialogue.answered_append.1 hanswered
    rw [eq_map_of_answered_signed hsigners hafter]
    refine .unsigned (not_commits_of_answered hbefore hlog)
      (settledIn_of_settledFrom hbefore hsettled) hmessage (List.forall_mem_map.2 fun e he => ?_)
      fault
    obtain ⟨signer, hsigner, answer, rfl⟩ := hsigners e he
    exact ⟨signer, hsigner, answer, rfl⟩
  | sent hlog hsettled hmessage hsigned hwitnesses henvelope result =>
    obtain ⟨before, _, rfl, hbefore, hafter⟩ := Dialogue.answered_append.1 hanswered
    obtain ⟨_, _, rfl, hsignatures, hsend⟩ := Dialogue.answered_append.1 hafter
    have hsigners : SignersAsked Query.signed signers _ _ := fun e he =>
      let ⟨signer, hsigner, signature, hs⟩ := hsigned e he
      ⟨signer, hsigner, .ok signature, hs⟩
    rw [eq_map_of_answered_signed hsigners hsignatures,
      eq_map_of_answered (List.forall_mem_singleton.2 rfl) hsend]
    refine .sent (not_commits_of_answered hbefore hlog) (settledIn_of_settledFrom hbefore hsettled)
      hmessage (List.forall_mem_map.2 fun e he => ?_) (fun witness hw => ?_) henvelope result
    · obtain ⟨signer, hsigner, signature, rfl⟩ := hsigned e he
      exact ⟨signer, hsigner, signature, rfl⟩
    · obtain ⟨signer, hsigner, haddress, hmem⟩ := hwitnesses witness hw
      exact ⟨signer, hsigner, haddress, List.mem_map.2 ⟨_, hmem, rfl⟩⟩

end PhantasmaSdk
