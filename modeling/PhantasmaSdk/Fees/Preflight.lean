import PhantasmaSdk.Carbon.Slots
import PhantasmaSdk.Fees.Send
import PhantasmaSdk.Fees.Facts
import PhantasmaSdk.Machine.Dialogue

/-!
# What is asked before a token is created

The creation of a token pays for its symbol before the chain looks at it. So the
client asks the node first: about the symbol, and, if that is refused, about a token
that is certainly there, so as to know that a refusal means something. Here sending
is a dialogue with the node, the planner's cache and each signer, whose every answer
is free, to tell not only what is sent but what was asked before. A signer is asked
only once the message is found fit to be signed.

The pre-flight tells a creation by the message's type, where planning its fees tells
it by its calls. No creation is signed on a symbol that nothing is known of if it is
the one call of a message of that type (`guarded_iff`); in a batch, every one is.
-/

namespace PhantasmaSdk

open Machine

/-! ## The dialogue -/

/-- What sending a message asks of the node, of the planner's cache, which may have prices
    that have not expired, and of the signers. -/
inductive Query
  | tokenWithId (symbol : String) (tokenId : UInt64)
  | controlTokenId
  | cachedConfig
  | gasConfig (refresh : Bool)
  | infusedAssets (i : ℕ) (burned : BurnedInstance)
  | sign (signer : TxSigner) (message : Bytes)
  | send (envelope : Bytes)

abbrev Query.Answer : Query → Type
  | tokenWithId .. => Result Unit
  | controlTokenId => Result UInt64
  | cachedConfig => Option GasConfig
  | gasConfig _ => Result GasConfig
  | infusedAssets .. => Result (List InfusedAsset)
  | sign .. => Result Bytes64
  | send _ => Result String

/-- A signer is asked for its signature, or an envelope is sent. -/
def Query.Commits : Query → Prop
  | sign .. | send _ => True
  | _ => False

/-- The answers of a node, of a cache, and of signers that go by the code. -/
def Node.answer (node : Node) (cached : Option GasConfig) : ∀ q : Query, q.Answer
  | .tokenWithId symbol tokenId => node.tokenWithId symbol tokenId
  | .controlTokenId => node.controlTokenId
  | .cachedConfig => cached
  | .gasConfig refresh => node.gasConfig refresh
  | .infusedAssets i burned => node.infusedAssets i burned
  | .sign signer message => signer.signMessage message
  | .send envelope => node.sendCarbonTransaction envelope

/-- The node as it is seen through a planner whose cache has these prices. -/
def Node.caching (node : Node) (cached : Option GasConfig) : Node :=
  { node with
    gasConfig := fun refresh =>
      if refresh then node.gasConfig true else cached.elim (node.gasConfig false) pure }

abbrev Session (α : Type) := Dialogue Query Query.Answer (Result α)

namespace Session

def request (q : Query) : Dialogue Query Query.Answer q.Answer := .ask q .done

def preflightTransaction (msg : TxMsg) : Session PreflightResult :=
  let notApplicable : PreflightResult := { verdict := .notApplicable, subject := "", reason := "" }
  match msg.msg with
  | .call call =>
    if msg.txType ≠ .call ∨ call.moduleId ≠ ModuleId.token ∨
        call.methodId ≠ TokenContractMethod.createToken then .done (pure notApplicable)
    else
      match deserialize TokenInfo call.args with
      | .error (.panic p) => .done (.error (.panic p))
      | .error (.error e) => .done (builder s!"preflight: CreateToken arguments: {e.toText}")
      | .ok info =>
        let symbol := info.symbol.value
        if symbol = "" then .done (pure notApplicable)
        else
          let verdict (verdict : PreflightVerdict) (reason : String) : Session PreflightResult :=
            .done (pure { verdict, subject := s!"token symbol {symbol}", reason })
          .ask (.tokenWithId symbol 0) fun
            | .ok () => verdict .taken ""
            | .error (.panic p) => .done (.error (.panic p))
            | .error (.error e) =>
              .ask .controlTokenId fun
                | .error (.panic p) => .done (.error (.panic p))
                | .error (.error _) => verdict .unknown (lookupReason e)
                | .ok control =>
                  if control = 0 then verdict .unknown (lookupReason e)
                  else
                    .ask (.tokenWithId "" control) fun
                      | .ok () => verdict .free ""
                      | .error (.panic p) => .done (.error (.panic p))
                      | .error (.error probe) => verdict .unknown (lookupReason probe)
  | _ => .done (pure notApplicable)

def readInfusions : ℕ → List BurnedInstance → Session (List InfusedAsset)
  | _, [] => .done (pure [])
  | i, burned :: rest =>
    .ask (.infusedAssets i burned) fun
      | .error (.panic p) => .done (.error (.panic p))
      | .error (.error e) => .done (rpc none s!"reading what the burned NFT holds: {e.toText}")
      | .ok held => (readInfusions (i + 1) rest).andThen fun infusions =>
        .done (pure (held ++ infusions))

def withInfusions (msg : TxMsg) (facts : FeePlanOptions) : Session FeePlanOptions :=
  if facts.infusions.isSome ∨ (burnedInstances msg).isEmpty then .done (pure facts)
  else (readInfusions 0 (burnedInstances msg)).andThen fun infusions =>
    .done (pure { facts with infusions := some infusions })

/-- The planner's prices: those of its cache, unless they are to be fetched again. -/
def config (refresh : Bool) : Session GasConfig :=
  if refresh then request (.gasConfig true)
  else .ask .cachedConfig fun
    | some cached => .done (pure cached)
    | none => request (.gasConfig false)

def plan (msg : TxMsg) (options : PlanRequestOptions) : Session FeePlan :=
  (config options.refreshConfig).andThen fun config =>
    (withInfusions msg options.facts).andThen fun facts => .done (planFees msg config facts)

def preflight (msg : TxMsg) (options : SendTransactionOptions) : Session Unit :=
  if options.skipPreflight then .done (pure ())
  else (preflightTransaction msg).andThen fun check =>
    match check.verdict with
    | .taken => .done (Node.preflightFails s!"{check.subject} is already taken")
    | .unknown => .done (Node.preflightFails
        s!"could not establish whether {check.subject} is taken: {check.reason}")
    | .notApplicable | .free => .done (pure ())

def planned (msg : TxMsg) (signers : List TxSigner) (options : SendTransactionOptions) :
    Session TxMsg :=
  if msg.maxGas = 0 then
    (.done (countSigners msg options.plan.facts signers.length
      "send_tx_msg: too many signers") : Session FeePlanOptions).andThen fun facts =>
        (plan msg { options.plan with facts }).andThen fun plan => .done (pure (plan.apply msg))
  else .done (pure msg)

/-- The witnesses of the slots, each signer asked at its first, and kept for the others. -/
def askOnce (signers : List TxSigner) (message : Bytes) :
    (Fin signers.length → Option Bytes64) → List (Bytes32 × Fin signers.length) →
      Session (List Witness)
  | _, [] => .done (pure [])
  | asked, (address, i) :: slots =>
    ((asked i).elim (request (.sign (signers.get i) message)) fun signature =>
        .done (pure signature) : Session Bytes64).andThen fun signature =>
      (askOnce signers message (Function.update asked i (some signature)) slots).andThen
        fun witnesses => .done (pure ({ address, signature } :: witnesses))

/-- What is looked at before any signer is asked: the slots, and the bytes to sign. -/
def toSign (msg : TxMsg) (signers : List TxSigner) :
    Result (List (Bytes32 × Fin signers.length) × Bytes) := do
  assertSignable msg
  let slots ← witnessSlots msg (fun i => (signers.get i).publicKey) (List.finRange signers.length)
  let message ← serialize msg
  pure (slots, message)

def signTxMsgWith (msg : TxMsg) (signers : List TxSigner) : Session SignedTxMsg :=
  (.done (toSign msg signers) : Session _).andThen fun (slots, message) =>
    (askOnce signers message (fun _ => none) slots).andThen fun witnesses =>
      .done (pure { msg, witnesses })

def signAndSerializeTxMsgWith (msg : TxMsg) (signers : List TxSigner) : Session Bytes :=
  (signTxMsgWith msg signers).andThen fun signed => .done (serialize signed)

def sendTxMsg (msg : TxMsg) (signers : List TxSigner) (options : SendTransactionOptions) :
    Session String :=
  (preflight msg options).andThen fun _ =>
    (planned msg signers options).andThen fun msg =>
      (signAndSerializeTxMsgWith msg signers).andThen fun envelope => request (.send envelope)

/-! ## With a node and signers that answer -/

variable (node : Node) (cached : Option GasConfig) {msg : TxMsg} {signers : List TxSigner}
  {options : SendTransactionOptions}

theorem run_preflightTransaction :
    (preflightTransaction msg).run (node.answer cached) =
      (node.caching cached).preflightTransaction msg := by
  change _ = node.preflightTransaction msg
  rw [preflightTransaction, Node.preflightTransaction]
  cases msg.msg with
  | call call =>
    dsimp only
    split
    · rfl
    · cases deserialize TokenInfo call.args with
      | error e => cases e <;> rfl
      | ok info =>
        dsimp only
        split
        · rfl
        · simp only [Dialogue.run, Node.answer]
          cases node.tokenWithId info.symbol.value 0 with
          | ok _ => rfl
          | error e =>
            cases e with
            | panic p => rfl
            | error e =>
              simp only [Dialogue.run, Node.answer]
              cases node.controlTokenId with
              | error e => cases e <;> rfl
              | ok control =>
                dsimp only
                split
                · rfl
                · simp only [Dialogue.run, Node.answer]
                  cases node.tokenWithId "" control with
                  | ok _ => rfl
                  | error e => cases e <;> rfl
  | _ => rfl

theorem run_readInfusions (i : ℕ) (burned : List BurnedInstance) :
    (readInfusions i burned).run (node.answer cached) =
      (node.caching cached).readInfusions i burned := by
  induction burned generalizing i with
  | nil => rfl
  | cons b rest ih =>
    have hheld : (node.caching cached).infusedAssets i b = node.infusedAssets i b := rfl
    rw [readInfusions, Node.readInfusions, Dialogue.run, Node.answer, hheld]
    cases node.infusedAssets i b with
    | error e => cases e <;> rfl
    | ok held =>
      simp only [Dialogue.run_andThen, ih]
      rfl

theorem run_config (refresh : Bool) :
    (config refresh).run (node.answer cached) = (node.caching cached).gasConfig refresh := by
  cases refresh <;> cases cached <;> rfl

theorem run_plan (options : PlanRequestOptions) :
    (plan msg options).run (node.answer cached) = (node.caching cached).plan msg options := by
  have hwith : (withInfusions msg options.facts).run (node.answer cached) =
      (node.caching cached).withInfusions msg options.facts := by
    rw [withInfusions, Node.withInfusions]
    split
    · rfl
    · rw [Dialogue.run_andThen, run_readInfusions]
      rfl
  rw [plan, Node.plan, Dialogue.run_andThen, run_config]
  refine congrArg _ (funext fun config => ?_)
  rw [Dialogue.run_andThen, hwith]
  rfl

theorem run_askOnce (message : Bytes) (asked : Fin signers.length → Option Bytes64)
    (slots : List (Bytes32 × Fin signers.length)) :
    (askOnce signers message asked slots).run (node.answer cached) =
      PhantasmaSdk.askOnce (fun i => (signers.get i).signMessage message) asked slots := by
  induction slots generalizing asked with
  | nil => rfl
  | cons slot slots ih =>
    obtain ⟨address, i⟩ := slot
    rw [askOnce, PhantasmaSdk.askOnce, Dialogue.run_andThen]
    have hsignature : ((asked i).elim (request (.sign (signers.get i) message)) fun signature =>
        .done (pure signature) : Session Bytes64).run (node.answer cached) =
          (asked i).elim ((signers.get i).signMessage message) pure := by
      cases asked i <;> rfl
    rw [hsignature]
    refine congrArg _ (funext fun signature => ?_)
    rw [Dialogue.run_andThen, ih]
    rfl

/-- Signers that say the same again are asked as often as one likes. -/
theorem run_signAndSerializeTxMsgWith :
    (signAndSerializeTxMsgWith msg signers).run (node.answer cached) =
      PhantasmaSdk.signAndSerializeTxMsgWith msg signers := by
  have hsigned : (signTxMsgWith msg signers).run (node.answer cached) =
      signTxMsgWithAsked msg signers := by
    rw [signTxMsgWith, signTxMsgWithAsked, Dialogue.run_andThen, Dialogue.run, toSign]
    cases assertSignable msg with
    | error e => rfl
    | ok _ =>
      change Except.bind (Except.bind _ _) _ = Except.bind _ _
      cases witnessSlots msg (fun i => (signers.get i).publicKey)
        (List.finRange signers.length) with
      | error e => rfl
      | ok slots =>
        cases serialize msg with
        | error e => rfl
        | ok message =>
          change Dialogue.run _ (Dialogue.andThen _ _) = Except.bind _ _
          rw [Dialogue.run_andThen, run_askOnce]
          rfl
  rw [signAndSerializeTxMsgWith, PhantasmaSdk.signAndSerializeTxMsgWith, Dialogue.run_andThen,
    hsigned, signTxMsgWithAsked_eq]
  rfl

/-- Sending through a node is the dialogue with it. -/
theorem run_sendTxMsg : (sendTxMsg msg signers options).run (node.answer cached) =
    (node.caching cached).sendTxMsg msg signers options := by
  have hpreflight : (preflight msg options).run (node.answer cached) =
      (node.caching cached).preflight msg options := by
    rw [preflight, Node.preflight]
    split
    · rfl
    · rw [Dialogue.run_andThen, run_preflightTransaction]
      refine congrArg _ (funext fun check => ?_)
      cases check.verdict <;> rfl
  have hplanned : (planned msg signers options).run (node.answer cached) =
      (node.caching cached).planned msg signers options := by
    rw [planned, Node.planned]
    split
    · rw [Dialogue.run_andThen]
      refine congrArg _ (funext fun facts => ?_)
      rw [Dialogue.run_andThen, run_plan]
      rfl
    · rfl
  rw [sendTxMsg, Node.sendTxMsg, Node.sentEnvelope, Dialogue.run_andThen, hpreflight]
  simp only [Dialogue.run_andThen, hplanned, run_signAndSerializeTxMsgWith, bind_assoc]
  rfl

end Session

/-! ## Creations -/

/-- What is described as the creation of a token is a call to that method. -/
theorem eq_of_describeCall_createToken {call : TxMsgCall} {state : NativeFeeParams}
    {options : FeePlanOptions} {infusions : Option (List InfusedAsset)} {part : NativeFeePart}
    (h : describeCall call state options infusions = .ok part) (hkind : part.kind = .createToken) :
    call.moduleId = ModuleId.token ∧ call.methodId = TokenContractMethod.createToken := by
  rw [kind_describedKind h] at hkind
  exact ((describedKind_eq_iff (by decide)).1 hkind).2

/-- The calls of a message. -/
def TxMsg.calls (msg : TxMsg) : List TxMsgCall :=
  match msg.msg with
  | .call call => [call]
  | .callMulti batch => batch.calls
  | _ => []

/-- Planning describes the call as the creation of a token of the symbol, which is not
    empty. -/
def TxMsgCall.Creates (call : TxMsgCall) (symbol : String) : Prop :=
  symbol ≠ "" ∧
    (∃ options infusions part, describeCall call options.state options infusions = .ok part ∧
      part.kind = .createToken) ∧
    ∃ info, deserialize TokenInfo call.args = .ok info ∧ info.symbol.value = symbol

/-- One of the message's calls is such a creation. -/
def TxMsg.Creates (msg : TxMsg) (symbol : String) : Prop :=
  ∃ call ∈ msg.calls, call.Creates symbol

/-- In the log, the lookup of the symbol was refused, and that of the control token
    answered. -/
def Established (log : Dialogue.Log Query.Answer) (symbol : String) : Prop :=
  (∃ e, ⟨.tokenWithId symbol 0, .error (.error e)⟩ ∈ log) ∧
    ∃ control, control ≠ 0 ∧ ⟨.controlTokenId, .ok control⟩ ∈ log ∧
      ⟨.tokenWithId "" control, .ok ()⟩ ∈ log

theorem Established.mono {log log' : Dialogue.Log Query.Answer} {symbol : String}
    (h : Established log symbol) (hsub : log ⊆ log') : Established log' symbol :=
  let ⟨⟨e, he⟩, control, hne, hcontrol, hok⟩ := h
  ⟨⟨e, hsub he⟩, control, hne, hsub hcontrol, hsub hok⟩

/-! ## What the parts of the dialogue ask, and how they end -/

/-- The question is one that planning asks. -/
def Query.Plans : Query → Prop
  | cachedConfig | gasConfig _ | infusedAssets .. => True
  | _ => False

/-- The facts that a plan goes by: those of the caller, with what the burned NFTs hold
    where the message burns some and the caller does not state it. -/
def Supplied (msg : TxMsg) (facts supplied : FeePlanOptions) : Prop :=
  if facts.infusions.isSome ∨ (burnedInstances msg).isEmpty then supplied = facts
  else ∃ infusions, supplied = { facts with infusions := some infusions }

/-- The message gets as far as its signers: they are those it asks for, it serializes, and
    it has a gas offer, or there are prices and holdings for which planning makes one, the
    signers being counted where they have to be. -/
structure TxMsg.Sendable (msg : TxMsg) (signers : List TxSigner) (facts : FeePlanOptions) :
    Prop where
  goesWith : msg.GoesWith (signers.map TxSigner.publicKey)
  serialized : ∃ enc, serialize msg = .ok enc
  offered : msg.maxGas = 0 → ∃ counted supplied config plan,
    countSigners msg facts signers.length "send_tx_msg: too many signers" = .ok counted ∧
      Supplied msg counted supplied ∧ planFees msg config supplied = .ok plan ∧ plan.maxGas ≠ 0

namespace Session

variable {msg : TxMsg} {signers : List TxSigner} {options : PlanRequestOptions}
  {log : Dialogue.Log Query.Answer} {symbol : String} {q : Query}

theorem only_preflightTransaction : (preflightTransaction msg).Only (¬·.Commits) := by
  rw [preflightTransaction]
  cases msg.msg with
  | call call =>
    dsimp only
    split
    · trivial
    · cases deserialize TokenInfo call.args with
      | error e => cases e <;> trivial
      | ok info =>
        dsimp only
        split
        · trivial
        · refine ⟨id, fun answer => ?_⟩
          rcases answer with (e | p) | _
          · refine ⟨id, fun answer => ?_⟩
            rcases answer with (_ | p) | control
            · trivial
            · trivial
            · dsimp only
              split
              · trivial
              · refine ⟨id, fun answer => ?_⟩
                rcases answer with (_ | p) | _ <;> trivial
          · trivial
          · trivial
  | _ => trivial

theorem only_preflight {options : SendTransactionOptions} :
    (preflight msg options).Only (¬·.Commits) := by
  rw [preflight]
  split
  · trivial
  · refine only_preflightTransaction.andThen fun check => ?_
    cases check.verdict <;> trivial

theorem only_readInfusions (i : ℕ) (burned : List BurnedInstance) :
    (readInfusions i burned).Only Query.Plans := by
  induction burned generalizing i with
  | nil => trivial
  | cons b rest ih =>
    refine ⟨trivial, fun answer => ?_⟩
    rcases answer with (e | p) | held
    · trivial
    · trivial
    · exact (ih (i + 1)).andThen fun _ => trivial

theorem only_config {refresh : Bool} : (config refresh).Only Query.Plans := by
  cases refresh with
  | true => exact ⟨trivial, fun _ => trivial⟩
  | false =>
    refine ⟨trivial, fun answer => ?_⟩
    rcases answer with _ | cached
    · exact ⟨trivial, fun _ => trivial⟩
    · trivial

theorem only_planned {options : SendTransactionOptions} :
    (planned msg signers options).Only Query.Plans := by
  have hwith (facts : FeePlanOptions) : (withInfusions msg facts).Only Query.Plans := by
    rw [withInfusions]
    split
    · trivial
    · exact (only_readInfusions _ _).andThen fun _ => trivial
  rw [planned]
  split
  · refine Dialogue.Only.andThen trivial fun facts => Dialogue.Only.andThen ?_ fun _ => trivial
    exact only_config.andThen fun config => (hwith facts).andThen fun _ => trivial
  · trivial

/-- What NFTs are told to hold may be anything. -/
theorem exists_ends_readInfusions {i : ℕ} {burned : List BurnedInstance} (h : burned ≠ [])
    (infusions : List InfusedAsset) : ∃ log, (readInfusions i burned).Ends log (.ok infusions) := by
  have hnone (i : ℕ) (burned : List BurnedInstance) :
      ∃ log, (readInfusions i burned).Ends log (.ok []) := by
    induction burned generalizing i with
    | nil => exact ⟨[], rfl, rfl⟩
    | cons b rest ih =>
      obtain ⟨log, hlog⟩ := ih (i + 1)
      exact ⟨⟨.infusedAssets i b, .ok []⟩ :: log, _, rfl, Dialogue.ends_andThen_ok.2
        ⟨_, log, [], (List.append_nil _).symm, hlog, rfl, rfl⟩⟩
  obtain ⟨b, rest, rfl⟩ := List.exists_cons_of_ne_nil h
  obtain ⟨log, hlog⟩ := hnone (i + 1) rest
  exact ⟨⟨.infusedAssets i b, .ok infusions⟩ :: log, _, rfl, Dialogue.ends_andThen_ok.2
    ⟨_, log, [], (List.append_nil _).symm, hlog, rfl, by rw [List.append_nil]; rfl⟩⟩

/-- The facts a plan may go by are those the node's answers may supply. -/
theorem supplied_iff {facts supplied : FeePlanOptions} :
    Supplied msg facts supplied ↔ ∃ log, (withInfusions msg facts).Ends log (.ok supplied) := by
  rw [Supplied, withInfusions]
  split
  next =>
    constructor
    · exact fun h => ⟨[], rfl, congrArg _ h.symm⟩
    · rintro ⟨log, h⟩
      exact (Except.ok.inj (Dialogue.ends_done.1 h).2).symm
  next hnot =>
    have hburned : burnedInstances msg ≠ [] := fun h => hnot (.inr (by rw [h]; rfl))
    constructor
    · rintro ⟨infusions, rfl⟩
      obtain ⟨log, hlog⟩ := exists_ends_readInfusions (i := 0) hburned infusions
      exact ⟨log, Dialogue.ends_andThen_ok.2
        ⟨infusions, log, [], (List.append_nil _).symm, hlog, rfl, rfl⟩⟩
    · rintro ⟨log, h⟩
      obtain ⟨infusions, _, _, _, _, hf⟩ := Dialogue.ends_andThen_ok.1 h
      exact ⟨infusions, (Except.ok.inj (Dialogue.ends_done.1 hf).2).symm⟩

/-- The planner may give any prices. -/
theorem exists_ends_config (refresh : Bool) (prices : GasConfig) :
    ∃ log, (config refresh).Ends log (.ok prices) := by
  cases refresh with
  | true => exact ⟨[⟨.gasConfig true, .ok prices⟩], _, rfl, rfl, rfl⟩
  | false => exact ⟨[⟨.cachedConfig, some prices⟩], _, rfl, rfl, rfl⟩

/-- What is signed is the message with its own limits, or with those of a plan. -/
theorem planned_cases {planned' : TxMsg}
    (h : (planned msg signers { plan := options }).Ends log (.ok planned')) :
    msg.maxGas ≠ 0 ∧ planned' = msg ∨ msg.maxGas = 0 ∧ ∃ counted supplied config plan,
      countSigners msg options.facts signers.length "send_tx_msg: too many signers" =
          .ok counted ∧
        Supplied msg counted supplied ∧ planFees msg config supplied = .ok plan ∧
          planned' = plan.apply msg := by
  rw [planned] at h
  split at h
  next hgas =>
    obtain ⟨counted, _, _, _, hcounted, h⟩ := Dialogue.ends_andThen_ok.1 h
    obtain ⟨plan, _, _, _, h, happly⟩ := Dialogue.ends_andThen_ok.1 h
    obtain ⟨config, _, _, _, _, h⟩ := Dialogue.ends_andThen_ok.1 h
    obtain ⟨supplied, l, _, _, hsupplied, h⟩ := Dialogue.ends_andThen_ok.1 h
    exact .inr ⟨hgas, counted, supplied, config, plan, (Dialogue.ends_done.1 hcounted).2,
      supplied_iff.2 ⟨l, hsupplied⟩, (Dialogue.ends_done.1 h).2,
      (Except.ok.inj (Dialogue.ends_done.1 happly).2).symm⟩
  next hgas => exact .inl ⟨hgas, (Except.ok.inj (Dialogue.ends_done.1 h).2).symm⟩

/-- Whatever plan there is, the answers may lead to it. -/
theorem exists_ends_planned {counted supplied : FeePlanOptions} {prices : GasConfig}
    {plan' : FeePlan} (hgas : msg.maxGas = 0)
    (hcounted : countSigners msg options.facts signers.length "send_tx_msg: too many signers" =
      .ok counted)
    (hsupplied : Supplied msg counted supplied) (hplan : planFees msg prices supplied = .ok plan') :
    ∃ log, (planned msg signers { plan := options }).Ends log (.ok (plan'.apply msg)) := by
  obtain ⟨l₁, hprices⟩ := exists_ends_config options.refreshConfig prices
  obtain ⟨l₂, hfacts⟩ := supplied_iff.1 hsupplied
  rw [planned, if_pos hgas]
  refine ⟨l₁ ++ l₂, Dialogue.ends_andThen_ok.2 ⟨counted, [], _, rfl, ⟨rfl, hcounted⟩, ?_⟩⟩
  refine Dialogue.ends_andThen_ok.2 ⟨plan', _, [], (List.append_nil _).symm, ?_, rfl, rfl⟩
  exact Dialogue.ends_andThen_ok.2 ⟨prices, l₁, l₂, rfl, hprices, Dialogue.ends_andThen_ok.2
    ⟨supplied, l₂, [], (List.append_nil _).symm, hfacts, rfl, hplan⟩⟩

theorem toSign_eq_ok {slots : List (Bytes32 × Fin signers.length)} {message : Bytes} :
    toSign msg signers = .ok (slots, message) ↔ assertSignable msg = .ok () ∧
      witnessSlots msg (fun i => (signers.get i).publicKey) (List.finRange signers.length) =
          .ok slots ∧
        serialize msg = .ok message := by
  constructor
  · intro h
    obtain ⟨⟨⟩, hsignable, h⟩ := bind_eq_ok.1 h
    obtain ⟨slots', hslots, h⟩ := bind_eq_ok.1 h
    obtain ⟨message', hmessage, h⟩ := bind_eq_ok.1 h
    obtain ⟨rfl, rfl⟩ := Prod.mk.inj (Except.ok.inj h)
    exact ⟨hsignable, hslots, hmessage⟩
  · rintro ⟨hsignable, hslots, hmessage⟩
    exact bind_eq_ok.2 ⟨(), hsignable, bind_eq_ok.2 ⟨slots, hslots,
      bind_eq_ok.2 ⟨message, hmessage, rfl⟩⟩⟩

/-- A message that has calls is no native transfer, and needs a gas offer only. -/
theorem assertSignable_of_calls (hcalls : msg.calls ≠ []) :
    assertSignable msg = .ok () ↔ msg.maxGas ≠ 0 := by
  rw [assertSignable]
  split
  next hgas => simp [builder, hgas]
  next hgas =>
    refine iff_of_true ?_ hgas
    rw [TxMsg.calls] at hcalls
    cases hmsg : msg.msg <;> rw [hmsg] at hcalls <;> first | exact absurd rfl hcalls | skip
    all_goals cases msg.txType <;> rfl

theorem exists_toSign_iff (hcalls : msg.calls ≠ []) :
    (∃ slots message, toSign msg signers = .ok (slots, message)) ↔
      msg.maxGas ≠ 0 ∧ msg.GoesWith (signers.map TxSigner.publicKey) ∧
        ∃ enc, serialize msg = .ok enc := by
  have haddresses : (List.finRange signers.length).map (fun i => (signers.get i).publicKey) =
      signers.map TxSigner.publicKey := by
    conv_rhs => rw [← List.map_get_finRange signers, List.map_map]
    rfl
  simp only [toSign_eq_ok, assertSignable_of_calls hcalls, ← haddresses, ← exists_witnessSlots_iff]
  constructor
  · rintro ⟨slots, message, hgas, hslots, hmessage⟩
    exact ⟨hgas, ⟨slots, hslots⟩, message, hmessage⟩
  · rintro ⟨hgas, ⟨slots, hslots⟩, message, hmessage⟩
    exact ⟨slots, message, hgas, hslots, hmessage⟩

/-- A message that is found fit to be signed is signed, or sent without witnesses. -/
theorem exists_asks_of_toSign {slots : List (Bytes32 × Fin signers.length)} {message : Bytes}
    (h : toSign msg signers = .ok (slots, message)) :
    ∃ q : Query, q.Commits ∧ ((signAndSerializeTxMsgWith msg signers).andThen
      fun envelope => request (.send envelope)).Asks [] q := by
  rw [signAndSerializeTxMsgWith, signTxMsgWith, h]
  cases slots with
  | cons slot slots => exact ⟨.sign (signers.get slot.2) message, trivial, rfl⟩
  | nil =>
    -- The type takes no witnesses, and the message alone is sent.
    obtain ⟨-, hslots, hmessage⟩ := toSign_eq_ok.1 h
    have hadmits : msg.Admits [] := by
      obtain ⟨haddresses, -⟩ := address_of_witnessSlots hslots
      have hgoes := exists_witnessSlots_iff.1 ⟨_, hslots⟩
      rw [TxMsg.Admits]
      rw [TxMsg.GoesWith] at hgoes
      cases hr : requiredWitnesses msg with
      | some required => rw [hr] at haddresses; exact haddresses
      | none =>
        rw [hr] at haddresses hgoes
        rw [show (List.finRange signers.length).map (fun i => (signers.get i).publicKey) = [] from
          haddresses.symm] at hgoes
        exact absurd hgoes List.not_mem_nil
    obtain ⟨envelope, henvelope⟩ :=
      (SignedTxMsg.exists_writeCarbon_iff hmessage fun _ => by simp).2 hadmits
    refine ⟨.send envelope, trivial, ?_⟩
    change Dialogue.Asks (Dialogue.andThen (.done (serialize (⟨msg, []⟩ : SignedTxMsg))) _) [] _
    rw [serialize, henvelope]
    rfl

/-- Nothing is signed or sent of a message that is not found fit to be signed. -/
theorem not_asks_of_toSign (h : ¬∃ slots message, toSign msg signers = .ok (slots, message)) :
    ¬((signAndSerializeTxMsgWith msg signers).andThen fun envelope =>
      request (.send envelope)).Asks log q := by
  rw [signAndSerializeTxMsgWith, signTxMsgWith]
  cases hsign : toSign msg signers with
  | error e => exact Dialogue.asks_done
  | ok found => exact absurd ⟨found.1, found.2, hsign⟩ h

/-- A message that has calls gets as far as its signers iff the answers may lead there. -/
theorem sendable_iff (hcalls : msg.calls ≠ []) : msg.Sendable signers options.facts ↔
    ∃ log planned', (planned msg signers { plan := options }).Ends log (.ok planned') ∧
      ∃ slots message, toSign planned' signers = .ok (slots, message) := by
  constructor
  · rintro ⟨hgoes, ⟨enc, henc⟩, hoffered⟩
    by_cases hgas : msg.maxGas = 0
    · obtain ⟨counted, supplied, prices, plan, hcounted, hsupplied, hplan, hoffer⟩ :=
        hoffered hgas
      obtain ⟨log, hlog⟩ := exists_ends_planned hgas hcounted hsupplied hplan
      obtain ⟨enc', henc', -⟩ := TxMsg.writeCarbon_apply plan henc
      have hcalls' : (plan.apply msg).calls ≠ [] := hcalls
      exact ⟨log, _, hlog, (exists_toSign_iff hcalls').2 ⟨hoffer, hgoes, enc', henc'⟩⟩
    · refine ⟨[], msg, ?_, (exists_toSign_iff hcalls).2 ⟨hgas, hgoes, enc, henc⟩⟩
      rw [planned, if_neg hgas]
      exact ⟨rfl, rfl⟩
  · rintro ⟨log, planned', hlog, hsign⟩
    rcases planned_cases hlog with ⟨hgas, rfl⟩ | ⟨hgas, counted, supplied, prices, plan, hcounted,
      hsupplied, hplan, rfl⟩
    · obtain ⟨-, hgoes, henc⟩ := (exists_toSign_iff hcalls).1 hsign
      exact ⟨hgoes, henc, fun h => absurd h hgas⟩
    · have hcalls' : (plan.apply msg).calls ≠ [] := hcalls
      obtain ⟨hoffer, hgoes, -⟩ := (exists_toSign_iff hcalls').1 hsign
      exact ⟨hgoes, SignedTxMsg.exists_writeCarbon_of_envelopeBytes (envelopeBytes_of_planFees hplan),
        fun _ => ⟨counted, supplied, prices, plan, hcounted, hsupplied, hplan, hoffer⟩⟩

/-- The pre-flight of a call that creates a token ends well only where its symbol is
    established. -/
theorem established_of_preflight {call : TxMsgCall} (htype : msg.txType = .call)
    (hmsg : msg.msg = .call call) (hcall : call.Creates symbol)
    (h : (preflight msg { plan := options }).Ends log (.ok ())) : Established log symbol := by
  obtain ⟨hne, ⟨_, _, part, hpart, hkind⟩, info, hinfo, rfl⟩ := hcall
  obtain ⟨hmodule, hmethod⟩ := eq_of_describeCall_createToken hpart hkind
  have hcreates : ¬(msg.txType ≠ .call ∨ call.moduleId ≠ ModuleId.token ∨
      call.methodId ≠ TokenContractMethod.createToken) := by
    simp [htype, hmodule, hmethod]
  obtain ⟨check, l₁, l₂, rfl, hcheck, h⟩ := Dialogue.ends_andThen_ok.1 h
  have hverdict : check.verdict ≠ .taken ∧ check.verdict ≠ .unknown := by
    constructor <;> intro hv <;> rw [hv] at h <;> cases (Dialogue.ends_done.1 h).2
  refine Established.mono ?_ (List.subset_append_left _ _)
  rw [preflightTransaction, hmsg] at hcheck
  simp only [if_neg hcreates, hinfo, if_neg hne] at hcheck
  -- The verdict of every other end is taken or unknown.
  rcases l₁ with _ | ⟨e₁, l₁⟩
  · exact hcheck.elim
  obtain ⟨answer, rfl, hcheck⟩ := hcheck
  rcases answer with (e | p) | _
  · rcases l₁ with _ | ⟨e₂, l₁⟩
    · exact hcheck.elim
    obtain ⟨answer, rfl, hcheck⟩ := hcheck
    rcases answer with (_ | p) | control
    · exact absurd (Except.ok.inj (Dialogue.ends_done.1 hcheck).2 ▸ rfl) hverdict.2
    · cases (Dialogue.ends_done.1 hcheck).2
    · dsimp only at hcheck
      split at hcheck
      next => exact absurd (Except.ok.inj (Dialogue.ends_done.1 hcheck).2 ▸ rfl) hverdict.2
      next hcontrol =>
        rcases l₁ with _ | ⟨e₃, l₁⟩
        · exact hcheck.elim
        obtain ⟨answer, rfl, hcheck⟩ := hcheck
        rcases answer with (_ | p) | _
        · exact absurd (Except.ok.inj (Dialogue.ends_done.1 hcheck).2 ▸ rfl) hverdict.2
        · cases (Dialogue.ends_done.1 hcheck).2
        · exact ⟨⟨e, by simp⟩, control, hcontrol, by simp, by simp⟩
  · cases (Dialogue.ends_done.1 hcheck).2
  · exact absurd (Except.ok.inj (Dialogue.ends_done.1 hcheck).2 ▸ rfl) hverdict.1

/-- The pre-flight of any message but a call asks nothing. -/
theorem preflight_eq (h : ¬(msg.txType = .call ∧ ∃ call, msg.msg = .call call)) :
    preflight msg { plan := options } = .done (.ok ()) := by
  rw [preflight, preflightTransaction]
  cases hmsg : msg.msg with
  | call call =>
    have htype : msg.txType ≠ .call := fun htype => h ⟨htype, call, hmsg⟩
    simp only [if_pos (Or.inl htype)]
    rfl
  | _ => rfl

/-- Nothing is established by what planning asks. -/
theorem not_established_of_plans (h : ∀ e ∈ log, Query.Plans e.1) : ¬Established log symbol :=
  fun ⟨⟨_, he⟩, _⟩ => h _ he

/-- Whatever is answered, a signer of a message with the pre-flight on is asked, and the
    message is sent, only after the symbol of every token it is recognised to create has
    been established, exactly if it is a call by its type and its body, or creates none,
    or does not get as far as its signers. -/
theorem guarded_iff (msg : TxMsg) (signers : List TxSigner) (options : PlanRequestOptions) :
    (∀ log q, (sendTxMsg msg signers { plan := options }).Asks log q → q.Commits →
      ∀ symbol, msg.Creates symbol → Established log symbol) ↔
    (msg.txType = .call ∧ ∃ call, msg.msg = .call call) ∨ (∀ symbol, ¬msg.Creates symbol) ∨
      ¬msg.Sendable signers options.facts := by
  have hcalls : ∀ symbol, msg.Creates symbol → msg.calls ≠ [] := fun symbol ⟨_, hmem, _⟩ =>
    List.ne_nil_of_mem hmem
  constructor
  · intro h
    by_contra hnot
    simp only [not_or, not_forall, not_not] at hnot
    obtain ⟨hcall, ⟨symbol, hcreates⟩, hsend⟩ := hnot
    -- The pre-flight asks nothing, and planning no symbol.
    obtain ⟨log, planned', hlog, slots, message, hsign⟩ :=
      (sendable_iff (hcalls symbol hcreates)).1 hsend
    obtain ⟨q, hq, hasks⟩ := exists_asks_of_toSign hsign
    refine not_established_of_plans (only_planned.ends hlog) (h log q ?_ hq symbol hcreates)
    rw [sendTxMsg, preflight_eq hcall, Dialogue.done_ok_andThen]
    exact Dialogue.asks_andThen.2 (.inr ⟨planned', log, [], (List.append_nil _).symm, hlog, hasks⟩)
  · intro hcond log q hasks hq symbol hcreates
    rcases Dialogue.asks_andThen.1 hasks with hasks | ⟨_, l₁, l₂, rfl, hends, hasks⟩
    · exact absurd hq (only_preflight.asks hasks)
    rcases hcond with ⟨htype, call, hmsg⟩ | hnone | hsend
    · obtain ⟨call', hmem, hcreates⟩ := hcreates
      rw [TxMsg.calls, hmsg] at hmem
      obtain rfl := List.mem_singleton.1 hmem
      exact (established_of_preflight htype hmsg hcreates hends).mono (List.subset_append_left _ _)
    · exact absurd hcreates (hnone symbol)
    · rcases Dialogue.asks_andThen.1 hasks with hasks | ⟨planned', l₃, _, _, hends, hasks⟩
      · have hplans := only_planned.asks hasks
        cases q <;> first | exact hplans.elim | exact hq.elim
      · refine absurd hasks (not_asks_of_toSign fun hsign => hsend ?_)
        exact (sendable_iff (hcalls symbol hcreates)).2 ⟨l₃, planned', hends, hsign⟩

/-- A call that creates a fungible token of the symbol `A`, without metadata. -/
def createA : TxMsgCall where
  moduleId := ModuleId.token
  methodId := TokenContractMethod.createToken
  args := 8 :: List.replicate 42 0 ++ [1, 65, 0, 0, 0, 0]
  sections := none

theorem creates_createA : createA.Creates "A" := by
  have hkind : (describeCall createA noFacts.state noFacts (some [])).toOption.map
      NativeFeePart.kind = some .createToken := by decide +kernel
  have hsymbol : (deserialize TokenInfo createA.args).toOption.map
      (fun info => info.symbol.value) = some "A" := by decide +kernel
  cases hpart : describeCall createA noFacts.state noFacts (some []) with
  | error e => rw [hpart] at hkind; cases hkind
  | ok part =>
    cases hinfo : deserialize TokenInfo createA.args with
    | error e => rw [hinfo] at hsymbol; cases hsymbol
    | ok info =>
      rw [hpart] at hkind
      rw [hinfo] at hsymbol
      exact ⟨by decide, ⟨noFacts, some [], part, hpart, Option.some.inj hkind⟩, info, hinfo,
        Option.some.inj hsymbol⟩

/-- In a batch of one call, with a gas offer, the account paying the gas is asked to sign
    for the token, and nothing has been asked before. -/
theorem not_guarded : ¬∀ (msg : TxMsg) (signers : List TxSigner) (options : PlanRequestOptions)
    (log : Dialogue.Log Query.Answer) (q : Query),
    (sendTxMsg msg signers { plan := options }).Asks log q → q.Commits →
      ∀ symbol, msg.Creates symbol → Established log symbol := by
  intro h
  let payer : TxSigner := (toyKeys 1).toTxSigner
  let msg : TxMsg := ⟨.callMulti, 0, 1, 0, payer.publicKey, ⟨""⟩, .callMulti ⟨[createA]⟩⟩
  have hcalls : msg.calls ≠ [] := List.cons_ne_nil _ _
  obtain ⟨enc, henc⟩ := exists_ok_of_isSome (x := serialize msg) (by decide +kernel)
  obtain ⟨slots, message, hsign⟩ : ∃ slots message, toSign msg [payer] = .ok (slots, message) :=
    (exists_toSign_iff hcalls).2 ⟨by decide, List.mem_singleton_self _, enc, henc⟩
  obtain ⟨q, hq, hasks⟩ := exists_asks_of_toSign hsign
  obtain ⟨⟨_, he⟩, _⟩ := h msg [payer] {} [] q hasks hq "A"
    ⟨createA, List.mem_singleton_self _, creates_createA⟩
  exact absurd he List.not_mem_nil

end Session

end PhantasmaSdk
