import PhantasmaSdk.Carbon.Sign
import PhantasmaSdk.Fees.Plan

/-!
# Sending

A message is planned, signed and sent in one step, by keys in memory or through a
node. The bytes that are sent are the envelope of the message with the limits of
the plan, and the plan is a price for an envelope of some size: the two sizes are
compared here, for every message, signer and node.
-/

namespace PhantasmaSdk

open Codec Codec.Decoder CarbonWriter CarbonReader

/-! ## The envelope of a planned message -/

namespace TxMsg

variable {msg : TxMsg} {enc : Bytes}

/-- A plan does not change how many bytes a message is. -/
theorem writeCarbon_apply (plan : FeePlan) (hmsg : writeCarbon msg = .ok enc) :
    ∃ enc', writeCarbon (plan.apply msg) = .ok enc' ∧ enc'.length = enc.length := by
  obtain ⟨header, body, hheader, hbody, rfl⟩ := writeCarbon_eq_ok.1 hmsg
  obtain ⟨payload, hpayload, hheader⟩ := bind_eq_ok.1 hheader
  obtain rfl := Except.ok.inj hheader
  refine ⟨_, writeCarbon_eq_ok.2 ⟨_, body, bind_eq_ok.2 ⟨payload, hpayload, rfl⟩, hbody, rfl⟩, ?_⟩
  simp only [List.length_append, write8u, length_toLE]
  rfl

theorem layout_apply (plan : FeePlan) : (plan.apply msg).layout = msg.layout := rfl

theorem requiredWitnesses_apply (plan : FeePlan) :
    requiredWitnesses (plan.apply msg) = requiredWitnesses msg := rfl

theorem admits_apply (plan : FeePlan) (witnesses : List Witness) :
    (plan.apply msg).Admits witnesses ↔ msg.Admits witnesses := Iff.rfl

end TxMsg

namespace SignedTxMsg

variable {msg : TxMsg} {enc : Bytes} {witnesses : List Witness}

/-- The envelope of a planned message has the size of the unplanned one. -/
theorem writeCarbon_apply (plan : FeePlan) (hmsg : writeCarbon msg = .ok enc)
    (hl : witnesses.length < 2 ^ 31) {env : Bytes}
    (henv : writeCarbon (⟨msg, witnesses⟩ : SignedTxMsg) = .ok env) :
    ∃ env', writeCarbon (⟨plan.apply msg, witnesses⟩ : SignedTxMsg) = .ok env' ∧
      env'.length = env.length := by
  obtain ⟨enc', hmsg', hlen⟩ := TxMsg.writeCarbon_apply plan hmsg
  obtain ⟨env', henv'⟩ := (exists_writeCarbon_iff hmsg' fun _ => by omega).2
    ((TxMsg.admits_apply plan witnesses).2 ((exists_writeCarbon_iff hmsg fun _ => by omega).1 ⟨env, henv⟩))
  refine ⟨env', henv', ?_⟩
  rw [length_writeCarbon hmsg' henv', length_writeCarbon hmsg henv, hlen, TxMsg.layout_apply]

/-- An envelope serializes iff its witnesses are those the message fixes, in order,
    or an array that the account paying the gas is in. It is then read back, if its
    message is; it is as long as predicted for as many witnesses; and no plan
    changes its length. -/
theorem serialize_envelope (msg : TxMsg) (witnesses : List Witness) (enc : Bytes)
    (ht : msg.Typed) (hmsg : serialize msg = .ok enc) (hl : witnesses.length < 2 ^ 31) :
    ((∃ env, serialize (⟨msg, witnesses⟩ : SignedTxMsg) = .ok env) ↔
      match requiredWitnesses msg with
      | some required => witnesses.map Witness.address = required
      | none => msg.gasFrom ∈ witnesses.map Witness.address) ∧
    ∀ env, serialize (⟨msg, witnesses⟩ : SignedTxMsg) = .ok env → env.length < 2 ^ 32 →
      (msg.msg.Fits → deserialize SignedTxMsg env = .ok ⟨msg, witnesses⟩) ∧
      (∃ size, envelopeBytes msg (some (UInt32.ofNat witnesses.length)) = .ok size ∧
        size.toNat = env.length) ∧
      ∀ plan : FeePlan, ∃ env',
        serialize (⟨plan.apply msg, witnesses⟩ : SignedTxMsg) = .ok env' ∧
          env'.length = env.length := by
  refine ⟨exists_writeCarbon_iff hmsg fun _ => by omega, fun env henv hsize => ⟨fun hv => ?_, ?_, fun plan => ?_⟩⟩
  · exact deserialize_eq_ok.2 (reads_readCarbon ht hv hl henv).run_self
  · exact ⟨_, envelopeBytes_length hmsg hl henv hsize, UInt32.toNat_ofNat_of_lt' hsize⟩
  · exact writeCarbon_apply plan hmsg hl henv

/-- A transfer with a text, the gas paid by the first toy witness, the owner the second. -/
def toySponsored : TxMsg where
  txType := .transferFungibleGasPayer
  expiry := 5
  maxGas := 6
  maxData := 7
  gasFrom := (toyWitness 1).address
  payload := ⟨"memo"⟩
  msg := .transferFungibleGasPayer {
    toAddress := (toyWitness 3).address, fromAddress := (toyWitness 2).address,
    tokenId := 8, amount := 9 }

/-- A toy call with two of its witnesses, and a sponsored transfer with the two it fixes:
    both serialize, at 273 and 270 bytes, are read back, and are sized so. A call without
    the account paying the gas and a transfer with its witnesses exchanged do not. -/
theorem serialize_envelope_toy :
    (∃ env, serialize (⟨toyCall, [toyWitness 2, toyWitness 1]⟩ : SignedTxMsg) = .ok env ∧
      env.length = 273 ∧
      deserialize SignedTxMsg env = .ok ⟨toyCall, [toyWitness 2, toyWitness 1]⟩ ∧
      (envelopeBytes toyCall (some 2)).map UInt32.toNat = .ok 273 ∧
      ∀ plan : FeePlan, ∃ env',
        serialize (⟨plan.apply toyCall, [toyWitness 2, toyWitness 1]⟩ : SignedTxMsg) = .ok env' ∧
          env'.length = 273) ∧
    (∃ env, serialize (⟨toySponsored, [toyWitness 1, toyWitness 2]⟩ : SignedTxMsg) = .ok env ∧
      env.length = 270 ∧
      deserialize SignedTxMsg env = .ok ⟨toySponsored, [toyWitness 1, toyWitness 2]⟩ ∧
      (envelopeBytes toySponsored (some 2)).map UInt32.toNat = .ok 270) ∧
    (¬∃ env, serialize (⟨toyCall, [toyWitness 2]⟩ : SignedTxMsg) = .ok env) ∧
    ¬∃ env, serialize (⟨toySponsored, [toyWitness 2, toyWitness 1]⟩ : SignedTxMsg) = .ok env := by
  obtain ⟨call, hcall⟩ := exists_ok_of_isSome (x := serialize toyCall) (by decide +kernel)
  obtain ⟨transfer, htransfer⟩ :=
    exists_ok_of_isSome (x := serialize toySponsored) (by decide +kernel)
  refine ⟨?_, ?_, fun h => ?_, fun h => ?_⟩
  · obtain ⟨hiff, hfacts⟩ := serialize_envelope toyCall [toyWitness 2, toyWitness 1] call rfl hcall
      (by decide)
    obtain ⟨env, henv⟩ := hiff.2 <| show toyCall.gasFrom ∈ _ by decide
    have hlength : (serialize (⟨toyCall, [toyWitness 2, toyWitness 1]⟩ : SignedTxMsg)).map
        List.length = .ok 273 := by decide +kernel
    rw [henv] at hlength
    replace hlength : env.length = 273 := Except.ok.inj hlength
    obtain ⟨hback, ⟨size, hsize, hnat⟩, hplan⟩ := hfacts env henv (by omega)
    replace hsize : envelopeBytes toyCall (some 2) = .ok size := hsize
    refine ⟨env, henv, hlength, hback (show 3 < 2 ^ 31 by norm_num), ?_, fun plan => ?_⟩
    · rw [hsize, ← hlength, ← hnat]
      rfl
    · rw [← hlength]
      exact hplan plan
  · obtain ⟨hiff, hfacts⟩ := serialize_envelope toySponsored [toyWitness 1, toyWitness 2] transfer
      rfl htransfer (by decide)
    obtain ⟨env, henv⟩ := hiff.2 rfl
    have hlength : (serialize (⟨toySponsored, [toyWitness 1, toyWitness 2]⟩ : SignedTxMsg)).map
        List.length = .ok 270 := by decide +kernel
    rw [henv] at hlength
    replace hlength : env.length = 270 := Except.ok.inj hlength
    obtain ⟨hback, ⟨size, hsize, hnat⟩, -⟩ := hfacts env henv (by omega)
    replace hsize : envelopeBytes toySponsored (some 2) = .ok size := hsize
    refine ⟨env, henv, hlength, hback trivial, ?_⟩
    rw [hsize, ← hlength, ← hnat]
    rfl
  · have hmem : toyCall.gasFrom ∈ [toyWitness 2].map Witness.address :=
      (serialize_envelope toyCall [toyWitness 2] call rfl hcall (by decide)).1.1 h
    exact absurd hmem (by decide)
  · have haddresses : [toyWitness 2, toyWitness 1].map Witness.address =
        [toySponsored.gasFrom, toySponsored.msg.fromAddress] :=
      (serialize_envelope toySponsored [toyWitness 2, toyWitness 1] transfer rfl htransfer
        (by decide)).1.1 h
    exact absurd haddresses (by decide)

end SignedTxMsg

/-! ## Planning and signing with keys -/

structure TxLimits where
  maxGas : UInt64 := 0
  maxData : UInt64 := 0
  expiry : Int64 := 0
  deriving DecidableEq, Repr

/-- The limits are those a builder writes into a message; a message in hand has its
    own. -/
structure PlanAndSignOptions where
  facts : FeePlanOptions := {}
  limits : TxLimits := {}
  deriving DecidableEq, Repr

/-- Where a message does not fix its witnesses and no count is stated, the signers
    are counted. -/
def countSigners (msg : TxMsg) (facts : FeePlanOptions) (signers : ℕ) (tooMany : String) :
    Result FeePlanOptions :=
  if requiredWitnesses msg = none ∧ facts.witnessCount = none then
    (Machine.word32 signers).elim (builder tooMany) fun count =>
      pure { facts with witnessCount := some count }
  else pure facts

def planAndSignWithKeys (msg : TxMsg) (keys : List PhantasmaKeys) (config : Option GasConfig)
    (options : PlanAndSignOptions) : Result Bytes :=
  if msg.maxGas ≠ 0 then signAndSerializeTxMsgWithKeys msg keys
  else
    match config with
    | none => builder "plan_and_sign: a message without a gas offer needs the chain's gas config to plan it: pass the config, or fix max_gas in the limits"
    | some config => do
      let facts ← countSigners msg options.facts keys.length "plan_fees: length exceeds u32"
      let plan ← planFees msg config facts
      signAndSerializeTxMsgWithKeys (plan.apply msg) keys

/-! ## Sending through a node -/

/-- What the client gives in a run: the token lookups' answers, the control token,
    the chain's prices, and what each burned NFT holds, by the order of asking. -/
structure Node where
  tokenWithId : String → UInt64 → Result Unit
  controlTokenId : Result UInt64
  gasConfig : Bool → Result GasConfig
  infusedAssets : ℕ → BurnedInstance → Result (List InfusedAsset)
  sendCarbonTransaction : Bytes → Result String

inductive PreflightVerdict
  | notApplicable
  | taken
  | free
  | unknown
  deriving DecidableEq, Repr

structure PreflightResult where
  verdict : PreflightVerdict
  subject : String
  reason : String
  deriving DecidableEq, Repr

structure PlanRequestOptions where
  facts : FeePlanOptions := {}
  refreshConfig : Bool := false
  deriving DecidableEq, Repr

structure SendTransactionOptions where
  plan : PlanRequestOptions := {}
  skipPreflight : Bool := false
  deriving DecidableEq, Repr

/-- Why a lookup gave nothing, in the node's words if it has any. -/
def lookupReason : PhantasmaError → String
  | .rpc code message => if message ≠ "" then message else (PhantasmaError.rpc code message).toText
  | other => if other.toText = "" then "the lookup failed" else other.toText

namespace Node

variable (node : Node)

/-- Whether the symbol of a token creation is free: the lookup of the symbol must be
    refused, and that of the control token answered. -/
def preflightTransaction (msg : TxMsg) : Result PreflightResult :=
  let notApplicable : PreflightResult := { verdict := .notApplicable, subject := "", reason := "" }
  match msg.msg with
  | .call call =>
    if msg.txType ≠ .call ∨ call.moduleId ≠ ModuleId.token ∨
        call.methodId ≠ TokenContractMethod.createToken then pure notApplicable
    else
      match deserialize TokenInfo call.args with
      | .error (.panic p) => .error (.panic p)
      | .error (.error e) => builder s!"preflight: CreateToken arguments: {e.toText}"
      | .ok info =>
        let symbol := info.symbol.value
        if symbol = "" then pure notApplicable
        else
          let verdict (verdict : PreflightVerdict) (reason : String) : PreflightResult :=
            { verdict, subject := s!"token symbol {symbol}", reason }
          match node.tokenWithId symbol 0 with
          | .ok () => pure (verdict .taken "")
          | .error (.panic p) => .error (.panic p)
          | .error (.error e) =>
            match node.controlTokenId with
            | .error (.panic p) => .error (.panic p)
            | .error (.error _) => pure (verdict .unknown (lookupReason e))
            | .ok control =>
              if control = 0 then pure (verdict .unknown (lookupReason e))
              else
                match node.tokenWithId "" control with
                | .ok () => pure (verdict .free "")
                | .error (.panic p) => .error (.panic p)
                | .error (.error probe) => pure (verdict .unknown (lookupReason probe))
  | _ => pure notApplicable

/-- What the burned NFTs hold, asked for one by one from the `i`-th on. -/
def readInfusions : ℕ → List BurnedInstance → Result (List InfusedAsset)
  | _, [] => pure []
  | i, burned :: rest =>
    match node.infusedAssets i burned with
    | .error (.panic p) => .error (.panic p)
    | .error (.error e) => rpc none s!"reading what the burned NFT holds: {e.toText}"
    | .ok held => do
      let infusions ← readInfusions (i + 1) rest
      pure (held ++ infusions)

/-- The facts, with what the burned NFTs hold where the caller does not state it. -/
def withInfusions (msg : TxMsg) (facts : FeePlanOptions) : Result FeePlanOptions :=
  if facts.infusions.isSome ∨ (burnedInstances msg).isEmpty then pure facts
  else do
    let infusions ← node.readInfusions 0 (burnedInstances msg)
    pure { facts with infusions := some infusions }

/-- `FeePlanner::plan`. -/
def plan (msg : TxMsg) (options : PlanRequestOptions) : Result FeePlan := do
  let config ← node.gasConfig options.refreshConfig
  let facts ← node.withInfusions msg options.facts
  planFees msg config facts

def preflightFails (message : String) : Result Unit := .error (.error (.preflight message))

/-- The pre-flight of a message that is to be sent: it refuses what is taken, and what
    nothing is known about. -/
def preflight (msg : TxMsg) (options : SendTransactionOptions) : Result Unit :=
  if options.skipPreflight then pure ()
  else do
    let check ← node.preflightTransaction msg
    match check.verdict with
    | .taken => preflightFails s!"{check.subject} is already taken"
    | .unknown =>
      preflightFails s!"could not establish whether {check.subject} is taken: {check.reason}"
    | .notApplicable | .free => pure ()

/-- The message that is signed: planned, unless it has a gas offer. -/
def planned (msg : TxMsg) (signers : List TxSigner) (options : SendTransactionOptions) :
    Result TxMsg :=
  if msg.maxGas = 0 then do
    let facts ← countSigners msg options.plan.facts signers.length "send_tx_msg: too many signers"
    let plan ← node.plan msg { options.plan with facts }
    pure (plan.apply msg)
  else pure msg

/-- The bytes `send_tx_msg` broadcasts. -/
def sentEnvelope (msg : TxMsg) (signers : List TxSigner) (options : SendTransactionOptions) :
    Result Bytes := do
  node.preflight msg options
  let msg ← node.planned msg signers options
  signAndSerializeTxMsgWith msg signers

def sendTxMsg (msg : TxMsg) (signers : List TxSigner) (options : SendTransactionOptions) :
    Result String := do
  let envelope ← node.sentEnvelope msg signers options
  node.sendCarbonTransaction envelope

end Node

/-! ## What is sent is what was priced -/

/-- The count stated, if one is stated and looked at, is that of the signers. -/
def CountAgrees (msg : TxMsg) (facts : FeePlanOptions) (signers : ℕ) : Prop :=
  requiredWitnesses msg = none → ∀ count, facts.witnessCount = some count → count.toNat = signers

/-- A plan is computed for the predicted size. -/
theorem envelopeBytes_of_planFees {msg : TxMsg} {config : GasConfig} {facts : FeePlanOptions}
    {plan : FeePlan} (h : planFees msg config facts = .ok plan) :
    envelopeBytes msg facts.witnessCount = .ok plan.envelopeBytes := by
  rw [planFees] at h
  split at h
  next => cases h
  next =>
    obtain ⟨parts, _, h⟩ := bind_eq_ok.1 h
    obtain ⟨size, hsize, h⟩ := bind_eq_ok.1 h
    obtain ⟨estimate, _, h⟩ := bind_eq_ok.1 h
    obtain ⟨exact, _, h⟩ := bind_eq_ok.1 h
    rw [← Except.ok.inj h]
    exact hsize

/-- A plan of a message that does not fix its witnesses has a count of them. -/
theorem witnessCount_of_planFees {msg : TxMsg} {config : GasConfig} {facts : FeePlanOptions}
    {plan : FeePlan} (h : planFees msg config facts = .ok plan) (hr : requiredWitnesses msg = none) :
    ∃ count, facts.witnessCount = some count := by
  refine Option.ne_none_iff_exists'.1 fun hc => ?_
  rw [planFees] at h
  rw [if_pos ⟨hr, hc⟩] at h
  cases h

section Sent

variable {msg : TxMsg} {facts counted : FeePlanOptions} {plan : FeePlan} {env : Bytes}
  {signers : ℕ}

/-- The envelope of a planned message, signed in as many slots as it has, is as long
    as it was priced for iff it was priced for as many witnesses. -/
theorem length_eq_iff {config : GasConfig} (hplan : planFees msg config counted = .ok plan)
    {witnesses : List Witness}
    (hlen : witnesses.length = match requiredWitnesses msg with
      | some required => required.length
      | none => signers)
    (henv : serialize (⟨plan.apply msg, witnesses⟩ : SignedTxMsg) = .ok env) :
    env.length = plan.envelopeBytes.toNat ↔ CountAgrees msg counted signers := by
  have hsize := envelopeBytes_of_planFees hplan
  obtain ⟨enc, hmsg⟩ := SignedTxMsg.exists_writeCarbon_of_envelopeBytes hsize
  obtain ⟨enc', hmsg', hlen'⟩ := TxMsg.writeCarbon_apply plan hmsg
  rw [SignedTxMsg.length_writeCarbon hmsg' henv, SignedTxMsg.toNat_envelopeBytes hmsg hsize, hlen',
    TxMsg.layout_apply, CountAgrees, hlen, SignedTxMsg.sizedWitnesses]
  cases hr : requiredWitnesses msg with
  | some required => simp
  | none =>
    obtain ⟨count, hcount⟩ := witnessCount_of_planFees hplan hr
    -- such a message is of a type whose witnesses are an array
    have harray : msg.layout = .array := by
      rw [TxMsg.requiredWitnesses_eq] at hr
      cases hl : msg.layout with
      | array => rfl
      | _ => rw [hl] at hr; cases hr
    simp only [harray, Layout.size, hcount, Option.getD_some, Option.some.injEq, forall_const,
      forall_eq']
    omega

/-- Counting the signers changes the count only where it then agrees. -/
theorem countAgrees_iff_of_countSigners {tooMany : String}
    (h : countSigners msg facts signers tooMany = .ok counted) :
    CountAgrees msg counted signers ↔ CountAgrees msg facts signers := by
  rw [countSigners] at h
  split at h
  next hcond =>
    cases hword : Machine.word32 signers with
    | none => rw [hword] at h; cases h
    | some count =>
      rw [hword] at h
      obtain rfl := Except.ok.inj h
      have hcount := Machine.word32_eq_some.1 hword
      simp [CountAgrees, hcond.2, hcount]
  next => rw [← Except.ok.inj h]

theorem countAgrees_withInfusions {node : Node} {facts' : FeePlanOptions}
    (h : node.withInfusions msg facts = .ok facts') :
    CountAgrees msg facts' signers ↔ CountAgrees msg facts signers := by
  rw [Node.withInfusions] at h
  split at h
  next => rw [← Except.ok.inj h]
  next =>
    obtain ⟨infusions, _, h⟩ := bind_eq_ok.1 h
    rw [← Except.ok.inj h]
    rfl

end Sent

/-- A message without a gas offer that is planned and signed, by keys or through a
    node, is sent in as many bytes as its plan is for, exactly when the number of
    witnesses it is planned with is the number of signers: because it fixes its
    witnesses, because none is stated, or because it is what is stated. -/
theorem sent_length_iff (msg : TxMsg) (hgas : msg.maxGas = 0) :
    (∀ (keys : List PhantasmaKeys) (config : Option GasConfig) (options : PlanAndSignOptions)
      (env : Bytes), planAndSignWithKeys msg keys config options = .ok env →
      ∃ prices facts plan, config = some prices ∧
        countSigners msg options.facts keys.length "plan_fees: length exceeds u32" = .ok facts ∧
        planFees msg prices facts = .ok plan ∧
        signAndSerializeTxMsgWithKeys (plan.apply msg) keys = .ok env ∧
        (env.length = plan.envelopeBytes.toNat ↔ CountAgrees msg options.facts keys.length)) ∧
    ∀ (node : Node) (signers : List TxSigner) (options : SendTransactionOptions) (env : Bytes),
      node.sentEnvelope msg signers options = .ok env →
      ∃ prices facts plan, node.gasConfig options.plan.refreshConfig = .ok prices ∧
        planFees msg prices facts = .ok plan ∧
        signAndSerializeTxMsgWith (plan.apply msg) signers = .ok env ∧
        (env.length = plan.envelopeBytes.toNat ↔
          CountAgrees msg options.plan.facts signers.length) := by
  constructor
  · intro keys config options env h
    unfold planAndSignWithKeys at h
    rw [if_neg (not_not.2 hgas)] at h
    cases config with
    | none => cases h
    | some prices =>
      obtain ⟨facts, hfacts, h⟩ := bind_eq_ok.1 h
      obtain ⟨plan, hplan, h⟩ := bind_eq_ok.1 h
      obtain ⟨slots, witnesses, hslots, hlen, henv⟩ := signAndSerializeTxMsgWithKeys_eq_ok h
      rw [length_witnessSlots hslots, TxMsg.requiredWitnesses_apply] at hlen
      exact ⟨prices, facts, plan, rfl, hfacts, hplan, h,
        (length_eq_iff hplan hlen henv).trans (countAgrees_iff_of_countSigners hfacts)⟩
  · intro node signers options env h
    obtain ⟨_, _, h⟩ := bind_eq_ok.1 h
    obtain ⟨msg', hmsg', h⟩ := bind_eq_ok.1 h
    rw [Node.planned] at hmsg'
    rw [if_pos hgas] at hmsg'
    obtain ⟨counted, hcounted, hmsg'⟩ := bind_eq_ok.1 hmsg'
    obtain ⟨plan, hplan, hmsg'⟩ := bind_eq_ok.1 hmsg'
    obtain rfl := Except.ok.inj hmsg'
    obtain ⟨prices, hprices, hplan⟩ := bind_eq_ok.1 hplan
    obtain ⟨facts, hfacts, hplan⟩ := bind_eq_ok.1 hplan
    obtain ⟨slots, witnesses, hslots, hlen, henv⟩ := signAndSerializeTxMsgWith_eq_ok h
    rw [length_witnessSlots hslots, TxMsg.requiredWitnesses_apply] at hlen
    exact ⟨prices, facts, plan, hprices, hplan, h, (length_eq_iff hplan hlen henv).trans
      ((countAgrees_withInfusions hfacts).trans (countAgrees_iff_of_countSigners hcounted))⟩

/-- A call of a module that is not modelled, without a gas offer. -/
def unplannedCall : TxMsg :=
  { txType := .call, expiry := 0, maxGas := 0, maxData := 0, gasFrom := emptyBytes32,
    payload := ⟨""⟩, msg := .call { moduleId := 2, methodId := 0, args := [], sections := none } }

/-- The keys of the zero address. -/
def zeroKeys : PhantasmaKeys := { publicKey := emptyBytes32, sign := fun _ => emptyBytes64 }

/-- One witness is stated, two keys sign, and the envelope is 96 bytes longer than
    priced. -/
theorem not_sent_length : ¬∀ (msg : TxMsg) (keys : List PhantasmaKeys) (config : GasConfig)
    (options : PlanAndSignOptions) (env : Bytes), msg.maxGas = 0 →
      planAndSignWithKeys msg keys (some config) options = .ok env →
        ∃ facts plan,
          countSigners msg options.facts keys.length "plan_fees: length exceeds u32" = .ok facts ∧
          planFees msg config facts = .ok plan ∧
          signAndSerializeTxMsgWithKeys (plan.apply msg) keys = .ok env ∧
          env.length = plan.envelopeBytes.toNat := by
  intro h
  let config : GasConfig := { minimumGasOffer := 1 }
  let options : PlanAndSignOptions := { facts := { witnessCount := some 1 } }
  have hsent : (planAndSignWithKeys unplannedCall [zeroKeys, zeroKeys] (some config)
      options).toOption.map List.length = some 266 := by decide +kernel
  have hpriced : (planFees unplannedCall config options.facts).toOption.map
      (fun plan => plan.envelopeBytes.toNat) = some 170 := by decide +kernel
  cases hs : planAndSignWithKeys unplannedCall [zeroKeys, zeroKeys] (some config) options with
  | error e => rw [hs] at hsent; cases hsent
  | ok env =>
    obtain ⟨facts, plan, hfacts, hplan, -, hlen⟩ := h _ _ _ _ _ rfl hs
    obtain rfl := Except.ok.inj hfacts
    rw [hs] at hsent
    rw [hplan] at hpriced
    have h266 : env.length = 266 := Option.some.inj hsent
    have h170 : plan.envelopeBytes.toNat = 170 := Option.some.inj hpriced
    omega

/-- Two keys and no count: the envelope is as long as priced. -/
theorem sent_length_iff_unplannedCall :
    (∀ (keys : List PhantasmaKeys) (config : Option GasConfig) (options : PlanAndSignOptions)
      (env : Bytes), planAndSignWithKeys unplannedCall keys config options = .ok env →
      ∃ prices facts plan, config = some prices ∧
        countSigners unplannedCall options.facts keys.length "plan_fees: length exceeds u32" =
          .ok facts ∧
        planFees unplannedCall prices facts = .ok plan ∧
        signAndSerializeTxMsgWithKeys (plan.apply unplannedCall) keys = .ok env ∧
        (env.length = plan.envelopeBytes.toNat ↔
          CountAgrees unplannedCall options.facts keys.length)) ∧
    (planAndSignWithKeys unplannedCall [zeroKeys, zeroKeys] (some { minimumGasOffer := 1 })
      {}).toOption.map List.length = some 266 :=
  ⟨(sent_length_iff unplannedCall rfl).1, by decide +kernel⟩

end PhantasmaSdk
