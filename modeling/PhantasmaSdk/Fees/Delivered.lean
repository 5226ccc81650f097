import PhantasmaSdk.Carbon.Builders

/-!
# What is delivered

The bytes that are broadcast are read by somebody else. What is read off them is the
message that was signed, with the signatures of those who own its accounts
(`broadcast_of_signAndSerializeTxMsgWith`); where a builder assembled it, it asks for what the
builder was given, whether it was planned on the way or not.
-/

namespace PhantasmaSdk

open Codec Codec.Decoder CarbonWriter CarbonReader Carbon

/-! ## Signed by its signers -/

variable {msg : TxMsg}

/-- An envelope that is read back: each of its witnesses signed the message, and is the
    owner of the account it stands for. -/
structure Broadcast (msg : TxMsg) (signers : List TxSigner) (env : Bytes)
    (witnesses : List Witness) : Prop where
  read : deserialize SignedTxMsg env = .ok ⟨msg, witnesses⟩
  addresses : witnesses.map Witness.address =
    (requiredWitnesses msg).getD (signers.map TxSigner.publicKey)
  goesWith : msg.GoesWith (signers.map TxSigner.publicKey)
  signatures : ∃ message, serialize msg = .ok message ∧ ∀ witness ∈ witnesses,
    ∃ signer ∈ signers, signer.publicKey = witness.address ∧
      signer.signMessage message = .ok witness.signature

theorem signTxMsgWith_eq_ok {signers : List TxSigner} {signed : SignedTxMsg}
    (h : signTxMsgWith msg signers = .ok signed) :
    ∃ slots message, witnessSlots msg TxSigner.publicKey signers = .ok slots ∧
      serialize msg = .ok message ∧ signed.msg = msg ∧
        List.Forall₂ (fun slot witness => witness.address = slot.1 ∧
          slot.2.signMessage message = .ok witness.signature) slots signed.witnesses := by
  obtain ⟨⟨⟩, -, h⟩ := bind_eq_ok.1 h
  obtain ⟨slots, hslots, h⟩ := bind_eq_ok.1 h
  obtain ⟨message, hmessage, h⟩ := bind_eq_ok.1 h
  obtain ⟨witnesses, hwitnesses, h⟩ := bind_eq_ok.1 h
  rw [← Except.ok.inj h]
  refine ⟨slots, message, hslots, hmessage, rfl, (mapM_eq_ok.1 hwitnesses).imp ?_⟩
  rintro slot witness hwitness
  obtain ⟨signature, hsignature, hwitness⟩ := bind_eq_ok.1 hwitness
  obtain rfl := Except.ok.inj hwitness
  exact ⟨rfl, hsignature⟩

/-- A message is in its envelope, and so is each of its witnesses. -/
theorem length_le_of_serialize {witnesses : List Witness} {env : Bytes}
    (h : serialize (⟨msg, witnesses⟩ : SignedTxMsg) = .ok env) :
    ∃ enc, serialize msg = .ok enc ∧ enc.length ≤ env.length ∧ witnesses.length ≤ env.length := by
  obtain ⟨enc, _, henc, -, -⟩ := SignedTxMsg.writeCarbon_eq_ok.1 h
  have hlength : env.length = enc.length + msg.layout.size witnesses.length :=
    SignedTxMsg.length_writeCarbon henc h
  have hsize : witnesses.length ≤ msg.layout.size witnesses.length := by
    cases msg.layout with
    | array =>
      rw [Layout.size]
      omega
    | _ => exact Nat.le_mul_of_pos_left _ (by norm_num)
  exact ⟨enc, henc, by omega, by omega⟩

/-- What is signed and serialized is read back, as long as its lengths can be. -/
theorem broadcast_of_signAndSerializeTxMsgWith {signers : List TxSigner} {env : Bytes}
    (ht : msg.Typed) (hv : msg.msg.Fits) (hsize : env.length < 2 ^ 31)
    (h : signAndSerializeTxMsgWith msg signers = .ok env) :
    ∃ witnesses, Broadcast msg signers env witnesses := by
  obtain ⟨⟨_, witnesses⟩, hsigned, henv⟩ := bind_eq_ok.1 h
  obtain ⟨slots, message, hslots, hmessage, rfl, hwitnesses⟩ := signTxMsgWith_eq_ok hsigned
  obtain ⟨-, -, -, hcount⟩ := length_le_of_serialize henv
  obtain ⟨haddresses, howners⟩ := address_of_witnessSlots hslots
  refine ⟨witnesses, ?_, ?_, exists_witnessSlots_iff.1 ⟨slots, hslots⟩, message, hmessage, ?_⟩
  · exact deserialize_eq_ok.2
      (SignedTxMsg.reads_readCarbon ht hv (hcount.trans_lt hsize) henv).run_self
  · rw [← haddresses, ← List.forall₂_eq_eq_eq, List.forall₂_map_left_iff,
      List.forall₂_map_right_iff]
    exact hwitnesses.flip.imp fun _ _ h => h.1
  · intro witness hwitness
    obtain ⟨slot, hslot, haddress, hsignature⟩ :=
      exists_of_forall₂_mem hwitnesses.flip hwitness
    obtain ⟨hsigner, howner⟩ := howners slot hslot
    exact ⟨slot.2, hsigner, howner.trans haddress.symm, hsignature⟩

/-- Keys in memory sign as signers that always answer. -/
theorem signAndSerializeTxMsgWith_keys (msg : TxMsg) (keys : List PhantasmaKeys) :
    signAndSerializeTxMsgWith msg (keys.map PhantasmaKeys.toTxSigner) =
      signAndSerializeTxMsgWithKeys msg keys := by
  rw [signAndSerializeTxMsgWith, ← signTxMsgWithAsked_eq, signTxMsgWithAsked_keys]
  rfl

/-! ## What is planned and signed -/

/-- The message that is signed: with its own limits, or with those of a plan of it. -/
inductive Settled (msg : TxMsg) : TxMsg → Prop
  | offered (h : msg.maxGas ≠ 0) : Settled msg msg
  | planned {config : GasConfig} {facts : FeePlanOptions} {plan : FeePlan} (h : msg.maxGas = 0)
    (hplan : planFees msg config facts = .ok plan) : Settled msg (plan.apply msg)

theorem settled_of_planAndSignWithKeys {keys : List PhantasmaKeys} {config : Option GasConfig}
    {options : PlanAndSignOptions} {env : Bytes}
    (h : planAndSignWithKeys msg keys config options = .ok env) :
    ∃ settled, Settled msg settled ∧
      signAndSerializeTxMsgWith settled (keys.map PhantasmaKeys.toTxSigner) = .ok env := by
  obtain ⟨hgas, h⟩ | ⟨hgas, h⟩ := ite_eq_iff.1 h
  · exact ⟨msg, .offered hgas, (signAndSerializeTxMsgWith_keys msg keys).trans h⟩
  · cases config with
    | none => cases h
    | some config =>
      obtain ⟨facts, -, h⟩ := bind_eq_ok.1 h
      obtain ⟨plan, hplan, h⟩ := bind_eq_ok.1 h
      exact ⟨plan.apply msg, .planned (not_not.1 hgas) hplan,
        (signAndSerializeTxMsgWith_keys _ keys).trans h⟩

theorem settled_of_sentEnvelope {node : Node} {signers : List TxSigner}
    {options : SendTransactionOptions} {env : Bytes}
    (h : node.sentEnvelope msg signers options = .ok env) :
    ∃ settled, Settled msg settled ∧ signAndSerializeTxMsgWith settled signers = .ok env := by
  obtain ⟨⟨⟩, -, h⟩ := bind_eq_ok.1 h
  obtain ⟨settled, hsettled, h⟩ := bind_eq_ok.1 h
  refine ⟨settled, ?_, h⟩
  obtain ⟨hgas, hsettled⟩ | ⟨hgas, hsettled⟩ := ite_eq_iff.1 hsettled
  · obtain ⟨counted, -, hsettled⟩ := bind_eq_ok.1 hsettled
    obtain ⟨plan, hplan, hsettled⟩ := bind_eq_ok.1 hsettled
    obtain ⟨prices, -, hplan⟩ := bind_eq_ok.1 hplan
    obtain ⟨facts, -, hplan⟩ := bind_eq_ok.1 hplan
    rw [← Except.ok.inj hsettled]
    exact .planned hgas hplan
  · rw [← Except.ok.inj hsettled]
    exact .offered hgas

/-! ## Built, signed and read -/

namespace TxParams

variable {clock : Option Duration} {p : TxParams}

/-- What a builder was given is asked for by whoever owns the accounts, in the message
    that is read. -/
structure Delivers (clock : Option Duration) (p : TxParams) (signers : List TxSigner)
    (env : Bytes) (signed : SignedTxMsg) : Prop where
  broadcast : Broadcast signed.msg signers env signed.witnesses
  asks : p.Asks clock signed.msg
  signedByAll : ∀ account ∈ p.signatories, p.isCall = false →
    account ∈ signed.witnesses.map Witness.address
  /-- Limits that were given are kept; else a plan of what was built gives them. -/
  limits : if p.limits.maxGas = 0 then ∃ msg config facts plan, p.build clock = .ok msg ∧
      planFees msg config facts = .ok plan ∧ plan.kinds = [p.request.kind] ∧
        signed.msg = plan.apply msg
    else p.build clock = .ok signed.msg

/-- A plan leaves what is asked for as it is. -/
theorem Asks.apply (h : p.Asks clock msg) (plan : FeePlan) : p.Asks clock (plan.apply msg) where
  typed := h.typed
  request := h.request
  gasFrom := h.gasFrom
  expiry := h.expiry
  witnesses := h.witnesses
  kind := h.kind

/-- A plan prices what is asked for. -/
theorem kinds_of_planFees {msg : TxMsg} {config : GasConfig} {facts : FeePlanOptions}
    {plan : FeePlan} (h : p.Asks clock msg) (hplan : planFees msg config facts = .ok plan) :
    plan.kinds = [p.request.kind] := by
  obtain ⟨-, hplan⟩ | ⟨-, hplan⟩ := ite_eq_iff.1 hplan
  · cases hplan
  obtain ⟨parts, hparts, hplan⟩ := bind_eq_ok.1 hplan
  obtain ⟨_, -, hplan⟩ := bind_eq_ok.1 hplan
  obtain ⟨_, -, hplan⟩ := bind_eq_ok.1 hplan
  obtain ⟨_, -, hplan⟩ := bind_eq_ok.1 hplan
  rw [← Except.ok.inj hplan]
  exact h.kind facts parts hparts

/-- What is signed of a built message is read as what was given to the builder. -/
theorem delivers_of_settled {msg settled : TxMsg} {signers : List TxSigner} {env : Bytes}
    (hfits : p.request.Fits) (hbuild : p.build clock = .ok msg) (hsettled : Settled msg settled)
    (hsigned : signAndSerializeTxMsgWith settled signers = .ok env)
    (hsize : env.length < 2 ^ 31) :
    ∃ signed, deserialize SignedTxMsg env = .ok signed ∧ p.Delivers clock signers env signed := by
  obtain ⟨hasks, hgas, -⟩ := asks_of_build hfits hbuild
  have hpayload : settled.msg = msg.msg := by
    cases hsettled with
    | offered | planned => rfl
  have hasks' : p.Asks clock settled := by
    cases hsettled with
    | offered => exact hasks
    | planned => exact hasks.apply _
  obtain ⟨⟨_, witnesses⟩, hsig, henv⟩ := bind_eq_ok.1 hsigned
  obtain ⟨_, _, _, _, rfl, _⟩ := signTxMsgWith_eq_ok hsig
  obtain ⟨enc, henc, hle, -⟩ := length_le_of_serialize henv
  obtain ⟨header, body, -, hbody, rfl⟩ := TxMsg.writeCarbon_eq_ok.1 henc
  rw [List.length_append] at hle
  have hv := fits_of_build hfits hbuild (hpayload ▸ hbody) (by omega)
  obtain ⟨witnesses, hbroadcast⟩ := broadcast_of_signAndSerializeTxMsgWith hasks'.typed
    (hpayload ▸ hv) hsize hsigned
  refine ⟨_, hbroadcast.read, hbroadcast, hasks', fun account haccount hcall => ?_, ?_⟩
  · have hwitnesses := hasks'.witnesses
    rw [if_neg (by rw [hcall]; exact Bool.false_ne_true)] at hwitnesses
    rw [hbroadcast.addresses, hwitnesses]
    exact haccount
  · cases hsettled with
    | offered h => rw [if_neg (by rw [← hgas]; exact h)]; exact hbuild
    | planned h hplan =>
      rw [if_pos (hgas.symm.trans h)]
      exact ⟨msg, _, _, _, hbuild, hplan, kinds_of_planFees hasks hplan, rfl⟩

/-- A built message that is planned and signed, with keys or through a node, is read off the
    bytes that are broadcast as what was given to its builder. -/
theorem delivers_built (clock : Option Duration) (p : TxParams) (msg : TxMsg)
    (hfits : p.request.Fits) (hbuild : p.build clock = .ok msg) :
    (∀ (keys : List PhantasmaKeys) (config : Option GasConfig) (options : PlanAndSignOptions)
      (env : Bytes), planAndSignWithKeys msg keys config options = .ok env →
        env.length < 2 ^ 31 → ∃ signed, deserialize SignedTxMsg env = .ok signed ∧
          p.Delivers clock (keys.map PhantasmaKeys.toTxSigner) env signed) ∧
    ∀ (node : Node) (signers : List TxSigner) (options : SendTransactionOptions) (env : Bytes),
      node.sentEnvelope msg signers options = .ok env →
        env.length < 2 ^ 31 → ∃ signed, deserialize SignedTxMsg env = .ok signed ∧
          p.Delivers clock signers env signed := by
  constructor
  · intro keys config options env h hsize
    obtain ⟨settled, hsettled, hsigned⟩ := settled_of_planAndSignWithKeys h
    exact delivers_of_settled hfits hbuild hsettled hsigned hsize
  · intro node signers options env h hsize
    obtain ⟨settled, hsettled, hsigned⟩ := settled_of_sentEnvelope h
    exact delivers_of_settled hfits hbuild hsettled hsigned hsize

/-- Two NFTs that one account transfers to another, a third one paying the gas. -/
def sponsoredNfts : TxParams := .transferNonFungible {
  limits := { expiry := 1 }, fromAddress := (toyKeys 2).publicKey,
  gasPayer := some (toyKeys 1).publicKey, toAddress := emptyBytes32, tokenId := 7,
  instanceIds := [5, 6] }

theorem delivers_built_sponsoredNfts : ∃ msg env signed,
    sponsoredNfts.build none = .ok msg ∧
      planAndSignWithKeys msg [toyKeys 2, toyKeys 1] (some { minimumGasOffer := 1 }) {} = .ok env ∧
        deserialize SignedTxMsg env = .ok signed ∧
          sponsoredNfts.Delivers none ([toyKeys 2, toyKeys 1].map PhantasmaKeys.toTxSigner) env
            signed := by
  obtain ⟨msg, hmsg⟩ := exists_ok_of_isSome (x := sponsoredNfts.build none) (by decide +kernel)
  have hsent : ((sponsoredNfts.build none).toOption.bind fun msg =>
      (planAndSignWithKeys msg [toyKeys 2, toyKeys 1] (some { minimumGasOffer := 1 })
        {}).toOption.map List.length) = some 278 := by decide +kernel
  rw [hmsg] at hsent
  obtain ⟨env, henv, hlength⟩ := Option.map_eq_some_iff.1 hsent
  cases hsign : planAndSignWithKeys msg [toyKeys 2, toyKeys 1] (some { minimumGasOffer := 1 })
    {} with
  | error e => rw [hsign] at henv; cases henv
  | ok env' =>
    rw [hsign] at henv
    obtain rfl := Option.some.inj henv
    have hfits : [5, 6].length < 2 ^ 31 := by decide
    obtain ⟨signed, hread, hdelivers⟩ := (delivers_built none sponsoredNfts msg hfits
      hmsg).1 _ _ _ _ hsign (by omega)
    exact ⟨msg, _, signed, hmsg, hsign, hread, hdelivers⟩

end TxParams

end PhantasmaSdk
