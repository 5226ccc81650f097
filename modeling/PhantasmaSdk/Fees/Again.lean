import PhantasmaSdk.Fees.Delivered

/-!
# Sending again

A sender that does not know whether a message got through sends it again. The price of a
message does not depend on the offer it carries (`planFees_apply`), so a message that was
planned, if it is planned again at the same prices, is what it was. With an offer, it is
not planned again at all. Either way the same bytes are sent, and the chain sees one
transaction (`sent_again`).
-/

namespace PhantasmaSdk

open Codec CarbonWriter

variable {msg : TxMsg}

/-- What depends only on how long an envelope is does not depend on the offer in it. -/
theorem serialize_apply_bind {β : Type} (plan : FeePlan) (witnesses : List Witness)
    (f : Bytes → Result β) (hf : ∀ enc enc' : Bytes, enc.length = enc'.length → f enc = f enc') :
    (serialize (⟨plan.apply msg, witnesses⟩ : SignedTxMsg) >>= f) =
      serialize (⟨msg, witnesses⟩ : SignedTxMsg) >>= f := by
  simp only [serialize, CarbonSerializable.writeCarbon, bind_assoc, pure_bind]
  refine bind_congr fun payload => bind_congr fun body => bind_congr fun signatures => hf _ _ ?_
  -- Both limits take eight bytes, whatever they are.
  simp only [List.length_append, write8u, length_toLE]
  rfl

theorem envelopeBytes_apply (plan : FeePlan) (witnessCount : Option UInt32) :
    envelopeBytes (plan.apply msg) witnessCount = envelopeBytes msg witnessCount := by
  refine bind_congr fun addresses => serialize_apply_bind plan _ _ fun enc enc' hlength => ?_
  rw [hlength]

/-- The plan of a message does not depend on its limits. -/
theorem planFees_apply (plan : FeePlan) (config : GasConfig) (facts : FeePlanOptions) :
    planFees (plan.apply msg) config facts = planFees msg config facts := by
  have hdescribe (o : FeePlanOptions) : describe (plan.apply msg) o = describe msg o := rfl
  simp only [planFees, isExact, assumptionsMattered, hdescribe, envelopeBytes_apply]
  rfl

/-- What is planned again is planned alike. -/
theorem Node.plan_apply (node : Node) (plan : FeePlan) (options : PlanRequestOptions) :
    node.plan (plan.apply msg) options = node.plan msg options := by
  refine bind_congr fun config => bind_congr fun facts => planFees_apply plan config facts

theorem planAndSignWithKeys_apply {keys : List PhantasmaKeys} {config : Option GasConfig}
    {options : PlanAndSignOptions} {env : Bytes} (hgas : msg.maxGas = 0)
    (h : planAndSignWithKeys msg keys config options = .ok env) :
    ∃ settled, Settled msg settled ∧ signAndSerializeTxMsgWithKeys settled keys = .ok env ∧
      planAndSignWithKeys settled keys config options = .ok env := by
  obtain ⟨hgas', -⟩ | ⟨-, h⟩ := ite_eq_iff.1 h
  · exact absurd hgas hgas'
  cases config with
  | none => cases h
  | some config =>
    obtain ⟨facts, hfacts, h⟩ := bind_eq_ok.1 h
    obtain ⟨plan, hplan, h⟩ := bind_eq_ok.1 h
    refine ⟨plan.apply msg, .planned hgas hplan, h, ?_⟩
    by_cases hgas' : (plan.apply msg).maxGas = 0
    · -- The offer of the plan is none: the message is planned again, as it was.
      exact (if_neg (not_not.2 hgas')).trans (bind_eq_ok.2 ⟨facts, hfacts,
        bind_eq_ok.2 ⟨plan, (planFees_apply plan config facts).trans hplan, h⟩⟩)
    · exact (if_pos hgas').trans h

theorem Node.sentEnvelope_apply {node : Node} {signers : List TxSigner}
    {options : SendTransactionOptions} {env : Bytes} (hgas : msg.maxGas = 0)
    (h : node.sentEnvelope msg signers options = .ok env) :
    ∃ settled, Settled msg settled ∧ signAndSerializeTxMsgWith settled signers = .ok env ∧
      node.sentEnvelope settled signers options = .ok env := by
  obtain ⟨⟨⟩, hpreflight, h⟩ := bind_eq_ok.1 h
  obtain ⟨settled, hsettled, h⟩ := bind_eq_ok.1 h
  rw [planned, if_pos hgas] at hsettled
  obtain ⟨facts, hfacts, hsettled⟩ := bind_eq_ok.1 hsettled
  obtain ⟨plan, hplan, hsettled⟩ := bind_eq_ok.1 hsettled
  obtain rfl := Except.ok.inj hsettled
  -- An offer of none is planned again, and comes out the same.
  have hreplan : node.planned (plan.apply msg) signers options = .ok (plan.apply msg) := by
    rw [planned]
    split
    next => exact bind_eq_ok.2 ⟨facts, hfacts,
      bind_eq_ok.2 ⟨plan, (node.plan_apply plan _).trans hplan, rfl⟩⟩
    next => rfl
  obtain ⟨config, -, hplan⟩ := bind_eq_ok.1 hplan
  obtain ⟨facts', -, hplan⟩ := bind_eq_ok.1 hplan
  exact ⟨_, .planned hgas hplan, h,
    bind_eq_ok.2 ⟨(), hpreflight, bind_eq_ok.2 ⟨_, hreplan, h⟩⟩⟩

/-- With an offer, a message is sent as it is. -/
theorem Node.sentEnvelope_of_offer {node : Node} {signers : List TxSigner}
    {options : SendTransactionOptions} (hgas : msg.maxGas ≠ 0)
    (hpreflight : node.preflight msg options = .ok ()) :
    node.sentEnvelope msg signers options = signAndSerializeTxMsgWith msg signers := by
  rw [sentEnvelope, hpreflight, ok_bind, planned, if_neg hgas]
  rfl

/-- A message that was sent is sent again as the same bytes: with its offer, by any node
    that lets it through, and without one at the same prices. -/
theorem sent_again (msg : TxMsg) :
    (∀ keys config options env, planAndSignWithKeys msg keys config options = .ok env →
      ∃ settled, Settled msg settled ∧
        planAndSignWithKeys settled keys config options = .ok env ∧
        (settled.maxGas ≠ 0 → ∀ config' options',
          planAndSignWithKeys settled keys config' options' = .ok env)) ∧
    ∀ (node : Node) signers options env, node.sentEnvelope msg signers options = .ok env →
      ∃ settled, Settled msg settled ∧ node.sentEnvelope settled signers options = .ok env ∧
        (settled.maxGas ≠ 0 → ∀ (node' : Node) options', node'.preflight settled options' = .ok () →
          node'.sentEnvelope settled signers options' = .ok env) := by
  -- With an offer the prices are not looked at.
  have hoffer {settled : TxMsg} {keys : List PhantasmaKeys} {env : Bytes}
      (h : signAndSerializeTxMsgWithKeys settled keys = .ok env) (hgas : settled.maxGas ≠ 0) :
      ∀ config' options', planAndSignWithKeys settled keys config' options' = .ok env :=
    fun _ _ => (if_pos hgas).trans h
  constructor
  · intro keys config options env h
    by_cases hgas : msg.maxGas = 0
    · obtain ⟨settled, hsettled, hsigned, hagain⟩ := planAndSignWithKeys_apply hgas h
      exact ⟨settled, hsettled, hagain, hoffer hsigned⟩
    · exact ⟨msg, .offered hgas, h, hoffer ((if_pos hgas).symm.trans h)⟩
  · intro node signers options env h
    by_cases hgas : msg.maxGas = 0
    · obtain ⟨settled, hsettled, hsigned, hagain⟩ := Node.sentEnvelope_apply hgas h
      exact ⟨settled, hsettled, hagain, fun hgas' node' options' hpreflight =>
        (Node.sentEnvelope_of_offer hgas' hpreflight).trans hsigned⟩
    · obtain ⟨⟨⟩, hpreflight, -⟩ := bind_eq_ok.1 h
      have hsigned := (Node.sentEnvelope_of_offer hgas hpreflight).symm.trans h
      exact ⟨msg, .offered hgas, h, fun _ node' options' hpreflight' =>
        (Node.sentEnvelope_of_offer hgas hpreflight').trans hsigned⟩

theorem sent_again_sponsoredNfts : ∃ msg settled env,
    TxParams.sponsoredNfts.build none = .ok msg ∧ Settled msg settled ∧
      planAndSignWithKeys msg [toyKeys 2, toyKeys 1] (some { minimumGasOffer := 1 }) {} = .ok env ∧
      planAndSignWithKeys settled [toyKeys 2, toyKeys 1] (some { minimumGasOffer := 1 }) {} =
        .ok env := by
  obtain ⟨msg, hmsg⟩ := exists_ok_of_isSome (x := TxParams.sponsoredNfts.build none)
    (by decide +kernel)
  have hsent : ((TxParams.sponsoredNfts.build none).toOption.bind fun msg =>
      (planAndSignWithKeys msg [toyKeys 2, toyKeys 1] (some { minimumGasOffer := 1 })
        {}).toOption).isSome := by decide +kernel
  rw [hmsg] at hsent
  obtain ⟨env, henv⟩ := exists_ok_of_isSome hsent
  obtain ⟨settled, hsettled, hagain, -⟩ := (sent_again msg).1 _ _ _ _ henv
  exact ⟨msg, settled, env, hmsg, hsettled, henv, hagain⟩

end PhantasmaSdk
