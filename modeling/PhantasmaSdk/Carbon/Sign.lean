import PhantasmaSdk.Carbon.Envelope

/-!
# Signing

A message is signed by whoever can sign bytes: keys in memory, which always do, or
signers that may refuse. Before anything is signed, a message the chain is certain
to refuse is refused, and every witness the envelope has is paired with the signer
its address belongs to.
-/

namespace PhantasmaSdk

/-! ## Signers -/

/-- Keys in memory: a public key, and the signatures made with them. -/
structure PhantasmaKeys where
  publicKey : Bytes32
  sign : Bytes → Bytes64

/-- A signer that may be asked for a signature and not give it. -/
structure TxSigner where
  publicKey : Bytes32
  signMessage : Bytes → Result Bytes64

/-! ## Witness slots -/

/-- Refuses an unplanned message, and native transfers of amounts that no chain
    accepts. -/
def assertSignable (msg : TxMsg) : Result Unit :=
  if msg.maxGas = 0 then
    builder "transaction has no gas offer: plan its fees or set max_gas before signing"
  else
    let amount : Option UInt64 :=
      match msg.txType, msg.msg with
      | .transferFungible, .transferFungible body => some body.amount
      | .transferFungibleGasPayer, .transferFungibleGasPayer body => some body.amount
      | _, _ => none
    match amount with
    | none => pure ()
    | some amount =>
      if amount = 0 then builder "transfer amount must be above zero for a native transfer"
      else if 2 ^ 63 ≤ amount.toNat then
        builder s!"transfer amount {amount} is above the int64 maximum the chain accepts in a native transfer"
      else pure ()

variable {σ : Type}

/-- Every witness of the envelope with the signer its address belongs to: the first
    one, where the message fixes the witnesses, and each in turn where it does not.
    (The source gives the signer's index.) -/
def witnessSlots (msg : TxMsg) (address : σ → Bytes32) (signers : List σ) :
    Result (List (Bytes32 × σ)) :=
  match requiredWitnesses msg with
  | none =>
    if signers.isEmpty then
      builder s!"{msg.txType.debug} transactions need at least one witness"
    else if ¬signers.any (address · = msg.gasFrom) then
      builder s!"the gas payer {hexEncode msg.gasFrom.bytes} must be one of the witnesses"
    else pure (signers.map fun signer => (address signer, signer))
  | some [] =>
    if ¬signers.isEmpty then builder s!"{msg.txType.debug} transactions carry no witnesses"
    else pure []
  | some required => do
    let slots ← required.mapM fun owner =>
      match signers.find? (address · = owner) with
      | some signer => pure (owner, signer)
      | none => builder s!"no signer for witness {hexEncode owner.bytes}"
    match signers.find? (address · ∉ required) with
    | some signer =>
      builder s!"signer {hexEncode (address signer).bytes} is not a witness of this transaction"
    | none => pure slots

/-- As many slots as the envelope of the message has witnesses: those it fixes, or
    one for each signer. -/
theorem length_witnessSlots {msg : TxMsg} {address : σ → Bytes32} {signers : List σ}
    {slots : List (Bytes32 × σ)} (h : witnessSlots msg address signers = .ok slots) :
    slots.length = match requiredWitnesses msg with
      | some required => required.length
      | none => signers.length := by
  rw [witnessSlots] at h
  split at h
  next hr =>
    rw [hr]
    split at h
    next => cases h
    split at h
    next => cases h
    next => rw [← Except.ok.inj h, List.length_map]
  next hr =>
    rw [hr]
    split at h
    next => cases h
    next => rw [← Except.ok.inj h]; rfl
  next required _ hr =>
    rw [hr]
    obtain ⟨slots', hslots, h⟩ := bind_eq_ok.1 h
    split at h
    next => cases h
    next =>
      obtain rfl := Except.ok.inj h
      exact (mapM_eq_ok.1 hslots).length_eq.symm

/-! ## Signing -/

def signTxMsgWithKeys (msg : TxMsg) (keys : List PhantasmaKeys) : Result SignedTxMsg := do
  assertSignable msg
  let slots ← witnessSlots msg PhantasmaKeys.publicKey keys
  let message ← serialize msg
  pure {
    msg
    witnesses := slots.map fun (address, key) => { address, signature := key.sign message } }

def signAndSerializeTxMsgWithKeys (msg : TxMsg) (keys : List PhantasmaKeys) : Result Bytes := do
  let signed ← signTxMsgWithKeys msg keys
  serialize signed

/-- A signer of two slots is asked once, and its signature is the same in both. -/
def signTxMsgWith (msg : TxMsg) (signers : List TxSigner) : Result SignedTxMsg := do
  assertSignable msg
  let slots ← witnessSlots msg TxSigner.publicKey signers
  let message ← serialize msg
  let witnesses ← slots.mapM fun (address, signer) => do
    let signature ← signer.signMessage message
    pure { address, signature }
  pure { msg, witnesses }

def signAndSerializeTxMsgWith (msg : TxMsg) (signers : List TxSigner) : Result Bytes := do
  let signed ← signTxMsgWith msg signers
  serialize signed

/-- An envelope signed with keys is the message's, with one witness per slot. -/
theorem signAndSerializeTxMsgWithKeys_eq_ok {msg : TxMsg} {keys : List PhantasmaKeys}
    {env : Bytes} (h : signAndSerializeTxMsgWithKeys msg keys = .ok env) :
    ∃ slots witnesses, witnessSlots msg PhantasmaKeys.publicKey keys = .ok slots ∧
      witnesses.length = slots.length ∧
        serialize ({ msg, witnesses } : SignedTxMsg) = .ok env := by
  obtain ⟨signed, hsigned, henv⟩ := bind_eq_ok.1 h
  obtain ⟨_, _, hsigned⟩ := bind_eq_ok.1 hsigned
  obtain ⟨slots, hslots, hsigned⟩ := bind_eq_ok.1 hsigned
  obtain ⟨message, _, hsigned⟩ := bind_eq_ok.1 hsigned
  obtain rfl := Except.ok.inj hsigned
  exact ⟨slots, _, hslots, List.length_map _, henv⟩

/-- An envelope signed by signers is the message's, with one witness per slot. -/
theorem signAndSerializeTxMsgWith_eq_ok {msg : TxMsg} {signers : List TxSigner}
    {env : Bytes} (h : signAndSerializeTxMsgWith msg signers = .ok env) :
    ∃ slots witnesses, witnessSlots msg TxSigner.publicKey signers = .ok slots ∧
      witnesses.length = slots.length ∧
        serialize ({ msg, witnesses } : SignedTxMsg) = .ok env := by
  obtain ⟨signed, hsigned, henv⟩ := bind_eq_ok.1 h
  obtain ⟨_, _, hsigned⟩ := bind_eq_ok.1 hsigned
  obtain ⟨slots, hslots, hsigned⟩ := bind_eq_ok.1 hsigned
  obtain ⟨message, _, hsigned⟩ := bind_eq_ok.1 hsigned
  obtain ⟨witnesses, hwitnesses, hsigned⟩ := bind_eq_ok.1 hsigned
  obtain rfl := Except.ok.inj hsigned
  exact ⟨slots, witnesses, hslots, (mapM_eq_ok.1 hwitnesses).length_eq.symm, henv⟩

end PhantasmaSdk
