import PhantasmaSdk.Carbon.Sign

/-!
# Who signs what

A message is signed with a list of keys, in any order, and the witnesses of its envelope
are in the order of its type. `signTxMsgWithKeys_eq_ok` says when that succeeds and with
which witnesses; the rest follows from it: what is signed serializes, up to the length of
an array, and where the message fixes the witnesses, the order of the keys does not matter,
nor that one of them is given twice.

Signers are asked in turn, each once, and what a signer of two slots said is kept
(`signTxMsgWithAsked`). As long as it would say the same again, that is as asking it at
every slot (`signTxMsgWithAsked_eq`), and signing with keys is the case where it always
answers.
-/

namespace PhantasmaSdk

variable {σ τ : Type} {msg : TxMsg}

/-! ## Slots -/

/-- The slot of an account: the first signer of its address. -/
def slotOf (address : σ → Bytes32) (signers : List σ) (owner : Bytes32) : Result (Bytes32 × σ) :=
  match signers.find? (address · = owner) with
  | some signer => pure (owner, signer)
  | none => builder s!"no signer for witness {hexEncode owner.bytes}"

theorem slotOf_eq_ok {address : σ → Bytes32} {signers : List σ} {owner : Bytes32}
    {slot : Bytes32 × σ} : slotOf address signers owner = .ok slot ↔
      slot.1 = owner ∧ signers.find? (address · = owner) = some slot.2 := by
  obtain ⟨owner', signer'⟩ := slot
  rw [slotOf]
  cases signers.find? (address · = owner) with
  | none => simp [builder]
  | some signer => simp [pure_eq_ok, eq_comm]

theorem slotOf_map (address : σ → Bytes32) (f : τ → σ) (signers : List τ) (owner : Bytes32) :
    slotOf address (signers.map f) owner =
      (slotOf (fun signer => address (f signer)) signers owner).map (Prod.map id f) := by
  unfold slotOf
  rw [List.find?_map]
  simp only [Function.comp_def]
  cases signers.find? (fun signer => address (f signer) = owner) <;> rfl

/-- Where the message fixes some witnesses: a slot for each, and no other signer. -/
theorem witnessSlots_of_fixed {address : σ → Bytes32} {signers : List σ} {required : List Bytes32}
    (hr : requiredWitnesses msg = some required) (hne : required ≠ []) :
    witnessSlots msg address signers =
      (do let slots ← required.mapM (slotOf address signers)
          match signers.find? (address · ∉ required) with
          | some signer => builder s!"signer {hexEncode (address signer).bytes} is not a witness of this transaction"
          | none => pure slots) := by
  rw [witnessSlots]
  rw [hr]
  cases required with
  | nil => exact absurd rfl hne
  | cons owner owners => rfl

theorem witnessSlots_eq_ok_of_fixed {address : σ → Bytes32} {signers : List σ}
    {slots : List (Bytes32 × σ)} {required : List Bytes32}
    (hr : requiredWitnesses msg = some required) :
    witnessSlots msg address signers = .ok slots ↔
      List.Forall₂ (fun owner slot => slot.1 = owner ∧
        signers.find? (address · = owner) = some slot.2) required slots ∧
      ∀ signer ∈ signers, address signer ∈ required := by
  rcases eq_or_ne required [] with rfl | hne
  · -- A type without witnesses takes no signers.
    rw [witnessSlots]
    rw [hr]
    cases signers with
    | nil => simp [pure_eq_ok, eq_comm]
    | cons signer signers =>
      exact iff_of_false (by rintro ⟨⟩) fun h =>
        List.not_mem_nil (h.2 signer List.mem_cons_self)
  · have hforeign : signers.find? (address · ∉ required) = none ↔
        ∀ signer ∈ signers, address signer ∈ required := by
      simp only [List.find?_eq_none, decide_eq_true_eq, not_not]
    simp only [witnessSlots_of_fixed hr hne, bind_eq_ok, mapM_eq_ok, slotOf_eq_ok]
    constructor
    · rintro ⟨slots', hslots', h⟩
      split at h
      next => cases h
      next hnone => exact Except.ok.inj h ▸ ⟨hslots', hforeign.1 hnone⟩
    · rintro ⟨hslots, hall⟩
      exact ⟨slots, hslots, by rw [hforeign.2 hall]; rfl⟩

/-- Where it does not: a slot for each signer, in turn, the account paying the gas among
    them. -/
theorem witnessSlots_eq_ok_of_array {address : σ → Bytes32} {signers : List σ}
    {slots : List (Bytes32 × σ)} (hr : requiredWitnesses msg = none) :
    witnessSlots msg address signers = .ok slots ↔
      msg.gasFrom ∈ signers.map address ∧
        slots = signers.map fun signer => (address signer, signer) := by
  rw [witnessSlots]
  rw [hr]
  dsimp only
  cases signers with
  | nil => simp [builder]
  | cons signer signers =>
    rw [if_neg (by simp)]
    have hany : (signer :: signers).any (address · = msg.gasFrom) ↔
        msg.gasFrom ∈ (signer :: signers).map address := by
      rw [List.any_eq_true, List.mem_map]
      simp only [decide_eq_true_eq]
    by_cases hmem : msg.gasFrom ∈ (signer :: signers).map address
    · rw [if_neg (not_not.2 (hany.2 hmem)), pure_eq_ok, Except.ok.injEq]
      exact ⟨fun h => ⟨hmem, h.symm⟩, fun h => h.2.symm⟩
    · rw [if_pos (mt hany.1 hmem)]
      exact iff_of_false (by rintro ⟨⟩) fun h => hmem h.1

theorem mapM_map_eq {α β γ : Type} (g : α → Result β) (f : β → γ) (as : List α) :
    as.mapM (fun a => (g a).map f) = (as.mapM g).map (List.map f) := by
  induction as with
  | nil => rfl
  | cons a as ih =>
    rw [List.mapM_cons, List.mapM_cons, ih]
    cases g a with
    | error e => rfl
    | ok b => cases as.mapM g <;> rfl

/-- The slots do not depend on what the signers are given as. -/
theorem witnessSlots_map (address : σ → Bytes32) (f : τ → σ) (signers : List τ) :
    witnessSlots msg address (signers.map f) =
      (witnessSlots msg (fun signer => address (f signer)) signers).map
        (List.map (Prod.map id f)) := by
  cases hr : requiredWitnesses msg with
  | none =>
    unfold witnessSlots
    simp only [hr, List.isEmpty_map, List.any_map, Function.comp_def]
    split
    next => rfl
    split
    next => rfl
    next => simp [Except.map, pure_eq_ok]
  | some required =>
    rcases eq_or_ne required [] with rfl | hne
    · unfold witnessSlots
      simp only [hr, List.isEmpty_map]
      split <;> rfl
    · rw [witnessSlots_of_fixed hr hne, witnessSlots_of_fixed hr hne,
        funext (slotOf_map address f signers), mapM_map_eq, List.find?_map]
      simp only [Function.comp_def]
      cases required.mapM (slotOf (fun signer => address (f signer)) signers) with
      | error e => rfl
      | ok slots => cases signers.find? (fun signer => address (f signer) ∉ required) <;> rfl

/-! ## Asking signers -/

/-- The witnesses of the slots. A signer is asked at its first slot, and what it said is
    kept for the others. -/
def askOnce [DecidableEq σ] (sign : σ → Result Bytes64) :
    (σ → Option Bytes64) → List (Bytes32 × σ) → Result (List Witness)
  | _, [] => pure []
  | asked, (address, signer) :: slots => do
    let signature ← (asked signer).elim (sign signer) pure
    let witnesses ← askOnce sign (Function.update asked signer (some signature)) slots
    pure ({ address, signature } :: witnesses)

/-- Signing as the source does it, the signers by their index. -/
def signTxMsgWithAsked (msg : TxMsg) (signers : List TxSigner) : Result SignedTxMsg := do
  assertSignable msg
  let slots ← witnessSlots msg (fun i => (signers.get i).publicKey) (List.finRange signers.length)
  let message ← serialize msg
  let witnesses ← askOnce (fun i => (signers.get i).signMessage message) (fun _ => none) slots
  pure { msg, witnesses }

/-- Keeping what was said is as asking again. -/
theorem askOnce_eq [DecidableEq σ] {sign : σ → Result Bytes64} {asked : σ → Option Bytes64}
    (hasked : ∀ signer signature, asked signer = some signature → sign signer = .ok signature)
    (slots : List (Bytes32 × σ)) : askOnce sign asked slots =
      (slots.mapM fun slot => do
        let signature ← sign slot.2
        pure { address := slot.1, signature }) := by
  induction slots generalizing asked with
  | nil => rfl
  | cons slot slots ih =>
    obtain ⟨address, signer⟩ := slot
    have hsign : (asked signer).elim (sign signer) pure = sign signer := by
      cases h : asked signer with
      | none => rfl
      | some signature => exact (hasked signer signature h).symm
    rw [askOnce, hsign, List.mapM_cons, bind_assoc]
    cases hs : sign signer with
    | error e => rfl
    | ok signature =>
      -- What is kept is what would be said again, the new signature included.
      have hupdate : ∀ signer' signature',
          Function.update asked signer (some signature) signer' = some signature' →
            sign signer' = .ok signature' := by
        intro signer' signature' h
        by_cases hsame : signer' = signer
        · subst hsame
          rw [Function.update_self] at h
          exact Option.some.inj h ▸ hs
        · rw [Function.update_of_ne hsame] at h
          exact hasked signer' signature' h
      rw [ok_bind, ih hupdate]
      rfl

/-- Signers that say the same again may be asked at every slot. -/
theorem signTxMsgWithAsked_eq (msg : TxMsg) (signers : List TxSigner) :
    signTxMsgWithAsked msg signers = signTxMsgWith msg signers := by
  have hget : (List.finRange signers.length).map signers.get = signers :=
    List.map_get_finRange signers
  have hslots : witnessSlots msg TxSigner.publicKey
      ((List.finRange signers.length).map signers.get) = _ := witnessSlots_map _ _ _
  rw [hget] at hslots
  rw [signTxMsgWithAsked, signTxMsgWith, hslots]
  refine congrArg _ (funext fun _ => ?_)
  cases witnessSlots msg (fun i => (signers.get i).publicKey) (List.finRange signers.length) with
  | error e => rfl
  | ok slots =>
    change (serialize msg >>= _) = (serialize msg >>= _)
    refine congrArg _ (funext fun message => ?_)
    rw [askOnce_eq nofun, List.mapM_map]
    rfl

/-- Keys in memory are signers that always answer. -/
def PhantasmaKeys.toTxSigner (keys : PhantasmaKeys) : TxSigner where
  publicKey := keys.publicKey
  signMessage message := pure (keys.sign message)

/-- The two paths agree. -/
theorem signTxMsgWithAsked_keys (msg : TxMsg) (keys : List PhantasmaKeys) :
    signTxMsgWithAsked msg (keys.map PhantasmaKeys.toTxSigner) = signTxMsgWithKeys msg keys := by
  rw [signTxMsgWithAsked_eq, signTxMsgWith, signTxMsgWithKeys,
    witnessSlots_map TxSigner.publicKey PhantasmaKeys.toTxSigner]
  refine congrArg _ (funext fun _ => ?_)
  change (witnessSlots msg PhantasmaKeys.publicKey keys).map _ >>= _ = _
  cases witnessSlots msg PhantasmaKeys.publicKey keys with
  | error e => rfl
  | ok slots =>
    change (serialize msg >>= _) = (serialize msg >>= _)
    refine congrArg _ (funext fun message => ?_)
    have hwitnesses : (slots.map (Prod.map id PhantasmaKeys.toTxSigner)).mapM
        (fun slot => do
          let signature ← slot.2.signMessage message
          pure { address := slot.1, signature } : Bytes32 × TxSigner → Result Witness) =
        .ok (slots.map fun slot => { address := slot.1, signature := slot.2.sign message }) := by
      rw [List.mapM_map, mapM_eq_ok, List.forall₂_map_right_iff, List.forall₂_same]
      exact fun slot _ => rfl
    exact bind_eq_ok.2 ⟨_, hwitnesses, rfl⟩

/-! ## Signing with keys -/

/-- The accounts are those the message asks for: each whose witness it fixes and no other,
    or any, the one paying the gas among them. -/
def TxMsg.GoesWith (msg : TxMsg) (accounts : List Bytes32) : Prop :=
  match requiredWitnesses msg with
  | some required => (∀ owner ∈ required, owner ∈ accounts) ∧ ∀ account ∈ accounts, account ∈ required
  | none => msg.gasFrom ∈ accounts

/-- There are slots iff the signers are those the message asks for. -/
theorem exists_witnessSlots_iff {address : σ → Bytes32} {signers : List σ} :
    (∃ slots, witnessSlots msg address signers = .ok slots) ↔
      msg.GoesWith (signers.map address) := by
  rw [TxMsg.GoesWith]
  cases hr : requiredWitnesses msg with
  | none =>
    simp only [witnessSlots_eq_ok_of_array hr]
    exact ⟨fun ⟨_, h, _⟩ => h, fun h => ⟨_, h, rfl⟩⟩
  | some required =>
    simp only [witnessSlots_eq_ok_of_fixed hr, List.forall_mem_map]
    constructor
    · rintro ⟨slots, hslots, hall⟩
      refine ⟨fun owner howner => ?_, hall⟩
      obtain ⟨slot, -, -, hfind⟩ := exists_of_forall₂_mem hslots howner
      have haddress := List.find?_some hfind
      exact List.mem_map.2 ⟨slot.2, List.mem_of_find?_eq_some hfind, by simpa using haddress⟩
    · rintro ⟨hevery, hall⟩
      have hslot : ∀ owner ∈ required, ∃ slot, slotOf address signers owner = .ok slot := by
        intro owner howner
        obtain ⟨signer, hsigner, rfl⟩ := List.mem_map.1 (hevery owner howner)
        have hsome : (signers.find? (address · = address signer)).isSome :=
          List.find?_isSome.2 ⟨signer, hsigner, decide_eq_true rfl⟩
        obtain ⟨first, hfirst⟩ := Option.isSome_iff_exists.1 hsome
        exact ⟨(address signer, first), slotOf_eq_ok.2 ⟨rfl, hfirst⟩⟩
      obtain ⟨slots, hslots⟩ := forall₂_of_isOk hslot
      exact ⟨slots, hslots.imp fun _ _ h => slotOf_eq_ok.1 h, hall⟩

theorem signTxMsgWithKeys_eq_ok {keys : List PhantasmaKeys} {signed : SignedTxMsg} :
    signTxMsgWithKeys msg keys = .ok signed ↔ assertSignable msg = .ok () ∧
      ∃ slots message, witnessSlots msg PhantasmaKeys.publicKey keys = .ok slots ∧
        serialize msg = .ok message ∧
        signed = ⟨msg, slots.map fun (address, key) => ⟨address, key.sign message⟩⟩ := by
  constructor
  · intro h
    obtain ⟨⟨⟩, hsignable, h⟩ := bind_eq_ok.1 h
    obtain ⟨slots, hslots, h⟩ := bind_eq_ok.1 h
    obtain ⟨message, hmessage, h⟩ := bind_eq_ok.1 h
    exact ⟨hsignable, slots, message, hslots, hmessage, (Except.ok.inj h).symm⟩
  · rintro ⟨hsignable, slots, message, hslots, hmessage, rfl⟩
    exact bind_eq_ok.2 ⟨(), hsignable, bind_eq_ok.2 ⟨slots, hslots,
      bind_eq_ok.2 ⟨message, hmessage, rfl⟩⟩⟩

/-- A slot is of the signer it is paired with, and the slots are those of the type. -/
theorem address_of_witnessSlots {address : σ → Bytes32} {signers : List σ}
    {slots : List (Bytes32 × σ)} (h : witnessSlots msg address signers = .ok slots) :
    slots.map Prod.fst = (requiredWitnesses msg).getD (signers.map address) ∧
      ∀ slot ∈ slots, slot.2 ∈ signers ∧ address slot.2 = slot.1 := by
  cases hr : requiredWitnesses msg with
  | none =>
    obtain ⟨-, rfl⟩ := (witnessSlots_eq_ok_of_array hr).1 h
    refine ⟨by simp [Function.comp_def], fun slot hslot => ?_⟩
    obtain ⟨signer, hsigner, rfl⟩ := List.mem_map.1 hslot
    exact ⟨hsigner, rfl⟩
  | some required =>
    obtain ⟨hslots, -⟩ := (witnessSlots_eq_ok_of_fixed hr).1 h
    constructor
    · rw [Option.getD_some, ← List.forall₂_eq_eq_eq, List.forall₂_map_left_iff]
      exact hslots.flip.imp fun _ _ h => h.1
    · intro slot hslot
      obtain ⟨owner, -, howner, hfind⟩ := exists_of_forall₂_mem hslots.flip hslot
      have haddress : address slot.2 = owner := by simpa using List.find?_some hfind
      exact ⟨List.mem_of_find?_eq_some hfind, haddress.trans howner.symm⟩

/-- Keys of one address sign alike: a public key has one private key. -/
def OnePerAddress (keys : List PhantasmaKeys) : Prop :=
  ∀ key ∈ keys, ∀ key' ∈ keys, key.publicKey = key'.publicKey → key.sign = key'.sign

/-- Where the message fixes the witnesses, they do not depend on the order of the keys. -/
theorem signTxMsgWithKeys_of_same_keys {keys keys' : List PhantasmaKeys} {signed : SignedTxMsg}
    {required : List Bytes32} (hr : requiredWitnesses msg = some required)
    (hone : OnePerAddress keys) (hsame : ∀ key, key ∈ keys' ↔ key ∈ keys)
    (h : signTxMsgWithKeys msg keys = .ok signed) : signTxMsgWithKeys msg keys' = .ok signed := by
  obtain ⟨hsignable, slots, message, hslots, hmessage, rfl⟩ := signTxMsgWithKeys_eq_ok.1 h
  have hgoes : msg.GoesWith (keys'.map PhantasmaKeys.publicKey) := by
    have hmem : ∀ address, address ∈ keys'.map PhantasmaKeys.publicKey ↔
        address ∈ keys.map PhantasmaKeys.publicKey := by
      intro address
      simp only [List.mem_map, hsame]
    have hgoes := exists_witnessSlots_iff.1 ⟨slots, hslots⟩
    simp only [TxMsg.GoesWith, hr, hmem] at hgoes ⊢
    exact hgoes
  obtain ⟨slots', hslots'⟩ := exists_witnessSlots_iff.2 hgoes
  refine signTxMsgWithKeys_eq_ok.2 ⟨hsignable, slots', message, hslots', hmessage, ?_⟩
  have hslot {keys : List PhantasmaKeys} {slots : List (Bytes32 × PhantasmaKeys)}
      (h : witnessSlots msg PhantasmaKeys.publicKey keys = .ok slots) :
      List.Forall₂ (fun owner witness => ∃ key ∈ keys, key.publicKey = owner ∧
        witness = (⟨owner, key.sign message⟩ : Witness)) required
        (slots.map fun (address, key) => ⟨address, key.sign message⟩) := by
    rw [List.forall₂_map_right_iff]
    refine ((witnessSlots_eq_ok_of_fixed hr).1 h).1.imp fun owner slot hslot => ?_
    obtain ⟨rfl, hfind⟩ := hslot
    exact ⟨slot.2, List.mem_of_find?_eq_some hfind, by simpa using List.find?_some hfind, rfl⟩
  have hwitnesses := eq_of_forall₂ (hslot hslots) (hslot hslots') (by
    rintro owner - _ _ ⟨key, hkey, hkeyowner, rfl⟩ ⟨key', hkey', rfl, rfl⟩
    rw [hone key hkey key' ((hsame key').1 hkey') hkeyowner])
  rw [hwitnesses]

/-- The envelope of a signed message: one witness per slot of its type, each the signature
    of the message by a key of that address. It serializes, up to the length of an array.
    The other path gives the same one, and so do the keys in another order where the
    message fixes the witnesses. -/
structure SignedBy (msg : TxMsg) (keys : List PhantasmaKeys) (signed : SignedTxMsg) : Prop where
  msg_eq : signed.msg = msg
  addresses : signed.witnesses.map Witness.address =
    (requiredWitnesses msg).getD (keys.map PhantasmaKeys.publicKey)
  signatures : ∃ message, serialize msg = .ok message ∧ ∀ witness ∈ signed.witnesses,
    ∃ key ∈ keys, key.publicKey = witness.address ∧ witness.signature = key.sign message
  serialized : (∃ env, serialize signed = .ok env) ↔
    (requiredWitnesses msg).isSome ∨ keys.length < 2 ^ 32
  asked : signTxMsgWithAsked msg (keys.map PhantasmaKeys.toTxSigner) = .ok signed
  anyOrder : (requiredWitnesses msg).isSome → OnePerAddress keys → ∀ keys',
    (∀ key, key ∈ keys' ↔ key ∈ keys) → signTxMsgWithKeys msg keys' = .ok signed

/-- The array of witnesses is refused from `2 ^ 32` of them on, and nothing else is. -/
theorem exists_serialize_signed_iff {keys : List PhantasmaKeys} {signed : SignedTxMsg}
    (h : signTxMsgWithKeys msg keys = .ok signed) : (∃ env, serialize signed = .ok env) ↔
      (requiredWitnesses msg).isSome ∨ keys.length < 2 ^ 32 := by
  obtain ⟨-, slots, message, hslots, hmessage, rfl⟩ := signTxMsgWithKeys_eq_ok.1 h
  obtain ⟨haddresses, -⟩ := address_of_witnessSlots hslots
  have hlength := length_witnessSlots hslots
  have hadmits : msg.Admits (slots.map fun (address, key) => ⟨address, key.sign message⟩) := by
    have hmap : (slots.map fun (address, key) => (⟨address, key.sign message⟩ : Witness)).map
        Witness.address = slots.map Prod.fst := by rw [List.map_map]; rfl
    rw [TxMsg.Admits, hmap, haddresses]
    have hgoes := exists_witnessSlots_iff.1 ⟨slots, hslots⟩
    rw [TxMsg.GoesWith] at hgoes
    cases hr : requiredWitnesses msg with
    | none => rw [hr] at hgoes; exact hgoes
    | some required => rfl
  have harray : requiredWitnesses msg = none ↔ msg.layout = .array := by
    rw [TxMsg.requiredWitnesses_eq]
    cases msg.layout <;> simp [Layout.required]
  cases hr : requiredWitnesses msg with
  | some required =>
    have hnot : msg.layout ≠ .array := fun h => by simp [harray.2 h] at hr
    exact iff_of_true ((SignedTxMsg.exists_writeCarbon_iff hmessage fun h => absurd h hnot).2 hadmits)
      (Or.inl rfl)
  | none =>
    rw [hr] at hlength
    constructor
    · rintro ⟨env, henv⟩
      obtain ⟨_, witnesses, -, hwrite, -⟩ := SignedTxMsg.writeCarbon_eq_ok.1 henv
      rw [harray.1 hr, Layout.write] at hwrite
      obtain ⟨-, hwrite⟩ | ⟨-, hwrite⟩ := ite_eq_iff.1 hwrite
      · cases hwrite
      · have hlt := CarbonWriter.length_lt_of_writeArray hwrite
        rw [List.length_map, hlength] at hlt
        exact Or.inr hlt
    · rintro (h | hlt)
      · cases h
      · exact (SignedTxMsg.exists_writeCarbon_iff hmessage fun _ => by
          rw [List.length_map, hlength]
          exact hlt).2 hadmits

/-- Signing with keys: what it gives is signed by them, and it fails unless the keys are
    those the message asks for. -/
theorem signTxMsgWithKeys_signedBy (msg : TxMsg) (keys : List PhantasmaKeys) :
    (∀ signed, signTxMsgWithKeys msg keys = .ok signed → SignedBy msg keys signed) ∧
      (¬msg.GoesWith (keys.map PhantasmaKeys.publicKey) →
        ∃ e, signTxMsgWithKeys msg keys = .error e) := by
  constructor
  · intro signed h
    have hserialized := exists_serialize_signed_iff h
    obtain ⟨-, slots, message, hslots, hmessage, rfl⟩ := signTxMsgWithKeys_eq_ok.1 h
    obtain ⟨haddresses, hkeys⟩ := address_of_witnessSlots hslots
    refine ⟨rfl, ?_, ⟨message, hmessage, fun witness hwitness => ?_⟩, hserialized, ?_, ?_⟩
    · rw [← haddresses, List.map_map]
      rfl
    · obtain ⟨slot, hslot, rfl⟩ := List.mem_map.1 hwitness
      obtain ⟨hmem, haddress⟩ := hkeys slot hslot
      exact ⟨slot.2, hmem, haddress, rfl⟩
    · rw [signTxMsgWithAsked_keys, h]
    · intro hsome hone keys' hsame
      obtain ⟨required, hr⟩ := Option.isSome_iff_exists.1 hsome
      exact signTxMsgWithKeys_of_same_keys hr hone hsame h
  · intro hnot
    cases h : signTxMsgWithKeys msg keys with
    | error e => exact ⟨e, rfl⟩
    | ok signed =>
      obtain ⟨-, slots, -, hslots, -⟩ := signTxMsgWithKeys_eq_ok.1 h
      exact absurd (exists_witnessSlots_iff.1 ⟨slots, hslots⟩) hnot

/-- Keys of an address all of whose bytes are alike, signing everything with them. -/
def toyKeys (byte : UInt8) : PhantasmaKeys where
  publicKey := (SignedTxMsg.toyWitness byte).address
  sign _ := (SignedTxMsg.toyWitness byte).signature

/-- A transfer from one account, the gas paid by another. -/
def sponsoredTransfer : TxMsg where
  txType := .transferFungibleGasPayer
  expiry := 0
  maxGas := 1
  maxData := 0
  gasFrom := (toyKeys 1).publicKey
  payload := ⟨""⟩
  msg := .transferFungibleGasPayer {
    toAddress := emptyBytes32, fromAddress := (toyKeys 2).publicKey, tokenId := 0, amount := 1 }

theorem signedBy_sponsoredTransfer :
    (∃ signed, signTxMsgWithKeys sponsoredTransfer [toyKeys 2, toyKeys 1] = .ok signed ∧
      SignedBy sponsoredTransfer [toyKeys 2, toyKeys 1] signed) ∧
      ∃ e, signTxMsgWithKeys sponsoredTransfer [toyKeys 1] = .error e := by
  obtain ⟨signed, hsigned⟩ := exists_ok_of_isSome
    (x := signTxMsgWithKeys sponsoredTransfer [toyKeys 2, toyKeys 1]) (by decide +kernel)
  refine ⟨⟨signed, hsigned, (signTxMsgWithKeys_signedBy _ _).1 signed hsigned⟩,
    (signTxMsgWithKeys_signedBy _ _).2 fun h => ?_⟩
  have hmem : (toyKeys 2).publicKey ∈ [toyKeys 1].map PhantasmaKeys.publicKey :=
    h.1 _ (by decide)
  exact absurd hmem (by decide)

/-- A call with nothing in it, which any number of witnesses may go with. -/
def emptyCall : TxMsg :=
  { sponsoredTransfer with
    txType := .call
    msg := .call { moduleId := 0, methodId := 0, args := [], sections := none } }

/-- `2 ^ 32` witnesses are signed and not written. -/
theorem not_serialize_signed : ¬∀ (msg : TxMsg) (keys : List PhantasmaKeys) (signed : SignedTxMsg),
    signTxMsgWithKeys msg keys = .ok signed → ∃ env, serialize signed = .ok env := by
  intro h
  have hkeys (n : ℕ) : ∃ keys : List PhantasmaKeys, keys.length = n + 1 ∧
      emptyCall.gasFrom ∈ keys.map PhantasmaKeys.publicKey :=
    ⟨toyKeys 1 :: List.replicate n (toyKeys 1), by simp, List.mem_cons_self⟩
  obtain ⟨keys, hlength, hmem⟩ := hkeys (2 ^ 32 - 1)
  obtain ⟨slots, hslots⟩ : ∃ slots, witnessSlots emptyCall PhantasmaKeys.publicKey keys = .ok slots :=
    exists_witnessSlots_iff.2 hmem
  obtain ⟨message, hmessage⟩ := exists_ok_of_isSome (x := serialize emptyCall) (by decide +kernel)
  have hsigned : signTxMsgWithKeys emptyCall keys = .ok _ :=
    signTxMsgWithKeys_eq_ok.2 ⟨rfl, slots, message, hslots, hmessage, rfl⟩
  rcases (exists_serialize_signed_iff hsigned).1 (h _ _ _ hsigned) with hfixed | hlt
  · cases hfixed
  · omega

end PhantasmaSdk
