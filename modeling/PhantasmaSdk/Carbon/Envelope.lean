import PhantasmaSdk.Carbon.TxMsg

/-!
# Envelopes

A signed message is the message followed by its witnesses, in the layout of its
type: one bare signature by the account paying the gas; that one and the token
owner's; an array of addresses with their signatures; or nothing. The addresses of
bare signatures are not written: the reader takes them from the message.

Four functions go by the type: `requiredWitnesses`, the writer, the reader, and
through the writer `envelopeBytes`. They agree by way of `Layout`, which says
which of the four layouts a type has.
-/

namespace PhantasmaSdk

open Codec Codec.Decoder CarbonWriter CarbonReader

/-! ## Witnesses -/

structure Witness where
  address : Bytes32
  signature : Bytes64
  deriving DecidableEq, Repr

namespace Witness

instance : CarbonSerializable Witness where
  writeCarbon v := pure (write32 v.address ++ write64 v.signature)
  readCarbon := do
    let address ← read32
    let signature ← read64
    pure { address, signature }

theorem lawful : Lawful (writeCarbon : Witness → Result Bytes) readCarbon (fun _ => True)
    (fun _ => True) 96 :=
  (lawful_write32.pair lawful_write64).iso (fun p => ⟨p.1, p.2⟩)
    (fun v => (v.address, v.signature)) (fun _ => rfl) (by simp [readCarbon]) (by simp) (by simp)

theorem safe_readCarbon {input : Bytes} : (readCarbon : Reader Witness).Safe input :=
  safe_read32.bind fun _ => safe_read64.bind fun _ => safeOn_pure _ _

end Witness

structure SignedTxMsg where
  msg : TxMsg
  witnesses : List Witness
  deriving DecidableEq, Repr

def requiredWitnesses (msg : TxMsg) : Option (List Bytes32) :=
  match msg.txType with
  | .transferFungible | .transferNonFungibleSingle | .transferNonFungibleMulti | .mintFungible
  | .burnFungible | .mintNonFungible | .burnNonFungible => some [msg.gasFrom]
  | .transferFungibleGasPayer | .transferNonFungibleSingleGasPayer
  | .transferNonFungibleMultiGasPayer | .burnFungibleGasPayer | .burnNonFungibleGasPayer =>
    some [msg.gasFrom, msg.msg.fromAddress]
  | .phantasmaRaw => some []
  | .call | .callMulti | .trade | .phantasma => none

namespace SignedTxMsg

/-- The witnesses as written after the message. -/
def writeWitnesses (v : SignedTxMsg) : Result Bytes :=
  match v.msg.txType with
  | .transferFungible | .transferNonFungibleSingle | .transferNonFungibleMulti | .mintFungible
  | .burnFungible | .mintNonFungible | .burnNonFungible =>
    match v.witnesses with
    | [witness] =>
      if witness.address ≠ v.msg.gasFrom then
        serialization "single-witness transaction address mismatch"
      else pure (write64 witness.signature)
    | _ => serialization "single-witness transaction address mismatch"
  | .transferFungibleGasPayer | .transferNonFungibleSingleGasPayer
  | .transferNonFungibleMultiGasPayer | .burnFungibleGasPayer | .burnNonFungibleGasPayer =>
    match v.witnesses with
    | [gas, from'] =>
      if gas.address ≠ v.msg.gasFrom then serialization "gas witness address mismatch"
      else if from'.address ≠ v.msg.msg.fromAddress then
        serialization "from witness address mismatch"
      else pure (write64 gas.signature ++ write64 from'.signature)
    | _ => serialization "gas-payer transaction expects 2 witnesses"
  | .call | .callMulti | .trade | .phantasma =>
    if ¬v.witnesses.any (·.address = v.msg.gasFrom) then
      serialization "the gas payer must be one of the witnesses"
    else writeCarbonArray v.witnesses
  | .phantasmaRaw =>
    if ¬v.witnesses.isEmpty then
      serialization "raw Phantasma transaction must not contain witnesses"
    else pure []

/-- The witnesses of a message, as read after it. -/
def readWitnesses (msg : TxMsg) : Reader (List Witness) :=
  match msg.txType with
  | .transferFungible | .transferNonFungibleSingle | .transferNonFungibleMulti | .mintFungible
  | .burnFungible | .mintNonFungible | .burnNonFungible => do
    let signature ← read64
    pure [{ address := msg.gasFrom, signature }]
  | .transferFungibleGasPayer | .transferNonFungibleSingleGasPayer
  | .transferNonFungibleMultiGasPayer | .burnFungibleGasPayer | .burnNonFungibleGasPayer => do
    let gas ← read64
    let from' ← read64
    pure [{ address := msg.gasFrom, signature := gas },
      { address := msg.msg.fromAddress, signature := from' }]
  | .call | .callMulti | .trade | .phantasma => readCarbonArray Witness
  | .phantasmaRaw => pure []

instance : CarbonSerializable SignedTxMsg where
  writeCarbon v := do
    let msg ← writeCarbon v.msg
    let witnesses ← v.writeWitnesses
    pure (msg ++ witnesses)
  readCarbon := do
    let msg ← readCarbon
    let witnesses ← readWitnesses msg
    pure { msg, witnesses }

end SignedTxMsg

/-! ## Sizes -/

/-- A witness with a placeholder for its signature. -/
def placeholder (address : Bytes32) : Witness := { address, signature := emptyBytes64 }

/-- The addresses an envelope is sized with: those the message fixes, or, for an
    array, the account paying the gas and as many others as are asked for. -/
def placeholderAddresses (msg : TxMsg) (witnessCount : Option UInt32) : Result (List Bytes32) :=
  match requiredWitnesses msg with
  | some required =>
    match witnessCount with
    | some count =>
      if count.toNat ≠ required.length then
        builder s!"{msg.txType.debug} carries {required.length} witness(es), not {count}"
      else pure required
    | none => pure required
  | none =>
    let count := witnessCount.getD 1
    if count = 0 then builder s!"{msg.txType.debug} needs at least one witness, not 0"
    else pure (msg.gasFrom :: List.replicate (count.toNat - 1) emptyBytes32)

def envelopeBytes (msg : TxMsg) (witnessCount : Option UInt32) : Result UInt32 := do
  let addresses ← placeholderAddresses msg witnessCount
  let encoded ← serialize ({ msg, witnesses := addresses.map placeholder } : SignedTxMsg)
  if encoded.length < 2 ^ 32 then pure (UInt32.ofNat encoded.length)
  else builder "envelope exceeds u32 bytes"

/-! ## Layouts -/

/-- How the witnesses of a type are laid out. -/
inductive Layout
  | single
  | gasPayer
  | array
  | none
  deriving DecidableEq, Repr

namespace Layout

def ofType : TxType → Layout
  | .transferFungible | .transferNonFungibleSingle | .transferNonFungibleMulti | .mintFungible
  | .burnFungible | .mintNonFungible | .burnNonFungible => .single
  | .transferFungibleGasPayer | .transferNonFungibleSingleGasPayer
  | .transferNonFungibleMultiGasPayer | .burnFungibleGasPayer | .burnNonFungibleGasPayer =>
    .gasPayer
  | .call | .callMulti | .trade | .phantasma => .array
  | .phantasmaRaw => .none

/-- The addresses a layout fixes, given the account paying the gas and the owner. -/
def required (gasFrom owner : Bytes32) : Layout → Option (List Bytes32)
  | single => some [gasFrom]
  | gasPayer => some [gasFrom, owner]
  | array => Option.none
  | none => some []

/-- The bytes `n` witnesses take. -/
def size (n : ℕ) : Layout → ℕ
  | array => 4 + 96 * n
  | _ => 64 * n

end Layout

/-! ## The writer and the reader by layout -/

namespace Layout

variable {gasFrom owner : Bytes32} {witnesses : List Witness} {enc : Bytes}

/-- The writer of a layout. -/
def write (gasFrom owner : Bytes32) (witnesses : List Witness) : Layout → Result Bytes
  | single =>
    match witnesses with
    | [witness] =>
      if witness.address ≠ gasFrom then
        serialization "single-witness transaction address mismatch"
      else pure (write64 witness.signature)
    | _ => serialization "single-witness transaction address mismatch"
  | gasPayer =>
    match witnesses with
    | [gas, from'] =>
      if gas.address ≠ gasFrom then serialization "gas witness address mismatch"
      else if from'.address ≠ owner then serialization "from witness address mismatch"
      else pure (write64 gas.signature ++ write64 from'.signature)
    | _ => serialization "gas-payer transaction expects 2 witnesses"
  | array =>
    if ¬witnesses.any (·.address = gasFrom) then
      serialization "the gas payer must be one of the witnesses"
    else writeCarbonArray witnesses
  | none =>
    if ¬witnesses.isEmpty then
      serialization "raw Phantasma transaction must not contain witnesses"
    else pure []

/-- The reader of a layout. -/
def read (gasFrom owner : Bytes32) : Layout → Reader (List Witness)
  | single => do
    let signature ← read64
    pure [{ address := gasFrom, signature }]
  | gasPayer => do
    let gas ← read64
    let from' ← read64
    pure [{ address := gasFrom, signature := gas }, { address := owner, signature := from' }]
  | array => readCarbonArray Witness
  | none => pure []

/-- The witnesses a layout goes with. -/
def Admits (gasFrom owner : Bytes32) (witnesses : List Witness) (layout : Layout) : Prop :=
  match layout.required gasFrom owner with
  | some required => witnesses.map Witness.address = required
  | Option.none => gasFrom ∈ witnesses.map Witness.address

/-- A layout is written with the witnesses it goes with, if those of an array are no more
    than are counted. -/
theorem exists_write_iff (layout : Layout) (hl : layout = array → witnesses.length < 2 ^ 32) :
    (∃ enc, layout.write gasFrom owner witnesses = .ok enc) ↔
      layout.Admits gasFrom owner witnesses := by
  cases layout with
  | single =>
    match witnesses with
    | [] => simp [write, serialization, Admits, required]
    | [w] => by_cases h : w.address = gasFrom <;>
      simp [write, serialization, Admits, required, h, pure_eq_ok]
    | _ :: _ :: _ => simp [write, serialization, Admits, required]
  | gasPayer =>
    match witnesses with
    | [] => simp [write, serialization, Admits, required]
    | [_] => simp [write, serialization, Admits, required]
    | [w, w'] =>
      by_cases h : w.address = gasFrom <;> by_cases h' : w'.address = owner <;>
        simp [write, serialization, Admits, required, h, h', pure_eq_ok]
    | _ :: _ :: _ :: _ => simp [write, serialization, Admits, required]
  | array =>
    have harray : ∃ enc, writeCarbonArray witnesses = .ok enc := by
      obtain ⟨encs, hencs⟩ : ∃ encs, List.Forall₂ (fun w e => writeCarbon w = .ok e) witnesses
          encs := forall₂_of_isOk fun w _ => ⟨_, rfl⟩
      exact ⟨_, writeArray_of_forall₂ (hl rfl) hencs⟩
    by_cases h : gasFrom ∈ witnesses.map Witness.address
    · have hany : witnesses.any (·.address = gasFrom) := by simpa using h
      simp [write, Admits, required, hany, harray, h]
    · have hany : ¬witnesses.any (·.address = gasFrom) := by simpa using h
      simp [write, Admits, required, hany, serialization, h]
  | none =>
    cases witnesses <;> simp [write, serialization, Admits, required, pure_eq_ok]

/-- The witnesses a layout was written with are read back. -/
theorem reads_read {layout : Layout} (hl : witnesses.length < 2 ^ 31)
    (hw : layout.write gasFrom owner witnesses = .ok enc) :
    (layout.read gasFrom owner).Reads enc witnesses := by
  cases layout with
  | single =>
    match witnesses, hw with
    | [w], hw =>
      simp only [write] at hw
      split at hw
      next => cases hw
      next h =>
        obtain rfl := Except.ok.inj hw
        obtain rfl := not_not.1 h
        exact (reads_read64 w.signature).map fun signature => [(⟨w.address, signature⟩ : Witness)]
  | gasPayer =>
    match witnesses, hw with
    | [w, w'], hw =>
      simp only [write] at hw
      split at hw
      next => cases hw
      next h =>
      split at hw
      next => cases hw
      next h' =>
        obtain rfl := Except.ok.inj hw
        obtain rfl := not_not.1 h
        obtain rfl := not_not.1 h'
        exact (reads_read64 w.signature).bind <| (reads_read64 w'.signature).map
          fun signature => [w, (⟨w'.address, signature⟩ : Witness)]
  | array =>
    simp only [write] at hw
    split at hw
    next => cases hw
    next =>
      exact (lawful_writeCarbonArray Witness.lawful (by norm_num)).reads _ _
        ⟨hl, fun _ _ => trivial⟩ hw
  | none =>
    simp only [write] at hw
    split at hw
    next => cases hw
    next h =>
      obtain rfl := Except.ok.inj hw
      obtain rfl : witnesses = [] := by simpa using h
      exact reads_pure []

/-- What is read of a layout is written again as it was read, unless the account
    paying the gas is missing from an array. -/
theorem yields_read (layout : Layout) : (layout.read gasFrom owner).Yields fun witnesses used =>
    witnesses.length < 2 ^ 31 ∧ (layout ≠ array → layout.Admits gasFrom owner witnesses) ∧
      (layout.Admits gasFrom owner witnesses →
        layout.write gasFrom owner witnesses = .ok used) := by
  cases layout with
  | single =>
    refine yields_read64.bind fun signature used h => yields_pure ?_
    subst h
    simp [Admits, required, write, pure_eq_ok]
  | gasPayer =>
    refine yields_read64.bind fun gas used h => yields_read64.bind fun from' used' h' =>
      yields_pure ?_
    subst h h'
    simp [Admits, required, write, pure_eq_ok]
  | array =>
    refine (lawful_writeCarbonArray Witness.lawful (by norm_num)).yields.mono
      fun witnesses used h => ?_
    obtain ⟨⟨hl, -⟩, enc, henc, hused⟩ := h
    refine ⟨hl, fun h => absurd rfl h, fun h => ?_⟩
    have hany : witnesses.any (·.address = gasFrom) := by simpa [Admits, required] using h
    rw [← hused fun _ _ => trivial]
    simpa [write, hany] using henc
  | none => exact yields_pure (by simp [Admits, required, write, pure_eq_ok])

theorem length_write {layout : Layout} (hw : layout.write gasFrom owner witnesses = .ok enc) :
    enc.length = layout.size witnesses.length := by
  cases layout with
  | single =>
    match witnesses, hw with
    | [w], hw =>
      simp only [write] at hw
      split at hw
      next => cases hw
      next => exact Except.ok.inj hw ▸ w.signature.length_eq
  | gasPayer =>
    match witnesses, hw with
    | [w, w'], hw =>
      simp only [write] at hw
      split at hw
      next => cases hw
      split at hw
      next => cases hw
      next =>
        rw [← Except.ok.inj hw, List.length_append, write64, write64, w.signature.length_eq,
          w'.signature.length_eq]
        rfl
  | array =>
    simp only [write] at hw
    split at hw
    next => cases hw
    next =>
      have hsize : ∀ (w : Witness) e, writeCarbon w = .ok e → e.length = 96 := by
        intro w e he
        rw [← Except.ok.inj he, List.length_append, write32, write64, w.address.length_eq,
          w.signature.length_eq]
      rw [length_writeArray 96 hsize hw, size, mul_comm]
  | none =>
    simp only [write] at hw
    split at hw
    next => cases hw
    next h =>
      obtain rfl : witnesses = [] := by simpa using h
      exact Except.ok.inj hw ▸ rfl

theorem safe_read (layout : Layout) {input : Bytes} : (layout.read gasFrom owner).Safe input := by
  cases layout with
  | single => exact safe_read64.bind fun _ => safeOn_pure _ _
  | gasPayer => exact safe_read64.bind fun _ => safe_read64.bind fun _ => safeOn_pure _ _
  | array => exact safe_readCarbonArray Witness.safe_readCarbon
  | none => exact safeOn_pure _ _

end Layout

namespace TxMsg

/-- The layout of a message's witnesses. -/
def layout (msg : TxMsg) : Layout := Layout.ofType msg.txType

/-- The witnesses a message goes with: those it fixes, in order, or any set that the
    account paying the gas is in. -/
def Admits (msg : TxMsg) (witnesses : List Witness) : Prop :=
  match requiredWitnesses msg with
  | some required => witnesses.map Witness.address = required
  | none => msg.gasFrom ∈ witnesses.map Witness.address

theorem requiredWitnesses_eq (msg : TxMsg) :
    requiredWitnesses msg = msg.layout.required msg.gasFrom msg.msg.fromAddress := by
  rw [requiredWitnesses, layout]
  cases msg.txType <;> rfl

theorem admits_iff (msg : TxMsg) (witnesses : List Witness) :
    msg.Admits witnesses ↔ msg.layout.Admits msg.gasFrom msg.msg.fromAddress witnesses := by
  rw [Admits, Layout.Admits, requiredWitnesses_eq]

end TxMsg

namespace SignedTxMsg

theorem writeWitnesses_eq (v : SignedTxMsg) : v.writeWitnesses =
    v.msg.layout.write v.msg.gasFrom v.msg.msg.fromAddress v.witnesses := by
  rw [writeWitnesses, TxMsg.layout]
  cases v.msg.txType <;> rfl

theorem readWitnesses_eq (msg : TxMsg) :
    readWitnesses msg = msg.layout.read msg.gasFrom msg.msg.fromAddress := by
  rw [readWitnesses, TxMsg.layout]
  cases msg.txType <;> rfl

theorem writeCarbon_eq_ok {v : SignedTxMsg} {enc : Bytes} : writeCarbon v = .ok enc ↔
    ∃ msg witnesses, writeCarbon v.msg = .ok msg ∧
      v.msg.layout.write v.msg.gasFrom v.msg.msg.fromAddress v.witnesses = .ok witnesses ∧
        msg ++ witnesses = enc := by
  rw [← writeWitnesses_eq]
  change ((writeCarbon v.msg >>= _) = _) ↔ _
  rw [bind_eq_ok]
  constructor
  · rintro ⟨msg, hmsg, h⟩
    obtain ⟨witnesses, hwitnesses, h⟩ := bind_eq_ok.1 h
    exact ⟨msg, witnesses, hmsg, hwitnesses, Except.ok.inj h⟩
  · rintro ⟨msg, witnesses, hmsg, hwitnesses, rfl⟩
    exact ⟨msg, hmsg, bind_eq_ok.2 ⟨witnesses, hwitnesses, rfl⟩⟩

/-! ## The envelope of a message that serializes -/

variable {msg : TxMsg} {enc : Bytes} {witnesses : List Witness}

/-- An envelope serializes iff its witnesses are such as the message goes with. -/
theorem exists_writeCarbon_iff (hmsg : writeCarbon msg = .ok enc)
    (hl : msg.layout = .array → witnesses.length < 2 ^ 32) :
    (∃ env, writeCarbon (⟨msg, witnesses⟩ : SignedTxMsg) = .ok env) ↔ msg.Admits witnesses := by
  rw [TxMsg.admits_iff, ← Layout.exists_write_iff msg.layout hl]
  simp only [writeCarbon_eq_ok]
  constructor
  · rintro ⟨_, _, w, _, hw, _⟩
    exact ⟨w, hw⟩
  · rintro ⟨w, hw⟩
    exact ⟨_, enc, w, hmsg, hw, rfl⟩

/-- The size of an envelope is that of its message and its witnesses'. -/
theorem length_writeCarbon {env : Bytes} (hmsg : writeCarbon msg = .ok enc)
    (henv : writeCarbon (⟨msg, witnesses⟩ : SignedTxMsg) = .ok env) :
    env.length = enc.length + msg.layout.size witnesses.length := by
  obtain ⟨_, w, hmsg', hw, rfl⟩ := writeCarbon_eq_ok.1 henv
  obtain rfl := Except.ok.inj (hmsg.symm.trans hmsg')
  rw [List.length_append, Layout.length_write hw]

/-- The envelope of a message that is read back is read back. -/
theorem reads_readCarbon (ht : msg.Typed) (hv : msg.msg.Fits) (hl : witnesses.length < 2 ^ 31)
    {env : Bytes} (henv : writeCarbon (⟨msg, witnesses⟩ : SignedTxMsg) = .ok env) :
    (readCarbon : Reader SignedTxMsg).Reads env ⟨msg, witnesses⟩ := by
  obtain ⟨_, w, hmsg, hw, rfl⟩ := writeCarbon_eq_ok.1 henv
  refine (TxMsg.reads_readCarbon ht hv hmsg).bind ?_
  rw [readWitnesses_eq]
  exact (Layout.reads_read hl hw).map (SignedTxMsg.mk msg)

/-- An envelope that is read has the type of its payload, and fits. It is written
    again if the account paying the gas is among its witnesses, or its type fixes
    them: as it was read, if there is no amount in it. -/
theorem yields_readCarbon : (readCarbon : Reader SignedTxMsg).Yields fun v used =>
    v.msg.Typed ∧ v.msg.msg.Fits ∧ v.witnesses.length < 2 ^ 31 ∧
      (∃ enc, writeCarbon v.msg = .ok enc) ∧
        (requiredWitnesses v.msg ≠ none → v.msg.Admits v.witnesses) ∧
          (v.msg.Admits v.witnesses →
            ∃ env, writeCarbon v = .ok env ∧ (v.msg.msg.NoIntX → env = used)) := by
  change Decoder.Yields (readCarbon >>= _) _
  refine TxMsg.yields_readCarbon.bind fun msg used hm => ?_
  rw [readWitnesses_eq]
  refine (Layout.yields_read msg.layout).bind fun witnesses used' hw => yields_pure ?_
  obtain ⟨ht, hv, enc, henc, hexact⟩ := hm
  obtain ⟨hl, hfixed, hwrite⟩ := hw
  refine ⟨ht, hv, hl, ⟨enc, henc⟩, fun hr => (TxMsg.admits_iff _ _).2 (hfixed fun ha => hr ?_),
    fun ha => ?_⟩
  · rw [TxMsg.requiredWitnesses_eq]
    simp only [ha]
    rfl
  · refine ⟨enc ++ used', writeCarbon_eq_ok.2 ⟨enc, used', henc, hwrite ((TxMsg.admits_iff _ _).1 ha),
      rfl⟩, fun hno => ?_⟩
    rw [hexact hno, List.append_nil]

/-! ## The size that is predicted -/

/-- How many witnesses an envelope is sized with. -/
def sizedWitnesses (msg : TxMsg) (witnessCount : Option UInt32) : ℕ :=
  match requiredWitnesses msg with
  | some required => required.length
  | none => (witnessCount.getD 1).toNat

theorem length_of_placeholderAddresses {count : Option UInt32} {addresses : List Bytes32}
    (h : placeholderAddresses msg count = .ok addresses) :
    addresses.length = sizedWitnesses msg count ∧
      msg.Admits (addresses.map placeholder) := by
  have hmap : ∀ addresses : List Bytes32,
      (addresses.map placeholder).map Witness.address = addresses := fun addresses => by
    simp [placeholder, Function.comp_def]
  rw [placeholderAddresses] at h
  rw [sizedWitnesses, TxMsg.Admits, hmap]
  cases hr : requiredWitnesses msg with
  | some required =>
    simp only [hr] at h
    obtain rfl : required = addresses := by
      cases count with
      | none => exact Except.ok.inj h
      | some count =>
        simp only at h
        split at h
        next => cases h
        next => exact Except.ok.inj h
    exact ⟨rfl, rfl⟩
  | none =>
    simp only [hr] at h
    split at h
    next => cases h
    next h0 =>
      obtain rfl := Except.ok.inj h
      have hpos : (count.getD 1).toNat ≠ 0 := fun hz => h0 (UInt32.toNat_inj.1 hz)
      exact ⟨by rw [List.length_cons, List.length_replicate]; simp only; omega,
        List.mem_cons_self⟩

/-- The predicted size is that of the message and of as many witnesses as it is sized
    with. -/
theorem toNat_envelopeBytes {count : Option UInt32} {size : UInt32}
    (hmsg : writeCarbon msg = .ok enc) (h : envelopeBytes msg count = .ok size) :
    size.toNat = enc.length + msg.layout.size (sizedWitnesses msg count) := by
  obtain ⟨addresses, haddresses, h⟩ := bind_eq_ok.1 h
  obtain ⟨encoded, hencoded, h⟩ := bind_eq_ok.1 h
  split at h
  next hlt =>
    rw [← Except.ok.inj h, UInt32.toNat_ofNat_of_lt' hlt, length_writeCarbon hmsg hencoded,
      List.length_map, (length_of_placeholderAddresses haddresses).1]
  next => cases h

/-- A size is predicted only of a message that serializes. -/
theorem exists_writeCarbon_of_envelopeBytes {count : Option UInt32} {size : UInt32}
    (h : envelopeBytes msg count = .ok size) : ∃ enc, writeCarbon msg = .ok enc := by
  obtain ⟨addresses, _, h⟩ := bind_eq_ok.1 h
  obtain ⟨encoded, hencoded, _⟩ := bind_eq_ok.1 h
  obtain ⟨enc, _, henc, _⟩ := writeCarbon_eq_ok.1 hencoded
  exact ⟨enc, henc⟩

theorem placeholderAddresses_of_admits (hl : witnesses.length < 2 ^ 31)
    (ha : msg.Admits witnesses) :
    ∃ addresses, placeholderAddresses msg (some (UInt32.ofNat witnesses.length)) = .ok addresses ∧
      addresses.length = witnesses.length := by
  have hcount : (UInt32.ofNat witnesses.length).toNat = witnesses.length :=
    UInt32.toNat_ofNat_of_lt' (hl.trans (by decide))
  rw [TxMsg.Admits] at ha
  rw [placeholderAddresses]
  cases hr : requiredWitnesses msg with
  | some required =>
    rw [hr] at ha
    have hlen : witnesses.length = required.length := by simpa using congrArg List.length ha
    simp only
    rw [if_neg (by rw [hcount]; exact not_not.2 hlen)]
    exact ⟨required, rfl, hlen.symm⟩
  | none =>
    rw [hr] at ha
    have hpos : 0 < witnesses.length := by
      cases witnesses with
      | nil => simp at ha
      | cons w ws => simp
    have h0 : UInt32.ofNat witnesses.length ≠ 0 := fun hz => by
      have := congrArg UInt32.toNat hz
      rw [hcount] at this
      exact hpos.ne' this
    simp only [Option.getD_some]
    rw [if_neg h0]
    exact ⟨_, rfl, by rw [List.length_cons, List.length_replicate, hcount]; omega⟩

/-- The predicted size for as many witnesses as an envelope has is the envelope's. -/
theorem envelopeBytes_length (hmsg : writeCarbon msg = .ok enc) (hl : witnesses.length < 2 ^ 31)
    {env : Bytes} (henv : writeCarbon (⟨msg, witnesses⟩ : SignedTxMsg) = .ok env)
    (hsize : env.length < 2 ^ 32) :
    envelopeBytes msg (some (UInt32.ofNat witnesses.length)) = .ok (UInt32.ofNat env.length) := by
  have ha := (exists_writeCarbon_iff hmsg fun _ => by omega).1 ⟨env, henv⟩
  obtain ⟨addresses, haddresses, hlen⟩ := placeholderAddresses_of_admits hl ha
  have hl' : (addresses.map placeholder).length < 2 ^ 31 := by rwa [List.length_map, hlen]
  obtain ⟨encoded, hencoded⟩ :=
    (exists_writeCarbon_iff hmsg fun _ => by omega).2 (length_of_placeholderAddresses haddresses).2
  have hlength : encoded.length = env.length := by
    rw [length_writeCarbon hmsg hencoded, length_writeCarbon hmsg henv, List.length_map, hlen]
  rw [envelopeBytes, haddresses, ok_bind, serialize, hencoded, ok_bind, if_pos (hlength ▸ hsize),
    hlength]
  rfl

/-! ## What the reader does not look at -/

/-- An array without the account paying the gas is refused, once its message is written. -/
theorem writeCarbon_of_not_admits {v : SignedTxMsg} (hmsg : writeCarbon v.msg = .ok enc)
    (hr : requiredWitnesses v.msg = none)
    (hnot : v.msg.gasFrom ∉ v.witnesses.map Witness.address) :
    writeCarbon v = serialization "the gas payer must be one of the witnesses" := by
  have hany : ¬v.witnesses.any (·.address = v.msg.gasFrom) := by simpa using hnot
  have hwitnesses : v.writeWitnesses =
      serialization "the gas payer must be one of the witnesses" := by
    rw [requiredWitnesses] at hr
    rw [writeWitnesses]
    -- A type that fixes its witnesses contradicts `hr`.
    cases htype : v.msg.txType <;> simp only [htype, reduceCtorEq] at hr ⊢ <;> rw [if_pos hany]
  change (writeCarbon v.msg >>= _) = _
  rw [hmsg, ok_bind, hwitnesses]
  rfl

/-- Whether the account paying the gas is among the witnesses is the one thing the
    reader does not look at and the writer does: what is read serializes if it is,
    or the type fixes the witnesses, and is then read again, off the same bytes if
    there is no amount in it; and it is refused for just that otherwise. -/
theorem serialize_deserialize_iff (data : Bytes) (v : SignedTxMsg)
    (h : deserialize SignedTxMsg data = .ok v) :
    ((∃ env, serialize v = .ok env ∧ deserialize SignedTxMsg env = .ok v ∧
      (v.msg.msg.NoIntX → env = data)) ↔
        (requiredWitnesses v.msg ≠ none ∨ v.msg.gasFrom ∈ v.witnesses.map Witness.address)) ∧
      (¬(requiredWitnesses v.msg ≠ none ∨ v.msg.gasFrom ∈ v.witnesses.map Witness.address) →
        serialize v = serialization "the gas payer must be one of the witnesses") := by
  obtain ⟨used, hused, ht, hv, hl, ⟨enc, henc⟩, hfixed, hwrite⟩ :=
    yields_readCarbon _ _ _ (deserialize_eq_ok.1 h)
  rw [List.append_nil] at hused
  subst hused
  have hadmits : v.msg.Admits v.witnesses ↔
      requiredWitnesses v.msg ≠ none ∨ v.msg.gasFrom ∈ v.witnesses.map Witness.address := by
    rw [TxMsg.Admits] at hfixed ⊢
    cases hr : requiredWitnesses v.msg with
    | none => simp
    | some required => simpa [hr] using hfixed
  refine ⟨?_, fun hnot => ?_⟩
  · rw [← hadmits]
    constructor
    · rintro ⟨env, henv, -, -⟩
      exact (exists_writeCarbon_iff henc fun _ => by omega).1 ⟨env, henv⟩
    · intro ha
      obtain ⟨env, henv, hexact⟩ := hwrite ha
      exact ⟨env, henv, deserialize_eq_ok.2 (reads_readCarbon ht hv hl henv).run_self, hexact⟩
  · obtain ⟨hr, hmem⟩ := not_or.1 hnot
    exact writeCarbon_of_not_admits henc (not_not.1 hr) hmem

/-- A call without witnesses, all of its bytes zero, is read, and refused by the
    writer. -/
theorem not_serialize_deserialize : ¬∀ (data : Bytes) (v : SignedTxMsg),
    deserialize SignedTxMsg data = .ok v →
      ∃ env, serialize v = .ok env ∧ deserialize SignedTxMsg env = .ok v ∧
        (v.msg.msg.NoIntX → env = data) := by
  intro h
  let v : SignedTxMsg :=
    { msg :=
        { txType := .call, expiry := 0, maxGas := 0, maxData := 0, gasFrom := emptyBytes32,
          payload := ⟨""⟩,
          msg := .call { moduleId := 0, methodId := 0, args := [], sections := none } }
      witnesses := [] }
  obtain ⟨env, henv, -⟩ := h (List.replicate 74 0) v (by decide +kernel)
  have hrefused : serialize v =
      serialization "the gas payer must be one of the witnesses" := by decide +kernel
  rw [hrefused] at henv
  cases henv

/-- A witness all of whose bytes are alike. -/
def toyWitness (byte : UInt8) : Witness where
  address := ⟨List.replicate 32 byte, List.length_replicate⟩
  signature := ⟨List.replicate 64 byte, List.length_replicate⟩

/-- A call with a text, an argument of three bytes and its gas paid by the first toy
    witness. -/
def toyCall : TxMsg where
  txType := .call
  expiry := 5
  maxGas := 6
  maxData := 7
  gasFrom := (toyWitness 1).address
  payload := ⟨"memo"⟩
  msg := .call { moduleId := 8, methodId := 9, args := [1, 2, 3], sections := none }

/-- The bytes of the toy call. -/
def toyCallBytes : Bytes :=
  [0] ++ [5, 0, 0, 0, 0, 0, 0, 0] ++ [6, 0, 0, 0, 0, 0, 0, 0] ++ [7, 0, 0, 0, 0, 0, 0, 0] ++
    List.replicate 32 1 ++ [4, 109, 101, 109, 111] ++
    [8, 0, 0, 0, 9, 0, 0, 0, 3, 0, 0, 0, 1, 2, 3]

/-- With the second witness and the first, a toy call is written as it was read, in 273
    bytes; with the second witness alone, it is refused. -/
theorem serialize_deserialize_toyCall :
    (∃ env, env.length = 273 ∧
      serialize (⟨toyCall, [toyWitness 2, toyWitness 1]⟩ : SignedTxMsg) = .ok env ∧
      deserialize SignedTxMsg env = .ok ⟨toyCall, [toyWitness 2, toyWitness 1]⟩ ∧
      env = toyCallBytes ++ [2, 0, 0, 0] ++ List.replicate 96 2 ++ List.replicate 96 1) ∧
    serialize (⟨toyCall, [toyWitness 2]⟩ : SignedTxMsg) =
      serialization "the gas payer must be one of the witnesses" := by
  constructor
  · have hread : deserialize SignedTxMsg
        (toyCallBytes ++ [2, 0, 0, 0] ++ List.replicate 96 2 ++ List.replicate 96 1) =
          .ok ⟨toyCall, [toyWitness 2, toyWitness 1]⟩ := by decide +kernel
    obtain ⟨env, henv, hback, hexact⟩ :=
      (serialize_deserialize_iff _ _ hread).1.2 (.inr (by decide))
    obtain rfl := hexact trivial
    exact ⟨_, by decide +kernel, henv, hback, rfl⟩
  · have hread : deserialize SignedTxMsg
        (toyCallBytes ++ [1, 0, 0, 0] ++ List.replicate 96 2) =
          .ok ⟨toyCall, [toyWitness 2]⟩ := by decide +kernel
    refine (serialize_deserialize_iff _ _ hread).2 fun h => ?_
    rcases h with h | h
    · exact h (by decide)
    · exact absurd h (by decide)

end SignedTxMsg

end PhantasmaSdk
