import PhantasmaSdk.Vm.Binary

/-!
# VM transactions

A transaction is written with its signatures, to be sent, or without them, to be
signed. What is sent is read back, if nothing in it is longer than a reader takes;
what is signed is signed of one transaction only, however long it is
(`Transaction.fromBytes_toBytes_and_signing_injective`).
-/

namespace PhantasmaSdk.Vm

open Codec Codec.Decoder CarbonReader BinaryWriter BinaryReader

/-! ## Signatures -/

inductive SignatureKind
  | none
  | ed25519
  | ecdsa
  | ring
  deriving DecidableEq, Repr

def SignatureKind.code : SignatureKind → UInt8
  | none => 0
  | ed25519 => 1
  | ecdsa => 2
  | ring => 3

structure Ed25519Signature where
  data : Bytes64
  deriving DecidableEq, Repr

namespace Ed25519Signature

def kind (_ : Ed25519Signature) : SignatureKind := .ed25519

def tryFromSlice (data : Bytes) : Result Ed25519Signature :=
  if h : data.length = 64 then pure ⟨⟨data, h⟩⟩
  else crypto s!"signature length must be 64, got {data.length}"

def write (signature : Ed25519Signature) : Bytes :=
  writeU8 signature.kind.code ++ writeVarBytes signature.data.bytes

def read : Reader Ed25519Signature := do
  let kind ← readU8
  if kind ≠ SignatureKind.ed25519.code then refuse s!"unsupported signature kind: {kind}"
  else do
    let data ← readVarBytes maxArraySize
    lift (tryFromSlice data)

theorem tryFromSlice_data (signature : Ed25519Signature) :
    tryFromSlice signature.data.bytes = .ok signature := dif_pos signature.data.length_eq

theorem reads_read (signature : Ed25519Signature) : read.Reads signature.write signature := by
  have hlen := signature.data.length_eq
  refine (reads_readU8 _).bind ?_
  rw [show signature.kind.code = SignatureKind.ed25519.code from rfl, if_neg (not_not.2 rfl)]
  refine ((reads_readVarBytes ?_ ?_).bind
    (reads_lift (tryFromSlice_data signature))).congr (List.append_nil _).symm rfl
  · rw [hlen]
    decide
  · rw [hlen]
    decide

end Ed25519Signature

/-! ## Transactions -/

/-- What a transaction is made of is held in memory. -/
structure Transaction where
  nexusName : String
  chainName : String
  script : Bytes
  expiration : UInt32
  payload : Bytes
  signatures : List Ed25519Signature
  inMemory : (utf8 nexusName).length < maxVecLength ∧ (utf8 chainName).length < maxVecLength ∧
    script.length < maxVecLength ∧ payload.length < maxVecLength ∧
    signatures.length < maxVecLength
  deriving DecidableEq

namespace Transaction

def toBytes (tx : Transaction) (withSignatures : Bool) : Bytes :=
  writeString tx.nexusName ++ writeString tx.chainName ++ writeVarBytes tx.script ++
    writeU32LE tx.expiration ++ writeVarBytes tx.payload ++
    if withSignatures then
      writeVarUint (UInt64.ofNat tx.signatures.length) ++
        (tx.signatures.map Ed25519Signature.write).flatten
    else []

def read : Reader Transaction := do
  let nexusName ← readString
  let chainName ← readString
  let script ← readVarBytes maxArraySize
  let expiration ← readU32LE
  let payload ← readVarBytes maxArraySize
  let count ← readVarUint
  let signatures ← Ed25519Signature.read.replicate count.toNat
  if inMemory : _ then
    pure { nexusName, chainName, script, expiration, payload, signatures, inMemory }
  -- A vector that grows beyond what it can hold panics.
  else fail (.panic (.expect "capacity overflow"))

def fromBytes (data : Bytes) : Result Transaction := readAll read data

/-- A transaction is read back, if none of its parts is longer than a reader takes. -/
theorem reads_read {tx : Transaction} (hnexus : (utf8 tx.nexusName).length ≤ maxArraySize)
    (hchain : (utf8 tx.chainName).length ≤ maxArraySize) (hscript : tx.script.length ≤ maxArraySize)
    (hpayload : tx.payload.length ≤ maxArraySize) : read.Reads (tx.toBytes true) tx := by
  have hmax : maxArraySize < 2 ^ 64 := by decide
  have hcount : (UInt64.ofNat tx.signatures.length).toNat = tx.signatures.length :=
    UInt64.toNat_ofNat_of_lt' (tx.inMemory.2.2.2.2.trans (by decide))
  have hall : List.Forall₂ Ed25519Signature.read.Reads (tx.signatures.map Ed25519Signature.write)
      tx.signatures := by
    rw [List.forall₂_map_left_iff, List.forall₂_same]
    exact fun signature _ => signature.reads_read
  have hsignatures := reads_replicate hall
  rw [toBytes, if_pos rfl]
  simp only [List.append_assoc]
  refine (reads_readString hnexus).bind <| (reads_readString hchain).bind <|
    (reads_readVarBytes hscript (hscript.trans_lt hmax)).bind <|
    (reads_readU32LE tx.expiration).bind <|
    (reads_readVarBytes hpayload (hpayload.trans_lt hmax)).bind <|
    (reads_readVarUint _).bind ?_
  rw [hcount]
  refine (hsignatures.bind (t := []) ?_).congr (List.append_nil _).symm rfl
  rw [dif_pos tx.inMemory]
  exact reads_pure tx

/-- A transaction of parts that a reader takes is read back as it was sent, and no two
    transactions have the same bytes to sign, however long they are. -/
theorem fromBytes_toBytes_and_signing_injective :
    (∀ tx : Transaction, (utf8 tx.nexusName).length ≤ maxArraySize →
      (utf8 tx.chainName).length ≤ maxArraySize → tx.script.length ≤ maxArraySize →
      tx.payload.length ≤ maxArraySize → fromBytes (tx.toBytes true) = .ok tx) ∧
    ∀ t₁ t₂ : Transaction, t₁.toBytes false = t₂.toBytes false →
      t₁.nexusName = t₂.nexusName ∧ t₁.chainName = t₂.chainName ∧ t₁.script = t₂.script ∧
        t₁.expiration = t₂.expiration ∧ t₁.payload = t₂.payload := by
  refine ⟨fun tx hnexus hchain hscript hpayload =>
    readAll_eq_ok.2 (reads_read hnexus hchain hscript hpayload).run_self, fun t₁ t₂ h => ?_⟩
  have hmax : maxVecLength < 2 ^ 64 := by decide
  obtain ⟨hnexus₁, hchain₁, hscript₁, hpayload₁, -⟩ := t₁.inMemory
  obtain ⟨hnexus₂, hchain₂, hscript₂, hpayload₂, -⟩ := t₂.inMemory
  simp only [toBytes, Bool.false_eq_true, if_false, List.append_assoc] at h
  -- Each part tells where it ends, so that what follows it is the same again.
  obtain ⟨hnexus, h⟩ := writeVarBytes_append_inj (hnexus₁.trans hmax) (hnexus₂.trans hmax) h
  obtain ⟨hchain, h⟩ := writeVarBytes_append_inj (hchain₁.trans hmax) (hchain₂.trans hmax) h
  obtain ⟨hscript, h⟩ := writeVarBytes_append_inj (hscript₁.trans hmax) (hscript₂.trans hmax) h
  obtain ⟨hexpiration, h⟩ :=
    (reads_readU32LE t₁.expiration).append_inj (reads_readU32LE t₂.expiration) h
  obtain ⟨hpayload, -⟩ :=
    writeVarBytes_append_inj (hpayload₁.trans hmax) (hpayload₂.trans hmax) h
  exact ⟨utf8_injective hnexus, utf8_injective hchain, hscript, hexpiration, hpayload⟩

/-- A transaction with a signature. -/
def signedExample : Transaction where
  nexusName := "mainnet"
  chainName := "main"
  script := [11]
  expiration := 1754000000
  payload := []
  signatures := [⟨emptyBytes64⟩]
  inMemory := by decide +kernel

theorem fromBytes_toBytes_signedExample :
    fromBytes (signedExample.toBytes true) = .ok signedExample :=
  fromBytes_toBytes_and_signing_injective.1 signedExample (by decide +kernel) (by decide +kernel)
    (by decide +kernel) (by decide +kernel)

end Transaction

end PhantasmaSdk.Vm
