import PhantasmaSdk.Crypto.Keys
import PhantasmaSdk.Machine.Run
import PhantasmaSdk.Vm.Mining

/-!
# Signing transactions

A transaction is given a payload, mined and signed, in any order and any number of
times. What is signed, and hashed, are its bytes without the signatures. So whatever
is done to it, a signature holds, and so does the difficulty it was mined to, as long
as the transaction has the payload it had then, or has it again; otherwise other bytes
were signed (`Transaction.record_of_run`).

Ed25519 is taken from elsewhere, as far as a signature verifies with the public key of
whoever made it (`Ed25519.Lawful`).
-/

namespace PhantasmaSdk

open Vm

/-! ## Signatures -/

namespace Crypto

structure Ed25519 where
  publicKey : Bytes32 → Bytes32
  sign : Bytes32 → Bytes → Bytes64
  /-- The bytes are a public key at all. -/
  isKey : Bytes32 → Bool
  verify : Bytes32 → Bytes → Bytes64 → Bool

structure Ed25519.Lawful (ed : Ed25519) : Prop where
  isKey_publicKey : ∀ privateKey, ed.isKey (ed.publicKey privateKey) = true
  verify_sign : ∀ privateKey message,
    ed.verify (ed.publicKey privateKey) message (ed.sign privateKey message) = true

end Crypto

open Crypto

namespace Vm.Address

/-- The address of a user, of a public key as it is, with a byte before it or as the first
    half of a pair of keys. -/
def fromPublicKey (publicKey : Bytes) : Result Address :=
  if h : publicKey.length = 32 then pure ⟨⟨1 :: 0 :: publicKey, by simp [h]⟩⟩
  else if h : publicKey.length = 33 then pure ⟨⟨1 :: publicKey, by simp [h]⟩⟩
  else if h : publicKey.length = 64 then pure ⟨⟨1 :: 0 :: publicKey.take 32, by simp [h]⟩⟩
  else crypto s!"invalid public key length: {publicKey.length}"

def publicKey (address : Address) : Result Bytes32 :=
  if address.kind ≠ .user then crypto "only user addresses contain an Ed25519 public key"
  else pure ⟨address.data.bytes.drop 2, by simp [address.data.length_eq]⟩

end Vm.Address

section

variable (ed : Ed25519)

/-- One of the addresses is of a user with whose key the signature verifies. -/
def Vm.Ed25519Signature.verify (signature : Ed25519Signature) (message : Bytes)
    (addresses : List Address) : Bool :=
  addresses.any fun address =>
    if address.kind ≠ .user then false
    else
      match address.publicKey with
      | .error _ => false
      | .ok publicKey =>
        if ed.isKey publicKey then ed.verify publicKey message signature.data else false

namespace Crypto.PhantasmaKeys

def publicKey (keys : Crypto.PhantasmaKeys) : Bytes32 := ed.publicKey keys.privateKey

def address (keys : Crypto.PhantasmaKeys) : Result Address :=
  match Address.fromPublicKey (keys.publicKey ed).bytes with
  | .ok address => .ok address
  | .error _ => .error (.panic (.expect "derived Ed25519 public key is valid"))

def sign (keys : Crypto.PhantasmaKeys) (message : Bytes) : Ed25519Signature :=
  ⟨ed.sign keys.privateKey message⟩

variable {ed}

/-- Keys have an address, which is that of a user and has their public key. -/
theorem exists_address (ed : Ed25519) (keys : Crypto.PhantasmaKeys) : ∃ address,
    keys.address ed = .ok address ∧ address.kind = .user ∧
      address.publicKey = .ok (keys.publicKey ed) := by
  have hlength := (keys.publicKey ed).length_eq
  have hkind : (⟨⟨1 :: 0 :: (keys.publicKey ed).bytes, by simp [hlength]⟩⟩ : Address).kind =
      .user := by
    refine (if_neg fun h => ?_).trans rfl
    have hhead : (1 : UInt8) = 0 :=
      congrArg (fun address : Address => address.data.bytes.headD 0) h
    exact absurd hhead (by decide)
  refine ⟨⟨⟨1 :: 0 :: (keys.publicKey ed).bytes, by simp [hlength]⟩⟩, ?_, hkind, ?_⟩
  · rw [address, Address.fromPublicKey, dif_pos hlength]
    rfl
  · rw [Address.publicKey, if_neg (not_not.2 hkind)]
    rfl

/-- What keys have signed verifies with their address. -/
theorem verify_sign (hed : ed.Lawful) {keys : Crypto.PhantasmaKeys} {address : Address}
    (haddress : keys.address ed = .ok address) (message : Bytes) :
    (keys.sign ed message).verify ed message [address] = true := by
  obtain ⟨address', haddress', hkind, hkey⟩ := keys.exists_address ed
  obtain rfl := Except.ok.inj (haddress.symm.trans haddress')
  rw [Ed25519Signature.verify, List.any_cons, if_neg (not_not.2 hkind), hkey]
  simp only [publicKey, hed.isKey_publicKey, if_true, sign, hed.verify_sign, Bool.true_or]

end Crypto.PhantasmaKeys

end

namespace Vm.Transaction

open Machine BinaryWriter

/-! ## What is done to a transaction -/

/-- What a new transaction has as its payload. -/
def sdkPayload : Bytes := utf8 "RS-SDK-v3.0.2"

/-- A transaction without signatures. -/
def new (nexusName chainName : String) (script : Bytes) (expiration : UInt32)
    (h : (utf8 nexusName).length < maxVecLength ∧ (utf8 chainName).length < maxVecLength ∧
      script.length < maxVecLength) : Transaction where
  nexusName
  chainName
  script
  expiration
  payload := sdkPayload
  signatures := []
  inMemory := ⟨h.1, h.2.1, h.2.2, by decide +kernel, by decide⟩

/-- (The payload is held in memory, too.) -/
def withPayload (tx : Transaction) (payload : Bytes) : Option Transaction :=
  if h : payload.length < maxVecLength then
    some { tx with
      payload
      inMemory := ⟨tx.inMemory.1, tx.inMemory.2.1, tx.inMemory.2.2.1, h, tx.inMemory.2.2.2.2⟩ }
  else none

section

variable (ed : Ed25519)

/-- The transaction with one signature more. (A vector of as many as it holds would panic.) -/
def sign (tx : Transaction) (keys : Crypto.PhantasmaKeys) : Option Transaction :=
  let signatures := tx.signatures ++ [keys.sign ed (tx.toBytes false)]
  if h : signatures.length < maxVecLength then
    some { tx with
      signatures
      inMemory := ⟨tx.inMemory.1, tx.inMemory.2.1, tx.inMemory.2.2.1, tx.inMemory.2.2.2.1, h⟩ }
  else none

def isSignedBy (tx : Transaction) (keys : Crypto.PhantasmaKeys) : Result Bool := do
  let address ← keys.address ed
  pure (tx.signatures.any fun signature => signature.verify ed (tx.toBytes false) [address])

end

/-- What is done to a transaction, mining being over after some number of tests. -/
inductive Op
  | withPayload (payload : Bytes)
  | sign (keys : Crypto.PhantasmaKeys)
  | mine (difficulty : UInt32) (fuel : ℕ)

variable (sha256 : Bytes → Hash) (ed : Ed25519)

def step (tx : Transaction) : Op → Option Transaction
  | .withPayload payload => tx.withPayload payload
  | .sign keys => tx.sign ed keys
  | .mine difficulty fuel => tx.mine sha256 difficulty fuel

/-! ## What was done to it -/

/-- What is on record of a step, with the payload it was about. -/
inductive Mark
  | signed (keys : Crypto.PhantasmaKeys) (payload : Bytes)
  | mined (difficulty : UInt32) (payload : Bytes)
  deriving DecidableEq

def Mark.payload : Mark → Bytes
  | signed _ payload | mined _ payload => payload

/-- The record of a step that leads from one transaction to another. -/
def marksOf (tx tx' : Transaction) : Op → List Mark
  | .withPayload _ => []
  | .sign keys => [.signed keys tx.payload]
  | .mine difficulty _ => [.mined difficulty tx'.payload]

def marks : Transaction → List Op → List Mark
  | _, [] => []
  | tx, op :: ops =>
    match tx.step sha256 ed op with
    | none => []
    | some tx' => marksOf tx tx' op ++ marks tx' ops

/-- The bytes of a transaction to sign, if it had the payload. -/
def signedBytes (tx : Transaction) (payload : Bytes) : Bytes :=
  writeString tx.nexusName ++ writeString tx.chainName ++ writeVarBytes tx.script ++
    writeU32LE tx.expiration ++ writeVarBytes payload

/-- The transaction is signed by the keys, or as difficult as it was mined. -/
def Mark.Holds (tx : Transaction) : Mark → Prop
  | signed keys _ => tx.isSignedBy ed keys = .ok true
  | mined difficulty _ => difficulty.toNat ≤ (tx.hash sha256).difficulty

/-- The signature that is on record. -/
def Mark.signature? (tx : Transaction) : Mark → Option Ed25519Signature
  | signed keys payload => some (keys.sign ed (tx.signedBytes payload))
  | mined _ _ => none

/-- What is on record since a transaction was the old one is so: its signatures are those of
    the old one and those on record, in order, and it was mined as it says. -/
structure Record (old tx : Transaction) (marks : List Mark) : Prop where
  unchanged : tx.nexusName = old.nexusName ∧ tx.chainName = old.chainName ∧
    tx.script = old.script ∧ tx.expiration = old.expiration
  signatures : tx.signatures = old.signatures ++ marks.filterMap (Mark.signature? ed old)
  mined : ∀ difficulty payload, .mined difficulty payload ∈ marks →
    difficulty.toNat ≤ (sha256 (old.signedBytes payload)).difficulty
  inMemory : ∀ mark ∈ marks, mark.payload.length < maxVecLength

variable {sha256 ed} {tx tx' old : Transaction} {op : Op} {marks' : List Mark}

theorem toBytes_false (tx : Transaction) : tx.toBytes false = tx.signedBytes tx.payload := by
  rw [toBytes, if_neg (by decide), List.append_nil, signedBytes]

/-- Bytes to sign tell the payload. -/
theorem signedBytes_injective (tx : Transaction) {payload payload' : Bytes}
    (h : payload.length < 2 ^ 64) (h' : payload'.length < 2 ^ 64)
    (heq : tx.signedBytes payload = tx.signedBytes payload') : payload = payload' := by
  rw [signedBytes, signedBytes] at heq
  have hbytes := List.append_cancel_left heq
  exact (writeVarBytes_append_inj h h' (congrArg (· ++ []) hbytes)).1

/-- Mining that ends gives a transaction as difficult as asked for. -/
theorem difficulty_le_of_mine {difficulty : UInt32} {fuel : ℕ}
    (h : tx.mine sha256 difficulty fuel = some tx') :
    difficulty.toNat ≤ (tx'.hash sha256).difficulty ∧ SameButPayload tx tx' := by
  rw [mine] at h
  split at h
  next hzero =>
    obtain rfl := Option.some.inj h
    rw [hzero]
    exact ⟨Nat.zero_le _, rfl, rfl, rfl, rfl, rfl⟩
  next =>
    obtain ⟨s, hs, rfl⟩ := Option.map_eq_some_iff.1 h
    obtain ⟨n, -, rfl, hend, -⟩ := whileLoop_eq_some_iff.1 hs
    exact ⟨mineTest_eq_false.1 hend, sameButPayload_iterate tx n⟩

/-! ## Runs -/

namespace Record

theorem refl (tx : Transaction) : Record sha256 ed tx tx [] where
  unchanged := ⟨rfl, rfl, rfl, rfl⟩
  signatures := (List.append_nil _).symm
  mined := nofun
  inMemory := nofun

theorem signedBytes_eq {marks : List Mark} (h : Record sha256 ed old tx marks) :
    tx.signedBytes = old.signedBytes := by
  funext payload
  obtain ⟨hnexus, hchain, hscript, hexpiration⟩ := h.unchanged
  rw [signedBytes, signedBytes, hnexus, hchain, hscript, hexpiration]

theorem trans {marks : List Mark} (h : Record sha256 ed old tx marks)
    (h' : Record sha256 ed tx tx' marks') : Record sha256 ed old tx' (marks ++ marks') := by
  have hbytes := h.signedBytes_eq
  have hsignature : Mark.signature? ed tx = Mark.signature? ed old := by
    funext mark
    cases mark with
    | signed keys payload => rw [Mark.signature?, Mark.signature?, hbytes]
    | mined => rfl
  obtain ⟨hnexus, hchain, hscript, hexpiration⟩ := h.unchanged
  obtain ⟨hnexus', hchain', hscript', hexpiration'⟩ := h'.unchanged
  refine ⟨⟨hnexus'.trans hnexus, hchain'.trans hchain, hscript'.trans hscript,
    hexpiration'.trans hexpiration⟩, ?_, fun difficulty payload hmem => ?_, fun mark hmem => ?_⟩
  · rw [h'.signatures, h.signatures, hsignature, List.filterMap_append, List.append_assoc]
  · rcases List.mem_append.1 hmem with hmem | hmem
    · exact h.mined difficulty payload hmem
    · exact hbytes ▸ h'.mined difficulty payload hmem
  · rcases List.mem_append.1 hmem with hmem | hmem
    · exact h.inMemory mark hmem
    · exact h'.inMemory mark hmem

/-- A step is as it is recorded. -/
theorem of_step (h : tx.step sha256 ed op = some tx') :
    Record sha256 ed tx tx' (marksOf tx tx' op) := by
  cases op with
  | withPayload payload =>
    simp only [step, withPayload] at h
    split at h
    next =>
      obtain rfl := Option.some.inj h
      exact ⟨⟨rfl, rfl, rfl, rfl⟩, (List.append_nil _).symm, nofun, nofun⟩
    next => cases h
  | sign keys =>
    simp only [step, sign] at h
    split at h
    next =>
      obtain rfl := Option.some.inj h
      refine ⟨⟨rfl, rfl, rfl, rfl⟩, ?_, fun difficulty payload hmem => ?_, fun mark hmem => ?_⟩
      · exact congrArg (fun message => tx.signatures ++ [keys.sign ed message]) tx.toBytes_false
      · cases List.mem_singleton.1 hmem
      · obtain rfl := List.mem_singleton.1 hmem
        exact tx.inMemory.2.2.2.1
    next => cases h
  | mine difficulty fuel =>
    obtain ⟨hhard, hnexus, hchain, hscript, hexpiration, hsignatures⟩ :=
      difficulty_le_of_mine (by exact h)
    have hsame : Record sha256 ed tx tx' [] :=
      ⟨⟨hnexus, hchain, hscript, hexpiration⟩, hsignatures.trans (List.append_nil _).symm, nofun,
        nofun⟩
    refine ⟨hsame.unchanged, hsame.signatures, fun difficulty' payload hmem => ?_,
      fun mark hmem => ?_⟩
    · obtain ⟨rfl, rfl⟩ := Mark.mined.inj (List.mem_singleton.1 hmem)
      rw [← hsame.signedBytes_eq, ← toBytes_false]
      exact hhard
    · obtain rfl := List.mem_singleton.1 hmem
      exact tx'.inMemory.2.2.2.1

/-- So is a run. -/
theorem of_run {ops : List Op} (h : run (step sha256 ed) tx ops = some tx') :
    Record sha256 ed tx tx' (marks sha256 ed tx ops) := by
  induction ops generalizing tx with
  | nil =>
    obtain rfl := Option.some.inj h
    exact refl _
  | cons op ops ih =>
    obtain ⟨mid, hmid, hrest⟩ := Option.bind_eq_some_iff.1 h
    rw [marks, hmid]
    exact (of_step hmid).trans (ih hrest)

/-- What is on record of the payload that a transaction has holds. -/
theorem holds (hed : ed.Lawful) {marks : List Mark} (h : Record sha256 ed old tx marks)
    {mark : Mark} (hmem : mark ∈ marks) (hpayload : mark.payload = tx.payload) :
    mark.Holds sha256 ed tx := by
  have hbytes : tx.toBytes false = old.signedBytes mark.payload := by
    rw [toBytes_false, h.signedBytes_eq, hpayload]
  cases mark with
  | signed keys payload =>
    obtain ⟨address, haddress, -⟩ := keys.exists_address ed
    have hsigned : keys.sign ed (tx.toBytes false) ∈ tx.signatures := by
      rw [h.signatures, hbytes]
      exact List.mem_append_right _ (List.mem_filterMap.2 ⟨_, hmem, rfl⟩)
    have hany : (tx.signatures.any fun signature =>
        signature.verify ed (tx.toBytes false) [address]) = true :=
      List.any_eq_true.2 ⟨_, hsigned, Crypto.PhantasmaKeys.verify_sign hed haddress _⟩
    rw [Mark.Holds, isSignedBy, haddress]
    exact congrArg Except.ok hany
  | mined difficulty payload =>
    rw [Mark.Holds, hash, hbytes]
    exact h.mined difficulty payload hmem

end Record

/-- Whatever is done to a transaction, its signatures are those it had and those on record,
    in order. What is on record of the payload it ends with holds of it, and whoever signed
    with another payload signed other bytes. If a reader takes its parts, it is read so from
    what is sent. -/
theorem record_of_run (hed : ed.Lawful) {ops : List Op}
    (h : run (step sha256 ed) tx ops = some tx') :
    tx'.signatures = tx.signatures ++
      (marks sha256 ed tx ops).filterMap (Mark.signature? ed tx) ∧
    (∀ mark ∈ marks sha256 ed tx ops,
      (mark.payload = tx'.payload → mark.Holds sha256 ed tx') ∧
      (tx.signedBytes mark.payload = tx'.toBytes false → mark.payload = tx'.payload)) ∧
    ((utf8 tx.nexusName).length ≤ maxArraySize → (utf8 tx.chainName).length ≤ maxArraySize →
      tx.script.length ≤ maxArraySize → tx'.payload.length ≤ maxArraySize →
      fromBytes (tx'.toBytes true) = .ok tx') := by
  have hrecord := Record.of_run h
  obtain ⟨hnexus, hchain, hscript, -⟩ := hrecord.unchanged
  refine ⟨hrecord.signatures, fun mark hmem => ⟨hrecord.holds hed hmem, fun heq => ?_⟩,
    fun hn hc hs hp => ?_⟩
  · have hmax : maxVecLength < 2 ^ 64 := by decide
    rw [toBytes_false, hrecord.signedBytes_eq] at heq
    exact signedBytes_injective tx ((hrecord.inMemory mark hmem).trans hmax)
      (tx'.inMemory.2.2.2.1.trans hmax) heq
  · rw [← hnexus] at hn
    rw [← hchain] at hc
    rw [← hscript] at hs
    exact BinaryReader.readAll_eq_ok.2 (reads_read hn hc hs hp).run_self

/-! ## A transaction that tells the time -/

/-- A call of `Runtime.Time`, with the payload of a new transaction. -/
def timeExample : Transaction where
  nexusName := "mainnet"
  chainName := "main"
  script := [13, 0, 4, 12] ++ utf8 "Runtime.Time" ++ [7, 0, 11]
  expiration := 1754000000
  payload := sdkPayload
  signatures := []
  inMemory := by decide +kernel

/-- The SHA-256 hashes of its bytes, with the payload it has and with the first nonces. The
    fourth is the first with a difficulty. -/
def timeHashes : List (Bytes × Bytes) := [
  (sdkPayload,
    [86, 184, 206, 63, 125, 235, 55, 5, 159, 228, 142, 61, 36, 103, 51, 225, 142, 2, 94, 139, 93,
     233, 208, 174, 118, 254, 124, 247, 172, 64, 11, 219]),
  (writeU32LE 1,
    [169, 190, 241, 92, 139, 141, 148, 247, 242, 231, 9, 123, 26, 88, 252, 122, 37, 21, 45, 185, 8,
     75, 218, 111, 34, 66, 217, 42, 112, 109, 108, 217]),
  (writeU32LE 2,
    [21, 41, 159, 233, 87, 185, 199, 77, 167, 57, 144, 29, 12, 83, 180, 189, 126, 189, 33, 138, 159,
     101, 92, 196, 154, 187, 13, 46, 160, 66, 250, 232]),
  (writeU32LE 3,
    [18, 216, 80, 16, 166, 98, 182, 190, 223, 231, 231, 70, 252, 48, 247, 58, 251, 34, 146, 140,
     127, 179, 81, 209, 17, 108, 234, 231, 167, 220, 241, 253]),
  (writeU32LE 4,
    [165, 219, 38, 245, 3, 62, 112, 71, 230, 244, 75, 91, 251, 255, 136, 188, 217, 59, 192, 113, 30,
     169, 115, 148, 124, 36, 35, 143, 199, 189, 215, 104])]

/-- The Ed25519 signatures that the key makes of its bytes. -/
def timeSignatures : List (Bytes × Bytes) := [
  (sdkPayload,
    [235, 47, 12, 185, 226, 197, 217, 206, 2, 116, 25, 224, 208, 241, 110, 221, 193, 152, 218, 118,
     60, 165, 23, 17, 208, 74, 9, 162, 157, 236, 243, 145, 119, 89, 232, 127, 80, 244, 44, 82, 93,
     39, 29, 100, 30, 109, 205, 78, 200, 58, 73, 90, 65, 186, 33, 175, 117, 49, 169, 60, 27, 12,
     193, 10]),
  (writeU32LE 4,
    [164, 24, 59, 62, 88, 42, 182, 98, 231, 164, 48, 150, 104, 108, 7, 131, 132, 53, 72, 193, 141,
     18, 226, 178, 58, 104, 187, 224, 59, 81, 241, 10, 18, 98, 194, 155, 160, 17, 194, 130, 225,
     213, 11, 200, 4, 35, 200, 144, 39, 53, 185, 168, 238, 9, 148, 66, 252, 12, 74, 159, 13, 116,
     51, 8])]

/-- What is listed for the bytes of the transaction with some payload. -/
def timeEntry (n : ℕ) (entries : List (Bytes × Bytes)) (message : Bytes) : FixedBytes n :=
  match entries.find? fun entry => message = timeExample.signedBytes entry.1 with
  | some (_, bytes) => if h : bytes.length = n then ⟨bytes, h⟩ else .zero n
  | none => .zero n

def timeSha256 (message : Bytes) : Hash := ⟨timeEntry 32 timeHashes message⟩

/-- The public key is that of the address of the key. -/
def timeEd25519 : Ed25519 where
  publicKey privateKey :=
    if privateKey = vectorKeys.privateKey then
      ⟨vectorAddress.data.bytes.drop 2, by simp [vectorAddress.data.length_eq]⟩
    else privateKey
  sign _ message := timeEntry 64 timeSignatures message
  isKey _ := true
  verify _ message signature := signature = timeEntry 64 timeSignatures message

theorem lawful_timeEd25519 : timeEd25519.Lawful where
  isKey_publicKey _ := rfl
  verify_sign _ _ := decide_eq_true rfl

/-- The transaction signed, mined, and signed again. -/
def timeOps : List Op := [.sign vectorKeys, .mine 1 5, .sign vectorKeys]

/-- Four nonces are tried. Both signatures are kept, and the second holds of what is read. -/
theorem record_of_run_timed : ∃ tx,
    run (step timeSha256 timeEd25519) timeExample timeOps = some tx ∧
    (tx.payload, tx.signatures.length) = (writeU32LE 4, 2) ∧
    1 ≤ (tx.hash timeSha256).difficulty ∧ tx.isSignedBy timeEd25519 vectorKeys = .ok true ∧
    timeExample.signedBytes sdkPayload ≠ tx.toBytes false ∧
    fromBytes (tx.toBytes true) = .ok tx := by
  obtain ⟨tx, hrun, hparts⟩ := Option.map_eq_some_iff.1 (show
    (run (step timeSha256 timeEd25519) timeExample timeOps).map
      (fun tx => (tx.payload, tx.signatures.length)) = some (writeU32LE 4, 2) by decide +kernel)
  have hmarks : marks timeSha256 timeEd25519 timeExample timeOps =
      [.signed vectorKeys sdkPayload, .mined 1 (writeU32LE 4),
        .signed vectorKeys (writeU32LE 4)] := by
    decide +kernel
  obtain ⟨hpayload, -⟩ := Prod.mk.inj hparts
  obtain ⟨-, hholds, hread⟩ := record_of_run lawful_timeEd25519 hrun
  rw [hmarks, hpayload] at hholds
  simp only [List.forall_mem_cons] at hholds
  obtain ⟨⟨-, hother⟩, ⟨hmined, -⟩, ⟨hsigned, -⟩, -⟩ := hholds
  refine ⟨tx, hrun, hparts, hmined rfl, hsigned rfl, fun heq => ?_, hread (by decide +kernel)
    (by decide +kernel) (by decide +kernel) (by rw [hpayload]; decide)⟩
  exact absurd (hother heq) (by decide +kernel)

end Vm.Transaction

end PhantasmaSdk
