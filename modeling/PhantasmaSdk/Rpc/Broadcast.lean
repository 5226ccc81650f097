import PhantasmaSdk.Carbon.Expiry
import PhantasmaSdk.Carbon.Results
import PhantasmaSdk.Machine.Handler
import PhantasmaSdk.Rpc.Calls
import PhantasmaSdk.Vm.Signing

/-!
# Broadcasting

A transaction is broadcast in one request, as the hexadecimal digits of its bytes, and the
node answers with its hash, or with an object that has the hash and no error. Whoever takes
the digits apart again has the transaction that was signed, and the signature verifies
(`delivers_of_signAndSend`).

Unlike a message, which may fail to be serialized, a transaction of any size is posted. It
is read if no part of it is too long for a reader (`Vm.Transaction.Readable`).
-/

namespace PhantasmaSdk

open Machine Codec.Decoder Carbon
open Serde (Json)
open Crypto (vectorKeys)
open Vm (maxVecLength maxArraySize)
open Vm.BinaryWriter (writeU32LE)

/-- A client that posts requests, and is answered with what the transport returns. -/
abbrev Post (α : Type) : Type := Dialogue Json (fun _ => Result (UInt16 × Json)) (Result α)

/-! ## Sending -/

section

variable (display : Json → String) (requestId : UInt64)

def postValue (method : String) (params : List Json) : Post Json :=
  .ask (jsonRpcRequest requestId method params) fun answer =>
    .done (callValue display answer requestId)

/-- The hash that a value is, or has. An error in it is a failure, whatever else it has. -/
def extractHash (value : Json) : Result String :=
  match value.asStr with
  | some text => pure text
  | none =>
    match value.asObject with
    | none => rpc none "send transaction response does not contain a hash"
    | some object =>
      match object.lookup "error" with
      | some error => rpc none (display error)
      | none =>
        match (object.lookup "hash").bind Json.asStr with
        | some hash => pure hash
        | none => rpc none "send transaction response does not contain a hash"

/-- A request of one parameter that is answered with a hash. -/
def postForHash (method : String) (param : String) : Post String :=
  (postValue display requestId method [.string param]).andThen fun value =>
    .done (extractHash display value)

def sendRawTransaction : String → Post String :=
  postForHash display requestId "sendRawTransaction"

def sendTransaction (tx : Vm.Transaction) : Post String :=
  sendRawTransaction display requestId (hexEncode (tx.toBytes true))

/-- Seconds since the epoch, 45 from now. The sum saturates, and then loses its upper half. -/
def defaultExpirationSeconds (clock : Option Duration) : UInt32 :=
  UInt32.ofNat (min ((clock.getD .zero).nanos / 10 ^ 9 + 45) (2 ^ 64 - 1))

variable (ed : Crypto.Ed25519) (clock : Option Duration)

/-- The transaction with a signature more, and its broadcast. -/
def signAndSendBuiltTransaction (tx : Vm.Transaction) (keys : Crypto.PhantasmaKeys) :
    Option (Vm.Transaction × Post String) :=
  (tx.sign ed keys).map fun signed => (signed, sendTransaction display requestId signed)

/-- (A script and a payload are held in memory.) -/
def signAndSendTransaction (keys : Crypto.PhantasmaKeys) (nexus chain : String)
    (script payload : Bytes) (expiration : Option UInt32)
    (h : (utf8 nexus).length < maxVecLength ∧ (utf8 chain).length < maxVecLength ∧
      script.length < maxVecLength) : Option (Vm.Transaction × Post String) := do
  let expiration := expiration.getD (defaultExpirationSeconds clock)
  let tx ← (Vm.Transaction.new nexus chain script expiration h).withPayload payload
  signAndSendBuiltTransaction display requestId ed tx keys

end

/-! ## What is posted -/

section

variable {display : Json → String} {requestId : UInt64}
  {log : Dialogue.Log fun _ : Json => Result (UInt16 × Json)} {result : Result String}

/-- The value is a hash, or an object that has one. -/
inductive TellsHash (hash : String) : Json → Prop
  | text : TellsHash hash (.string hash)
  | object {members : List (String × Json)} (herror : members.lookup "error" = none)
    (hhash : members.lookup "hash" = some (.string hash)) : TellsHash hash (.object members)

theorem extractHash_eq_ok {value : Json} {hash : String} :
    extractHash display value = .ok hash ↔ TellsHash hash value := by
  constructor
  · intro h
    rcases value with _ | _ | _ | text | _ | members
    case string => exact Except.ok.inj h ▸ .text
    case object =>
      rcases herror : members.lookup "error" with _ | error
      · rcases hhash : (members.lookup "hash").bind Json.asStr with _ | text
        · simp only [extractHash, Json.asStr, Json.asObject, herror, hhash] at h
          cases h
        · simp only [extractHash, Json.asStr, Json.asObject, herror, hhash] at h
          obtain rfl := Except.ok.inj h
          obtain ⟨value, hlookup, hvalue⟩ := Option.bind_eq_some_iff.1 hhash
          rcases value with _ | _ | _ | text' | _ | _
          case string => exact .object herror (Option.some.inj hvalue ▸ hlookup)
          all_goals cases hvalue
      · simp only [extractHash, Json.asStr, Json.asObject, herror] at h
        cases h
    all_goals cases h
  · rintro (_ | ⟨herror, hhash⟩)
    · rfl
    · simp only [extractHash, Json.asStr, Json.asObject, herror, hhash, Option.bind_some]
      rfl

/-- The bytes are posted in digits, once. A hash is returned iff the answer is the response to
    this request, and tells the hash. -/
def PostsOnce (refusal : Bytes → String) (requestId : UInt64) (method : String) (raw : Bytes)
    (log : Dialogue.Log fun _ : Json => Result (UInt16 × Json)) (result : Result String) : Prop :=
  ∃ param answer, log = [⟨jsonRpcRequest requestId method [.string param], answer⟩] ∧
    decodeHex refusal param = .ok raw ∧
    ∀ hash, result = .ok hash ↔ ∃ status object value, answer = .ok (status, .object object) ∧
      Answers requestId status object value ∧ TellsHash hash value

theorem ends_postValue {method : String} {params : List Json} {value : Result Json} :
    (postValue display requestId method params).Ends log value ↔ ∃ answer,
      log = [⟨jsonRpcRequest requestId method params, answer⟩] ∧
        callValue display answer requestId = value := by
  constructor
  · intro h
    rcases log with _ | ⟨e, log⟩
    · cases h
    obtain ⟨answer, rfl, h⟩ := h
    obtain ⟨rfl, hvalue⟩ := Dialogue.ends_done.1 h
    exact ⟨answer, rfl, hvalue⟩
  · rintro ⟨answer, rfl, rfl⟩
    exact ⟨answer, rfl, rfl, rfl⟩

theorem callValue_eq_ok {answer : Result (UInt16 × Json)} {value : Json} :
    callValue display answer requestId = .ok value ↔ ∃ status object,
      answer = .ok (status, .object object) ∧ Answers requestId status object value := by
  constructor
  · intro h
    obtain ⟨⟨status, body⟩, rfl, hparse⟩ := bind_eq_ok.1 h
    obtain ⟨object, rfl, hanswers⟩ := (parseJsonRpcResponse_eq_ok display).1 hparse
    exact ⟨status, object, rfl, hanswers⟩
  · rintro ⟨status, object, rfl, hanswers⟩
    exact (parseJsonRpcResponse_eq_ok display).2 ⟨object, rfl, hanswers⟩

theorem postsOnce_postForHash {refusal : Bytes → String} {method : String} {raw : Bytes}
    (h : (postForHash display requestId method (hexEncode raw)).Ends log result) :
    PostsOnce refusal requestId method raw log result := by
  obtain ⟨value, answer, rfl, hvalue, hresult⟩ : ∃ value answer,
      log = [⟨jsonRpcRequest requestId method [.string (hexEncode raw)], answer⟩] ∧
        callValue display answer requestId = value ∧
          (value >>= extractHash display) = result := by
    obtain ⟨e, he, rfl⟩ | ⟨value, l₁, l₂, rfl, hvalue, hdone⟩ := Dialogue.ends_andThen.1 h
    · obtain ⟨answer, rfl, hanswer⟩ := ends_postValue.1 he
      exact ⟨_, answer, rfl, hanswer, rfl⟩
    · obtain ⟨answer, rfl, hanswer⟩ := ends_postValue.1 hvalue
      obtain ⟨rfl, hresult⟩ := Dialogue.ends_done.1 hdone
      exact ⟨_, answer, rfl, hanswer, hresult⟩
  refine ⟨hexEncode raw, answer, rfl, decodeHex_hexEncode raw, fun hash => ?_⟩
  rw [← hresult, ← hvalue, bind_eq_ok]
  constructor
  · rintro ⟨value, hvalue, hhash⟩
    obtain ⟨status, object, rfl, hanswers⟩ := callValue_eq_ok.1 hvalue
    exact ⟨status, object, value, rfl, hanswers, extractHash_eq_ok.1 hhash⟩
  · rintro ⟨status, object, value, rfl, hanswers, htells⟩
    exact ⟨value, callValue_eq_ok.2 ⟨status, object, rfl, hanswers⟩, extractHash_eq_ok.2 htells⟩

end

/-! ## What is read of it -/

namespace Vm.Transaction

variable {sha256 : Bytes → Crypto.Hash} {ed : Crypto.Ed25519} {old tx signed : Transaction}
  {ops : List Op}

/-- No part is longer than a reader takes. -/
structure Readable (tx : Transaction) : Prop where
  nexusName : (utf8 tx.nexusName).length ≤ maxArraySize
  chainName : (utf8 tx.chainName).length ≤ maxArraySize
  script : tx.script.length ≤ maxArraySize
  payload : tx.payload.length ≤ maxArraySize

theorem Readable.fromBytes_toBytes (h : tx.Readable) : fromBytes (tx.toBytes true) = .ok tx :=
  BinaryReader.readAll_eq_ok.2
    (reads_read h.nexusName h.chainName h.script h.payload).run_self

/-- What was done to a transaction before it was signed is on record of what is sent. -/
theorem Record.sign {keys : Crypto.PhantasmaKeys} (hrun : run (step sha256 ed) old ops = some tx)
    (hsign : tx.sign ed keys = some signed) : Record sha256 ed old signed
      (marks sha256 ed old ops ++ [.signed keys tx.payload]) ∧ signed.payload = tx.payload := by
  have hstep : tx.step sha256 ed (.sign keys) = some signed := hsign
  refine ⟨(Record.of_run hrun).trans (Record.of_step hstep), ?_⟩
  obtain ⟨_, h⟩ | ⟨_, h⟩ := dite_eq_iff.1 hsign
  · rw [← Option.some.inj h]
  · cases h

theorem payload_of_withPayload {tx tx' : Vm.Transaction} {payload : Bytes}
    (h : tx.withPayload payload = some tx') : tx'.payload = payload := by
  obtain ⟨_, h⟩ | ⟨_, h⟩ := dite_eq_iff.1 h
  · rw [← Option.some.inj h]
  · cases h

end Vm.Transaction

section

open Vm.Transaction

variable (refusal : Bytes → String) (display : Json → String) (requestId : UInt64)

/-- Whatever comes of it, the transaction is posted, once, and is what is read. -/
def Delivers (signed : Vm.Transaction) (post : Post String) : Prop :=
  ∀ log result, post.Ends log result →
    ∃ raw, PostsOnce refusal requestId "sendRawTransaction" raw log result ∧
      fromBytes raw = .ok signed

variable {refusal display requestId} {ed : Crypto.Ed25519}

theorem delivers_sendTransaction {signed : Vm.Transaction} (h : signed.Readable) :
    Delivers refusal requestId signed (sendTransaction display requestId signed) :=
  fun _ _ hends => ⟨_, postsOnce_postForHash hends, h.fromBytes_toBytes⟩

/-- Signing and sending adds the signature to the record, and leaves the payload. -/
theorem record_of_signAndSendBuilt {sha256 : Bytes → Crypto.Hash} (hed : ed.Lawful)
    {old tx signed : Vm.Transaction} {ops : List Vm.Transaction.Op} {keys : Crypto.PhantasmaKeys}
    {post : Post String} (hrun : run (step sha256 ed) old ops = some tx)
    (hsend : signAndSendBuiltTransaction display requestId ed tx keys = some (signed, post)) :
    Vm.Transaction.Record sha256 ed old signed
        (marks sha256 ed old ops ++ [.signed keys tx.payload]) ∧
      (∀ mark ∈ marks sha256 ed old ops ++ [.signed keys tx.payload],
        mark.payload = signed.payload → mark.Holds sha256 ed signed) ∧
      signed.isSignedBy ed keys = .ok true ∧ signed.payload = tx.payload ∧
      (signed.Readable → Delivers refusal requestId signed post) := by
  obtain ⟨signed', hsign, heq⟩ := Option.map_eq_some_iff.1 hsend
  obtain ⟨rfl, rfl⟩ := Prod.mk.inj heq
  obtain ⟨hrecord, hpayload⟩ := Vm.Transaction.Record.sign hrun hsign
  have hholds := fun mark (hmem : mark ∈ marks sha256 ed old ops ++ [.signed keys tx.payload]) =>
    hrecord.holds hed hmem
  -- The signature is the last mark, and made of the payload that is sent.
  have hlast : (Mark.signed keys tx.payload) ∈
      marks sha256 ed old ops ++ [.signed keys tx.payload] :=
    List.mem_append_right _ (List.mem_singleton.2 rfl)
  exact ⟨hrecord, hholds, hholds _ hlast hpayload.symm, hpayload, delivers_sendTransaction⟩

/-- A transaction that is signed and sent, after anything was done to it, is read as it was
    signed: the signature verifies, and so does all that is on record of the payload it has. A
    script is sent in a transaction with one signature, which is of its sender. -/
theorem delivers_of_signAndSend (sha256 : Bytes → Crypto.Hash) (hed : ed.Lawful) :
    (∀ old ops tx keys signed post, run (step sha256 ed) old ops = some tx →
      signAndSendBuiltTransaction display requestId ed tx keys = some (signed, post) →
      Vm.Transaction.Record sha256 ed old signed
        (marks sha256 ed old ops ++ [.signed keys tx.payload]) ∧
      (∀ mark ∈ marks sha256 ed old ops ++ [.signed keys tx.payload],
        mark.payload = signed.payload → mark.Holds sha256 ed signed) ∧
      signed.isSignedBy ed keys = .ok true ∧
      (signed.Readable → Delivers refusal requestId signed post)) ∧
    ∀ clock keys nexus chain script payload expiration h, ∀ signed post,
      signAndSendTransaction display requestId ed clock keys nexus chain script payload expiration
        h = some (signed, post) →
      signed.nexusName = nexus ∧ signed.chainName = chain ∧ signed.script = script ∧
        signed.expiration = expiration.getD (defaultExpirationSeconds clock) ∧
        signed.payload = payload ∧ signed.signatures.length = 1 ∧
        signed.isSignedBy ed keys = .ok true ∧
        (signed.Readable → Delivers refusal requestId signed post) := by
  refine ⟨?_, ?_⟩
  · intro old ops tx keys signed post hrun hsend
    obtain ⟨hrecord, hholds, hby, -, hdelivers⟩ := record_of_signAndSendBuilt hed hrun hsend
    exact ⟨hrecord, hholds, hby, hdelivers⟩
  intro clock keys nexus chain script payload expiration h signed post hsend
  obtain ⟨tx, htx, hsend⟩ := Option.bind_eq_some_iff.1 hsend
  -- A script is a new transaction that is given a payload, which leaves no mark.
  have hrun : run (step sha256 ed) (new nexus chain script
      (expiration.getD (defaultExpirationSeconds clock)) h) [.withPayload payload] = some tx :=
    Option.bind_eq_some_iff.2 ⟨tx, htx, rfl⟩
  obtain ⟨hrecord, -, hby, hpayload, hdelivers⟩ := record_of_signAndSendBuilt hed hrun hsend
  obtain ⟨hnexus, hchain, hscript, hexpiration⟩ := hrecord.unchanged
  have hmarks : marks sha256 ed (new nexus chain script
      (expiration.getD (defaultExpirationSeconds clock)) h) [.withPayload payload] = [] := by
    rw [marks, Vm.Transaction.step, htx]
    rfl
  have hsignatures := hrecord.signatures
  rw [hmarks] at hsignatures
  refine ⟨hnexus, hchain, hscript, hexpiration, ?_, ?_, hby, hdelivers⟩
  · rw [hpayload, payload_of_withPayload htx]
  · rw [hsignatures]
    rfl

/-- A mined transaction is signed once more and sent, and so is its script. -/
theorem delivers_of_signAndSend_timed :
    (∃ tx signed post,
      run (step timeSha256 timeEd25519) timeExample [.sign vectorKeys, .mine 1 5] = some tx ∧
      signAndSendBuiltTransaction (fun _ => "") 1 timeEd25519 tx vectorKeys =
        some (signed, post) ∧
      signed.signatures.length = 2 ∧ 1 ≤ (signed.hash timeSha256).difficulty ∧
      Delivers (fun _ => "") 1 signed post) ∧
    ∃ signed post,
      signAndSendTransaction (fun _ => "") 1 timeEd25519 none vectorKeys "mainnet" "main"
        timeExample.script sdkPayload (some 1754000000) (by decide +kernel) = some (signed, post) ∧
      signed.expiration = 1754000000 ∧ signed.isSignedBy timeEd25519 vectorKeys = .ok true ∧
      Delivers (fun _ => "") 1 signed post := by
  constructor
  · obtain ⟨tx, hrun, hrest⟩ := Option.bind_eq_some_iff.1 (show
      ((run (step timeSha256 timeEd25519) timeExample [.sign vectorKeys, .mine 1 5]).bind fun tx =>
        (tx.sign timeEd25519 vectorKeys).map fun signed =>
          (signed.payload, signed.signatures.length)) = some (writeU32LE 4, 2) by decide +kernel)
    obtain ⟨signed, hsign, hparts⟩ := Option.map_eq_some_iff.1 hrest
    obtain ⟨hpayload, hlength⟩ := Prod.mk.inj hparts
    have hsend : signAndSendBuiltTransaction (fun _ => "") 1 timeEd25519 tx vectorKeys =
        some (signed, sendTransaction (fun _ => "") 1 signed) := by
      rw [signAndSendBuiltTransaction, hsign]
      rfl
    obtain ⟨hrecord, hholds, -, hdelivers⟩ :=
      (delivers_of_signAndSend timeSha256 lawful_timeEd25519).1 _ _ _ _ _ _ hrun hsend
    have hmarks : marks timeSha256 timeEd25519 timeExample [.sign vectorKeys, .mine 1 5] =
        [.signed vectorKeys sdkPayload, .mined 1 (writeU32LE 4)] := by
      decide +kernel
    rw [hmarks] at hholds
    obtain ⟨hnexus, hchain, hscript, -⟩ := hrecord.unchanged
    have hmined := hholds (.mined 1 (writeU32LE 4)) (by simp) hpayload.symm
    refine ⟨tx, signed, _, hrun, hsend, hlength, hmined, hdelivers ⟨?_, ?_, ?_, ?_⟩⟩
    · rw [hnexus]
      decide +kernel
    · rw [hchain]
      decide +kernel
    · rw [hscript]
      decide +kernel
    · rw [hpayload]
      decide
  · obtain ⟨⟨signed, post⟩, hsend⟩ := Option.isSome_iff_exists.1
      (show (signAndSendTransaction (fun _ => "") 1 timeEd25519 none vectorKeys "mainnet" "main"
        timeExample.script sdkPayload (some 1754000000) (by decide +kernel)).isSome by
          decide +kernel)
    obtain ⟨hnexus, hchain, hscript, hexpiration, hpayload, -, hby, hdelivers⟩ :=
      (delivers_of_signAndSend timeSha256 lawful_timeEd25519).2 _ _ _ _ _ _ _ _ _ _ hsend
    refine ⟨signed, post, hsend, hexpiration, hby, hdelivers ⟨?_, ?_, ?_, ?_⟩⟩
    · rw [hnexus]
      decide +kernel
    · rw [hchain]
      decide +kernel
    · rw [hscript]
      decide +kernel
    · rw [hpayload]
      decide +kernel

end

end PhantasmaSdk
