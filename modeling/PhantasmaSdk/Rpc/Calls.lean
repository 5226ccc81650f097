import PhantasmaSdk.Machine.Run
import PhantasmaSdk.Rpc.Response

/-!
# Calls over clones of a client

A client numbers its requests with a counter behind an `Arc`: cloning the client copies the
reference, hence the clones number theirs with the same counter. Calls are issued by any of
them and answered in any order, with whatever the transport returns.

The numbers of fewer than `2 ^ 64` calls are distinct (`Numbered`), and a call returns a
result iff its own answer is the response to its own request. So no body is a result of two
calls (`calls_correlated`).
-/

namespace PhantasmaSdk

open Machine
open Serde (Json)

/-- A client, as far as its requests go: where they are sent, and which counter numbers
    them. -/
structure PhantasmaRpc where
  endpoint : String
  nextRequestId : ℕ
  deriving DecidableEq, Repr

def initialJsonRpcRequestId : UInt64 := 1

/-- The body of a request. -/
def jsonRpcRequest (requestId : UInt64) (method : String) (params : List Json) : Json :=
  .object [("jsonrpc", .string "2.0"), ("id", .number (.int requestId.toNat)),
    ("method", .string method), ("params", .array params)]

/-- A call in flight, or answered with what the transport returned: a status and a body, or
    an error. -/
structure RpcCall where
  client : PhantasmaRpc
  requestId : UInt64
  request : Json
  answer : Option (Result (UInt16 × Json))

/-- What a call returns once the transport has. -/
def callValue (display : Json → String) (answer : Result (UInt16 × Json)) (requestId : UInt64) :
    Result Json := do
  let (status, body) ← answer
  parseJsonRpcResponseForRequest display status body requestId

/-- The clients there are, the counters their references are to, and the calls issued. -/
structure RpcWorld where
  clients : List PhantasmaRpc
  counters : ℕ → UInt64
  calls : List RpcCall

namespace RpcWorld

/-- One client, nothing issued. -/
def withTransport (endpoint : String) : RpcWorld where
  clients := [{ endpoint, nextRequestId := 0 }]
  counters _ := initialJsonRpcRequestId
  calls := []

inductive Event
  | clone (client : ℕ)
  | issue (client : ℕ) (method : String) (params : List Json)
  | answer (call : ℕ) (response : Result (UInt16 × Json))

/-- A client is copied with its reference. A call takes the next number off its client's
    counter, which wraps. A call is answered once. -/
def step (w : RpcWorld) : Event → Option RpcWorld
  | .clone i => (w.clients[i]?).map fun client => { w with clients := w.clients ++ [client] }
  | .issue i method params => (w.clients[i]?).map fun client =>
    let requestId := w.counters client.nextRequestId
    { w with
      counters := Function.update w.counters client.nextRequestId (requestId + 1)
      calls := w.calls ++ [{
        client, requestId, request := jsonRpcRequest requestId method params, answer := none }] }
  | .answer k response => (w.calls[k]?).bind fun call =>
    if call.answer.isSome then none
    else some { w with calls := w.calls.set k { call with answer := some response } }

/-! ## Numbers -/

/-- The number of the `n`-th call. -/
def idOf (n : ℕ) : UInt64 := UInt64.ofNat (n + 1)

/-- Every client is a clone of the first, and the calls are numbered as they were issued. -/
structure Numbered (w : RpcWorld) : Prop where
  clients : ∀ client ∈ w.clients, client.nextRequestId = 0
  counter : w.counters 0 = idOf w.calls.length
  calls : w.calls.map RpcCall.requestId = (List.range w.calls.length).map idOf
  requests : ∀ call ∈ w.calls, ∃ method params,
    call.request = jsonRpcRequest call.requestId method params

theorem numbered_withTransport (endpoint : String) : Numbered (withTransport endpoint) where
  clients client h := by rw [List.mem_singleton.1 h]
  counter := rfl
  calls := rfl
  requests := nofun

/-- Answers do not change the numbers. -/
theorem map_requestId_set {calls : List RpcCall} {k : ℕ} {call : RpcCall}
    (h : calls[k]? = some call) (answer : Option (Result (UInt16 × Json))) :
    (calls.set k { call with answer }).map RpcCall.requestId = calls.map RpcCall.requestId := by
  obtain ⟨hk, rfl⟩ := List.getElem?_eq_some_iff.1 h
  have hk' : k < (calls.map RpcCall.requestId).length := by rwa [List.length_map]
  have hself := List.set_getElem_self hk'
  rw [List.getElem_map] at hself
  rw [List.map_set, hself]

theorem Numbered.step {w w' : RpcWorld} {e : Event} (hw : Numbered w) (h : w.step e = some w') :
    Numbered w' := by
  cases e with
  | clone i =>
    obtain ⟨client, hclient, rfl⟩ := Option.map_eq_some_iff.1 h
    refine ⟨fun client' hclient' => ?_, hw.counter, hw.calls, hw.requests⟩
    -- A clone shares the counter of the client it is made of.
    rcases List.mem_append.1 hclient' with hmem | hmem
    · exact hw.clients client' hmem
    · rw [List.mem_singleton.1 hmem]
      exact hw.clients client (List.mem_of_getElem? hclient)
  | issue i method params =>
    obtain ⟨client, hclient, rfl⟩ := Option.map_eq_some_iff.1 h
    have hzero := hw.clients client (List.mem_of_getElem? hclient)
    refine ⟨hw.clients, ?_, ?_, fun call hcall => ?_⟩
    · -- The call takes the next number, which is how many there were.
      simp only [hzero, Function.update_self, hw.counter, List.length_append,
        List.length_singleton]
      exact (UInt64.ofNat_add _ 1).symm
    · simp only [hzero, hw.counter, List.map_append, hw.calls, List.length_append,
        List.length_singleton, List.range_succ, List.map_cons, List.map_nil]
    · rcases List.mem_append.1 hcall with hmem | hmem
      · exact hw.requests call hmem
      · rw [List.mem_singleton.1 hmem]
        exact ⟨method, params, rfl⟩
  | answer k response =>
    obtain ⟨call, hcall, h⟩ := Option.bind_eq_some_iff.1 h
    -- A call is answered once, which leaves its number and its request.
    obtain ⟨-, h⟩ | ⟨-, h⟩ := ite_eq_iff.1 h
    · cases h
    · obtain rfl := Option.some.inj h
      refine ⟨hw.clients, ?_, ?_, fun call' hcall' => ?_⟩
      · simp only [List.length_set]
        exact hw.counter
      · simp only [map_requestId_set hcall, List.length_set]
        exact hw.calls
      · rcases List.mem_or_eq_of_mem_set hcall' with hmem | rfl
        · exact hw.requests call' hmem
        · exact hw.requests call (List.mem_of_getElem? hcall)

/-- The numbers of fewer calls than a counter has values are distinct. -/
theorem Numbered.nodup {w : RpcWorld} (hw : Numbered w) (hfew : w.calls.length < 2 ^ 64) :
    (w.calls.map RpcCall.requestId).Nodup := by
  rw [hw.calls]
  refine List.Nodup.map_on (fun m hm n hn h => ?_) List.nodup_range
  rw [List.mem_range] at hm hn
  have hnat := UInt64.toNat_inj.2 h
  rw [idOf, idOf, UInt64.toNat_ofNat', UInt64.toNat_ofNat'] at hnat
  omega

end RpcWorld

/-! ## Results -/

namespace RpcCall

/-- The call was answered and returns the result. -/
def Returns (display : Json → String) (call : RpcCall) (result : Json) : Prop :=
  ∃ answer, call.answer = some answer ∧ callValue display answer call.requestId = .ok result

/-- A call returns what the response to its own request carries. -/
theorem returns_iff {display : Json → String} {call : RpcCall} {result : Json} :
    call.Returns display result ↔ ∃ status object,
      call.answer = some (.ok (status, .object object)) ∧
        Answers call.requestId status object result := by
  unfold Returns callValue
  constructor
  · rintro ⟨answer, hanswer, h⟩
    obtain ⟨⟨status, body⟩, rfl, hparse⟩ := bind_eq_ok.1 h
    obtain ⟨object, rfl, hanswers⟩ := (parseJsonRpcResponse_eq_ok display).1 hparse
    exact ⟨status, object, hanswer, hanswers⟩
  · rintro ⟨status, object, hanswer, h⟩
    exact ⟨_, hanswer, (parseJsonRpcResponse_eq_ok display).2 ⟨object, rfl, h⟩⟩

end RpcCall

open RpcWorld in
/-- Whatever the clones of a client call and in whatever order they are answered: every
    request carries its number, the numbers are distinct, a call returns what the response
    to its own request carries, and no body is a result of two calls. -/
theorem calls_correlated (display : Json → String) (endpoint : String) (events : List Event)
    (w : RpcWorld) (hrun : run step (withTransport endpoint) events = some w)
    (hfew : w.calls.length < 2 ^ 64) :
    (w.calls.map RpcCall.requestId).Nodup ∧
      (∀ call ∈ w.calls, (∃ method params,
          call.request = jsonRpcRequest call.requestId method params) ∧
        ∀ result, call.Returns display result ↔ ∃ status object,
          call.answer = some (.ok (status, .object object)) ∧
            Answers call.requestId status object result) ∧
      ∀ (i j : ℕ) (call call' : RpcCall) (status status' : UInt16) (body result result' : Json),
        w.calls[i]? = some call → w.calls[j]? = some call' →
        call.answer = some (.ok (status, body)) → call'.answer = some (.ok (status', body)) →
        call.Returns display result → call'.Returns display result' → i = j := by
  have hnumbered := run_invariant (fun _ _ _ hw h => hw.step h)
    (numbered_withTransport endpoint) hrun
  have hnodup := hnumbered.nodup hfew
  refine ⟨hnodup, fun call hcall => ⟨hnumbered.requests call hcall, fun result =>
    RpcCall.returns_iff⟩, ?_⟩
  intro i j call call' status status' body result result' hi hj hanswer hanswer' hreturns hreturns'
  obtain ⟨_, object, hobject, hown⟩ := RpcCall.returns_iff.1 hreturns
  obtain ⟨_, object', hobject', hown'⟩ := RpcCall.returns_iff.1 hreturns'
  rw [hanswer] at hobject
  rw [hanswer'] at hobject'
  cases hobject
  cases hobject'
  -- The one body answers both requests, so that they have one number.
  have hsame := id_eq_of_answers hown hown'
  obtain ⟨hi, rfl⟩ := List.getElem?_eq_some_iff.1 hi
  obtain ⟨hj, rfl⟩ := List.getElem?_eq_some_iff.1 hj
  have hi' : i < (w.calls.map RpcCall.requestId).length := by rwa [List.length_map]
  have hj' : j < (w.calls.map RpcCall.requestId).length := by rwa [List.length_map]
  have hget : (w.calls.map RpcCall.requestId)[i] = (w.calls.map RpcCall.requestId)[j] := by
    rw [List.getElem_map, List.getElem_map]
    exact hsame
  exact hnodup.getElem_inj_iff.1 hget

/-- A response, its id a number or a text. -/
def response (id : Json) : Result (UInt16 × Json) :=
  pure (200, .object [("jsonrpc", .string "2.0"), ("id", id), ("result", .bool true)])

open RpcWorld in
/-- Two clones each issue a call, and the answers come in the other order. -/
def crossedEvents : List Event :=
  [.clone 0, .issue 0 "getVersion" [], .issue 1 "getVersion" [],
    .answer 1 (response (.string "2")), .answer 0 (response (.number (.int 1)))]

open RpcWorld in
theorem calls_correlated_crossed : ∃ w, run step (withTransport "") crossedEvents = some w ∧
    (w.calls.map RpcCall.requestId).Nodup ∧
      ∀ call ∈ w.calls, call.Returns (fun _ => "") (.bool true) := by
  refine ⟨_, rfl, ?_⟩
  obtain ⟨hnodup, hreturns, -⟩ := calls_correlated (fun _ => "") "" crossedEvents _ rfl
    (by decide)
  refine ⟨hnodup, fun call hcall => ((hreturns call hcall).2 _).2 ?_⟩
  rcases List.mem_cons.1 hcall with rfl | hcall
  · exact ⟨200, _, rfl, ⟨Or.inl rfl, rfl, by decide, rfl⟩⟩
  · rw [List.mem_singleton.1 hcall]
    exact ⟨200, _, rfl, ⟨Or.inr rfl, rfl, by decide, rfl⟩⟩

end PhantasmaSdk
