import PhantasmaSdk.Basic
import PhantasmaSdk.Serde.Derive

/-!
# JSON-RPC responses

A request carries an id, and the response to it is an object with the same id, as a number
or as its decimal digits, and with a result or an error. A body without an id is not a
response but a refusal by the server in front of it. `parseJsonRpcResponse_eq_ok` says which
bodies answer a request (`Answers`).

How a JSON value is printed, which only the texts of errors depend on, is a parameter.
-/

namespace PhantasmaSdk

open Serde (Json)

variable (display : Json → String)

def jsonRpcIdMatches (id : Json) (expected : UInt64) : Bool :=
  match id.asU64 with
  | some number => number == expected
  | none =>
    match id.asStr with
    | some text => text == expected.toNat.repr
    | none => false

/-- The error a response carries. -/
def jsonRpcError (error : Json) : Result Json :=
  match error.asObject with
  | some members =>
    rpc ((members.lookup "code").bind Json.asI64)
      (((members.lookup "message").bind Json.asStr).getD "JSON-RPC error")
  | none =>
    match error.asStr with
    | some message => rpc none message
    | none => rpc none (display error)

/-- A body without an id. -/
def jsonRpcWithoutId (status : UInt16) (object : List (String × Json)) : Result Json :=
  if 400 ≤ status then
    let detail := ((object.lookup "error").bind Json.asStr).or
      ((object.lookup "message").bind Json.asStr)
    match detail with
    | some message => rpc none s!"HTTP {status}: {message}"
    | none => rpc none s!"HTTP {status}"
  else rpc none "missing id"

def parseJsonRpcResponseForRequest (status : UInt16) (body : Json) (expectedRequestId : UInt64) :
    Result Json :=
  match body.asObject with
  | none => rpc none "JSON-RPC response must be an object"
  | some object =>
    match object.lookup "id" with
    | none => jsonRpcWithoutId status object
    | some id =>
      if ¬jsonRpcIdMatches id expectedRequestId then
        rpc none s!"response id mismatch: {display id}"
      else
        match object.lookup "error" with
        | some error => jsonRpcError display error
        | none =>
          if 400 ≤ status then rpc none s!"HTTP {status}"
          else
            match object.lookup "result" with
            | some result => pure result
            | none => rpc none "missing result"

/-! ## Which bodies answer -/

/-- The body is the response to the request with this id, and carries the result. -/
structure Answers (id : UInt64) (status : UInt16) (object : List (String × Json))
    (result : Json) : Prop where
  id : object.lookup "id" = some (.number (.int id.toNat)) ∨
    object.lookup "id" = some (.string id.toNat.repr)
  error : object.lookup "error" = none
  status : status < 400
  result : object.lookup "result" = some result

theorem asU64_eq_some {j : Json} {n : UInt64} : j.asU64 = some n ↔ j = .number (.int n.toNat) := by
  cases j with
  | number value =>
    cases value with
    | float text => simp [Json.asU64]
    | int value =>
      have hn := n.toNat_lt
      simp only [Json.asU64, Json.number.injEq, Serde.Number.int.injEq]
      constructor
      · intro h
        split at h
        next hrange =>
          rw [← Option.some.inj h, UInt64.toNat_ofNat_of_lt' (by simp only [UInt64.size]; omega)]
          omega
        next => cases h
      · rintro rfl
        rw [if_pos (by omega)]
        simp
  | _ => simp [Json.asU64]

/-- An id matches as a number or as its digits. -/
theorem jsonRpcIdMatches_iff {id : Json} {expected : UInt64} : jsonRpcIdMatches id expected ↔
    id = .number (.int expected.toNat) ∨ id = .string expected.toNat.repr := by
  rw [jsonRpcIdMatches]
  cases hu : id.asU64 with
  | some number =>
    obtain rfl := asU64_eq_some.1 hu
    simp only [beq_iff_eq, reduceCtorEq, or_false, Json.number.injEq, Serde.Number.int.injEq,
      Nat.cast_inj, UInt64.toNat_inj]
  | none =>
    have hnot : id ≠ .number (.int expected.toNat) := fun h => by
      rw [asU64_eq_some.2 h] at hu
      cases hu
    cases id with
    | string text => simp [Json.asStr]
    | number value => simpa [Json.asStr] using hnot
    | _ => simp [Json.asStr]

theorem jsonRpcError_ne_ok {error result : Json} : jsonRpcError display error ≠ .ok result := by
  rw [jsonRpcError]
  split
  next => exact nofun
  next => split <;> exact nofun

theorem jsonRpcWithoutId_ne_ok {status : UInt16} {object : List (String × Json)} {result : Json} :
    jsonRpcWithoutId status object ≠ .ok result := by
  rw [jsonRpcWithoutId]
  split
  next => dsimp only; split <;> exact nofun
  next => exact nofun

/-- A result is returned of exactly the bodies that answer the request. -/
theorem parseJsonRpcResponse_eq_ok {status : UInt16} {body : Json} {id : UInt64} {result : Json} :
    parseJsonRpcResponseForRequest display status body id = .ok result ↔
      ∃ object, body = .object object ∧ Answers id status object result := by
  rw [parseJsonRpcResponseForRequest]
  cases body with
  | object object =>
    simp only [Json.asObject, Json.object.injEq, exists_eq_left']
    constructor
    · intro h
      split at h
      next => exact absurd h jsonRpcWithoutId_ne_ok
      next id' hid =>
      split at h
      next => cases h
      next hmatches =>
      split at h
      next => exact absurd h (jsonRpcError_ne_ok display)
      next herror =>
      split at h
      next => cases h
      next hstatus =>
      split at h
      next result' hresult =>
        refine ⟨?_, herror, UInt16.not_le.1 hstatus, Except.ok.inj h ▸ hresult⟩
        rw [hid]
        exact (jsonRpcIdMatches_iff.1 (not_not.1 hmatches)).imp (congrArg some) (congrArg some)
      next => cases h
    · rintro ⟨hid, herror, hstatus, hresult⟩
      -- Each check of the source is met in turn.
      obtain ⟨id', hid', hmatches⟩ : ∃ id', object.lookup "id" = some id' ∧
          jsonRpcIdMatches id' id := by
        rcases hid with hid | hid
        · exact ⟨_, hid, jsonRpcIdMatches_iff.2 (Or.inl rfl)⟩
        · exact ⟨_, hid, jsonRpcIdMatches_iff.2 (Or.inr rfl)⟩
      simp only [hid', hmatches, not_true_eq_false, if_false, herror, if_neg (UInt16.not_le.2 hstatus),
        hresult]
      rfl
  | _ => exact iff_of_false (by rintro ⟨⟩) (by rintro ⟨_, ⟨⟩, -⟩)

/-- A number is read off its digits. -/
theorem repr_injective : Function.Injective Nat.repr := by
  intro m n h
  have hdigits := congrArg String.toList h
  rw [Nat.toList_repr, Nat.toList_repr] at hdigits
  rw [← Nat.ofDigitChars_ten_toDigits (n := m), hdigits, Nat.ofDigitChars_ten_toDigits]

/-- A body answers one request at most. -/
theorem id_eq_of_answers {id id' : UInt64} {status status' : UInt16}
    {object : List (String × Json)} {result result' : Json}
    (h : Answers id status object result) (h' : Answers id' status' object result') : id = id' := by
  rw [← UInt64.toNat_inj]
  rcases h.id with hid | hid <;> rcases h'.id with hid' | hid' <;> rw [hid] at hid' <;>
    have heq := Option.some.inj hid'
  · exact_mod_cast Serde.Number.int.inj (Json.number.inj heq)
  · cases heq
  · cases heq
  · exact repr_injective (Json.string.inj heq)

end PhantasmaSdk
