import PhantasmaSdk.Machine.Loop
import PhantasmaSdk.Rpc.Answers
import PhantasmaSdk.Vm.Binary

/-!
# Responses over HTTP

The body of a response arrives in pieces, of which a server may send any number, and of
any size. They are gathered for as long as they stay within a limit: what is gathered never
exceeds it, and a server that sends something each time is not listened to for longer than
the limit says (`reading_bounded`).

How the body was cut into pieces does not show. A call returns a value iff the whole of the
body is within the limit, and is the response to the call (`callOverHttp_eq_ok_iff`).
-/

namespace PhantasmaSdk.Rpc

open Machine Serde
open Vm (maxVecLength)

/-- What a server answers with: a status, a length if it declares one, and what it says
    each time it is asked for a piece of the body. -/
structure Response where
  status : UInt16
  contentLength : Option UInt64
  chunk : ℕ → Except PhantasmaError (Option Bytes)

/-- The pieces asked for so far, and what is gathered of them or has come of it. -/
inductive Reading
  | reading (asked : ℕ) (body : Bytes)
  | done (asked : ℕ) (result : Result Bytes)

namespace Reading

def isReading : Reading → Bool
  | reading .. => true
  | done .. => false

def result? : Reading → Option (Result Bytes)
  | reading .. => none
  | done _ result => some result

def start : Reading := .reading 0 []

section

variable (chunk : ℕ → Except PhantasmaError (Option Bytes)) (maxResponseBytes : UInt64)

/-- A round of the loop. The sum saturates, and no vector is longer than `isize::MAX`. -/
def next : Reading → Reading
  | .reading asked body =>
    match chunk asked with
    | .error e => .done (asked + 1) (.error (.error e))
    | .ok none => .done (asked + 1) (.ok body)
    | .ok (some piece) =>
      if maxResponseBytes.toNat < min (body.length + piece.length) (2 ^ 64 - 1) then
        .done (asked + 1) (rpc none s!"response body exceeds {maxResponseBytes} bytes")
      else if body.length + piece.length < maxVecLength then .reading (asked + 1) (body ++ piece)
      else .done (asked + 1) (.error (.panic (.expect "capacity overflow")))
  | .done asked result => .done asked result

end

end Reading

/-- The most that is gathered of a body. -/
def limit (maxResponseBytes : UInt64) : ℕ := min maxResponseBytes.toNat (maxVecLength - 1)

section

variable (utf8Refusal : Bytes → String) (fromStr : String → Except String Json)

def bodyText (status : UInt16) (body : Bytes) : Result (UInt16 × String) :=
  match fromUtf8 body with
  | some text => pure (status, text)
  | none => rpc none s!"response body is not valid UTF-8: {utf8Refusal body}"

def readLimitedResponseText (response : Response) (maxResponseBytes : UInt64) (fuel : ℕ) :
    Option (Result (UInt16 × String)) :=
  if maxResponseBytes = 0 then some (rpc none "max response size must be positive")
  else if response.contentLength.any (maxResponseBytes < ·) then
    some (rpc none s!"response body exceeds {maxResponseBytes} bytes")
  else
    (whileLoop Reading.isReading (Reading.next response.chunk maxResponseBytes) fuel
      Reading.start).bind fun s => s.result?.map fun result => do
        let body ← result
        bodyText utf8Refusal response.status body

def parseBody (status : UInt16) (text : String) : Result (UInt16 × Json) :=
  match fromStr text with
  | .ok value => pure (status, value)
  | .error err =>
    if 400 ≤ status then rpc none s!"HTTP {status}: response body is not valid JSON: {err}"
    else rpc none s!"response body is not valid JSON: {err}"

/-- What the transport returns of what was sent, if the server ends its answer in time. -/
def postJson (sent : Except PhantasmaError Response) (maxResponseBytes : UInt64) (fuel : ℕ) :
    Option (Result (UInt16 × Json)) :=
  match sent with
  | .error e => some (.error (.error e))
  | .ok response =>
    (readLimitedResponseText utf8Refusal response maxResponseBytes fuel).map fun read => do
      let (status, text) ← read
      parseBody fromStr status text

end

/-! ## What is gathered -/

namespace Reading

variable {chunk : ℕ → Except PhantasmaError (Option Bytes)} {maxResponseBytes : UInt64}

/-- The first pieces the server sends. -/
def Pieces (chunk : ℕ → Except PhantasmaError (Option Bytes)) (pieces : List Bytes) : Prop :=
  ∀ k (h : k < pieces.length), chunk k = .ok (some pieces[k])

theorem Pieces.concat {pieces : List Bytes} (h : Pieces chunk pieces) {piece : Bytes}
    (hpiece : chunk pieces.length = .ok (some piece)) : Pieces chunk (pieces ++ [piece]) := by
  intro k hk
  rw [List.length_append, List.length_singleton] at hk
  rcases Nat.lt_succ_iff_lt_or_eq.1 hk with hlt | rfl
  · rw [List.getElem_append_left hlt]
    exact h k hlt
  · rw [List.getElem_concat_length rfl]
    exact hpiece

theorem Pieces.of_append {pieces more : List Bytes} (h : Pieces chunk (pieces ++ more)) :
    Pieces chunk pieces := fun k hk => by
  have hlt : k < (pieces ++ more).length := hk.trans_le (by simp)
  rw [h k hlt, List.getElem_append_left hk]

/-- What one round does: the server fails, ends, or sends a piece, which is gathered
    iff it is within the limit. -/
theorem next_reading (chunk : ℕ → Except PhantasmaError (Option Bytes))
    (maxResponseBytes : UInt64) (asked : ℕ) (body : Bytes) :
    (∃ e, next chunk maxResponseBytes (.reading asked body) =
      .done (asked + 1) (.error (.error e))) ∨
    (chunk asked = .ok none ∧
      next chunk maxResponseBytes (.reading asked body) = .done (asked + 1) (.ok body)) ∨
    (∃ piece, chunk asked = .ok (some piece) ∧
      body.length + piece.length ≤ limit maxResponseBytes ∧
      next chunk maxResponseBytes (.reading asked body) = .reading (asked + 1) (body ++ piece)) ∨
    maxVecLength ≤ maxResponseBytes.toNat ∧ ∃ p,
      next chunk maxResponseBytes (.reading asked body) =
        .done (asked + 1) (.error (.panic p)) := by
  rw [next]
  rcases hchunk : chunk asked with e | _ | piece
  · exact .inl ⟨e, rfl⟩
  · exact .inr (.inl ⟨rfl, rfl⟩)
  · dsimp only
    split
    next => exact .inl ⟨_, rfl⟩
    next hmax =>
      split
      next hvec =>
        refine .inr (.inr (.inl ⟨piece, rfl, ?_, rfl⟩))
        rw [limit]
        rw [maxVecLength] at hvec ⊢
        omega
      next hvec =>
        refine .inr (.inr (.inr ⟨?_, _, rfl⟩))
        rw [maxVecLength] at hvec ⊢
        omega

theorem asked_of_done {asked asked' : ℕ} {body : Bytes} {result : Result Bytes}
    (h : next chunk maxResponseBytes (.reading asked body) = .done asked' result) :
    asked' = asked + 1 := by
  obtain ⟨_, h'⟩ | ⟨-, h'⟩ | ⟨_, -, -, h'⟩ | ⟨-, _, h'⟩ :=
    next_reading chunk maxResponseBytes asked body
  · exact (Reading.done.inj (h'.symm.trans h)).1.symm
  · exact (Reading.done.inj (h'.symm.trans h)).1.symm
  · cases h'.symm.trans h
  · exact (Reading.done.inj (h'.symm.trans h)).1.symm

/-- A piece within the limit is gathered. -/
theorem next_piece {asked : ℕ} {body piece : Bytes} (hchunk : chunk asked = .ok (some piece))
    (h : body.length + piece.length ≤ limit maxResponseBytes) :
    next chunk maxResponseBytes (.reading asked body) = .reading (asked + 1) (body ++ piece) := by
  rw [limit, maxVecLength] at h
  rw [next, hchunk]
  dsimp only
  rw [if_neg (by omega), if_pos (by rw [maxVecLength]; omega)]

/-- While it is read, what is gathered is what was sent, within the limit. -/
theorem pieces_of_reading {n asked : ℕ} {body : Bytes}
    (h : (next chunk maxResponseBytes)^[n] start = .reading asked body) :
    asked = n ∧ ∃ pieces, pieces.length = n ∧ Pieces chunk pieces ∧ body = pieces.flatten ∧
      body.length ≤ limit maxResponseBytes := by
  induction n generalizing asked body with
  | zero =>
    obtain ⟨rfl, rfl⟩ := Reading.reading.inj h
    exact ⟨rfl, [], rfl, nofun, rfl, Nat.zero_le _⟩
  | succ n ih =>
    rw [Function.iterate_succ_apply'] at h
    rcases hs : (next chunk maxResponseBytes)^[n] start with ⟨asked', body'⟩ | ⟨asked', result⟩
    · rw [hs] at h
      obtain ⟨rfl, pieces, hn, hpieces, rfl, hlimit⟩ := ih hs
      obtain ⟨_, h'⟩ | ⟨-, h'⟩ | ⟨piece, hchunk, hpiece, h'⟩ | ⟨-, _, h'⟩ :=
        next_reading chunk maxResponseBytes asked' pieces.flatten
      · cases h'.symm.trans h
      · cases h'.symm.trans h
      · obtain ⟨rfl, rfl⟩ := Reading.reading.inj (h'.symm.trans h)
        refine ⟨rfl, pieces ++ [piece], by rw [List.length_append, hn]; rfl,
          hpieces.concat (hn ▸ hchunk), by simp, by rwa [List.length_append]⟩
      · cases h'.symm.trans h
    · rw [hs] at h
      cases h

/-- Pieces that are within the limit together are gathered. -/
theorem iterate_next_of_pieces {pieces : List Bytes} (h : Pieces chunk pieces)
    (hlimit : pieces.flatten.length ≤ limit maxResponseBytes) :
    (next chunk maxResponseBytes)^[pieces.length] start =
      .reading pieces.length pieces.flatten := by
  induction pieces using List.reverseRecOn with
  | nil => rfl
  | append_singleton pieces piece ih =>
    have hchunk := h pieces.length (by simp)
    rw [List.getElem_concat_length rfl] at hchunk
    rw [List.flatten_append, List.length_append, List.flatten_singleton] at hlimit
    rw [List.length_append, List.length_singleton, Function.iterate_succ_apply',
      ih h.of_append (by omega), next_piece hchunk hlimit, List.flatten_append,
      List.flatten_singleton]

/-- What is done was done in the round after one that still read. -/
theorem exists_reading_of_done {n asked : ℕ} {result : Result Bytes}
    (h : (next chunk maxResponseBytes)^[n] start = .done asked result) :
    ∃ m body, m < n ∧ (next chunk maxResponseBytes)^[m] start = .reading m body ∧
      next chunk maxResponseBytes (.reading m body) = .done asked result := by
  induction n with
  | zero => cases h
  | succ n ih =>
    rw [Function.iterate_succ_apply'] at h
    rcases hs : (next chunk maxResponseBytes)^[n] start with ⟨asked', body⟩ | ⟨asked', result'⟩
    · obtain ⟨rfl, -⟩ := pieces_of_reading hs
      exact ⟨asked', body, Nat.lt_succ_self _, hs, hs ▸ h⟩
    · rw [hs] at h
      obtain ⟨m, body, hm, hreading, hdone⟩ := ih (hs.trans h)
      exact ⟨m, body, hm.trans (Nat.lt_succ_self n), hreading, hdone⟩

/-- A body that was read was sent, and ended, within the limit. -/
theorem pieces_of_done {n asked : ℕ} {body : Bytes}
    (h : (next chunk maxResponseBytes)^[n] start = .done asked (.ok body)) :
    ∃ pieces, Pieces chunk pieces ∧ chunk pieces.length = .ok none ∧ body = pieces.flatten ∧
      body.length ≤ limit maxResponseBytes := by
  obtain ⟨m, body', -, hreading, hdone⟩ := exists_reading_of_done h
  obtain ⟨-, pieces, rfl, hpieces, rfl, hlimit⟩ := pieces_of_reading hreading
  obtain ⟨_, h'⟩ | ⟨hchunk, h'⟩ | ⟨_, -, -, h'⟩ | ⟨-, _, h'⟩ :=
    next_reading chunk maxResponseBytes pieces.length pieces.flatten
  · cases h'.symm.trans hdone
  · obtain ⟨-, hbody⟩ := Reading.done.inj (h'.symm.trans hdone)
    obtain rfl := Except.ok.inj hbody
    exact ⟨pieces, hpieces, hchunk, rfl, hlimit⟩
  · cases h'.symm.trans hdone
  · cases h'.symm.trans hdone

/-- A round after the last one changes nothing. -/
theorem iterate_next_done {n asked : ℕ} {result : Result Bytes} :
    (next chunk maxResponseBytes)^[n] (.done asked result) = .done asked result :=
  Function.iterate_fixed rfl n

/-- Reading a body ends with it iff its pieces are within the limit together. -/
theorem exists_whileLoop_done_iff {body : Bytes} :
    (∃ fuel asked, whileLoop isReading (next chunk maxResponseBytes) fuel start =
      some (.done asked (.ok body))) ↔
    ∃ pieces, Pieces chunk pieces ∧ chunk pieces.length = .ok none ∧ body = pieces.flatten ∧
      body.length ≤ limit maxResponseBytes := by
  constructor
  · rintro ⟨fuel, asked, h⟩
    obtain ⟨n, -, hn, -, -⟩ := whileLoop_eq_some_iff.1 h
    exact pieces_of_done hn.symm
  · rintro ⟨pieces, hpieces, hend, rfl, hlimit⟩
    refine ⟨pieces.length + 2, pieces.length + 1, whileLoop_eq_some_iff.2
      ⟨pieces.length + 1, Nat.lt_succ_self _, ?_, rfl, fun i hi => ?_⟩⟩
    · rw [Function.iterate_succ_apply', iterate_next_of_pieces hpieces hlimit, next, hend]
    · -- Had it been over before, it would not have come to the last piece.
      rcases hs : (next chunk maxResponseBytes)^[i] start with _ | ⟨asked, result⟩
      · rfl
      · have hlater : (next chunk maxResponseBytes)^[pieces.length] start =
            .done asked result := by
          obtain ⟨d, hd⟩ := Nat.exists_eq_add_of_le' (Nat.le_of_lt_succ hi)
          rw [hd, Function.iterate_add_apply, hs, iterate_next_done]
        rw [iterate_next_of_pieces hpieces hlimit] at hlater
        cases hlater

/-- How often a server that always sends something is asked for more. -/
theorem asked_le {n asked : ℕ} {body : Bytes} (hsends : ∀ k, chunk k ≠ .ok (some []))
    (h : (next chunk maxResponseBytes)^[n] start = .reading asked body) :
    n ≤ limit maxResponseBytes := by
  obtain ⟨-, pieces, rfl, hpieces, rfl, hlimit⟩ := pieces_of_reading h
  refine le_trans ?_ hlimit
  rw [List.length_flatten]
  have hone : ∀ piece ∈ pieces.map List.length, 1 ≤ piece := by
    intro length hlength
    obtain ⟨piece, hpiece, rfl⟩ := List.mem_map.1 hlength
    obtain ⟨k, hk, rfl⟩ := List.mem_iff_getElem.1 hpiece
    exact List.length_pos_iff.2 fun hnil => hsends k (hnil ▸ hpieces k hk)
  have hsum := List.card_nsmul_le_sum _ 1 hone
  rwa [List.length_map, smul_eq_mul, mul_one] at hsum

end Reading

open Reading

/-- Whatever the server sends: what is gathered before the end is within the limit, and
    the end is not put off, once the limit is reached, by sending more. Only a limit that no
    vector can have lets reading panic. -/
theorem reading_bounded (response : Response) (maxResponseBytes : UInt64) :
    (∀ n asked body, (next response.chunk maxResponseBytes)^[n] start = .reading asked body →
      asked = n ∧ body.length ≤ limit maxResponseBytes) ∧
    ((∀ k, response.chunk k ≠ .ok (some [])) → ∃ fuel asked result,
      whileLoop isReading (next response.chunk maxResponseBytes) fuel start =
          some (.done asked result) ∧ asked ≤ limit maxResponseBytes + 1) ∧
    ∀ n asked p, (next response.chunk maxResponseBytes)^[n] start =
      .done asked (.error (.panic p)) → maxVecLength ≤ maxResponseBytes.toNat := by
  refine ⟨fun n asked body h => ?_, fun hsends => ?_, fun n asked p h => ?_⟩
  · obtain ⟨hn, _, -, -, -, hlimit⟩ := pieces_of_reading h
    exact ⟨hn, hlimit⟩
  · -- A server that always sends something is past the limit by then.
    have hends : ∃ n, isReading
        ((next response.chunk maxResponseBytes)^[n] start) = false := by
      refine ⟨limit maxResponseBytes + 1, ?_⟩
      rcases hs : (next response.chunk maxResponseBytes)^[limit maxResponseBytes + 1] start with
        ⟨asked, body⟩ | _
      · exact absurd (asked_le hsends hs) (by omega)
      · rfl
    obtain ⟨fuel, s, hs⟩ := exists_whileLoop_iff.2 hends
    obtain ⟨n, -, rfl, hdone, -⟩ := whileLoop_eq_some_iff.1 hs
    rcases hn : (next response.chunk maxResponseBytes)^[n] start with _ | ⟨asked, result⟩
    · rw [hn] at hdone
      cases hdone
    · refine ⟨fuel, asked, result, hn ▸ hs, ?_⟩
      obtain ⟨m, body, -, hreading, hlast⟩ := exists_reading_of_done hn
      rw [asked_of_done hlast]
      exact Nat.succ_le_succ (asked_le hsends hreading)
  · -- Of all that a round can do, only a push to a full vector panics.
    obtain ⟨m, body, -, -, hlast⟩ := exists_reading_of_done h
    obtain ⟨_, h'⟩ | ⟨-, h'⟩ | ⟨_, -, -, h'⟩ | ⟨hmax, -⟩ :=
      next_reading response.chunk maxResponseBytes m body
    · cases h'.symm.trans hlast
    · cases h'.symm.trans hlast
    · cases h'.symm.trans hlast
    · exact hmax

/-! ## Calls -/

section

variable {V : Type} (display : Json → String) (refusal : Shape → Json → String)
  (utf8Refusal : Bytes → String) (fromStr : String → Except String Json) (c : Custom V)

/-- A call whose request was sent, if the server ends its answer in time. -/
def callOverHttp (s : Shape) (sent : Except PhantasmaError Response) (maxResponseBytes : UInt64)
    (requestId : UInt64) (fuel : ℕ) : Option (Result (Data V)) :=
  (postJson utf8Refusal fromStr sent maxResponseBytes fuel).map fun answer =>
    call display refusal c s answer requestId

variable {display refusal utf8Refusal fromStr c}

theorem parseBody_eq_ok {status status' : UInt16} {text : String} {body : Json} :
    parseBody fromStr status text = .ok (status', body) ↔
      status' = status ∧ fromStr text = .ok body := by
  rw [parseBody]
  rcases fromStr text with err | value
  · dsimp only
    split
    · exact ⟨nofun, nofun⟩
    · exact ⟨nofun, nofun⟩
  · constructor
    · rintro ⟨⟩
      exact ⟨rfl, rfl⟩
    · rintro ⟨rfl, h⟩
      rw [Except.ok.inj h]
      rfl

theorem bodyText_eq_ok {status status' : UInt16} {body : Bytes} {text : String} :
    bodyText utf8Refusal status body = .ok (status', text) ↔
      status' = status ∧ body = utf8 text := by
  rw [bodyText]
  constructor
  · intro h
    split at h
    next text' htext =>
      cases h
      exact ⟨rfl, (utf8_of_fromUtf8 htext).symm⟩
    next => cases h
  · rintro ⟨rfl, rfl⟩
    rw [fromUtf8_utf8]
    rfl

theorem any_contentLength_iff {contentLength : Option UInt64} {maxResponseBytes : UInt64} :
    contentLength.any (maxResponseBytes < ·) ↔
      ¬∀ length, contentLength = some length → length ≤ maxResponseBytes := by
  rcases contentLength with - | length
  · simp
  · simp

/-- Reading a response to its end gives a text iff the body that is gathered is one. -/
theorem exists_bodyText_iff {response : Response} {maxResponseBytes : UInt64} {status : UInt16}
    {text : String} : (∃ fuel, (whileLoop isReading (next response.chunk maxResponseBytes) fuel
      start).bind (fun s => s.result?.map fun result => do
        let body ← result
        bodyText utf8Refusal response.status body) = some (.ok (status, text))) ↔
    status = response.status ∧ ∃ fuel asked,
      whileLoop isReading (next response.chunk maxResponseBytes) fuel start =
        some (.done asked (.ok (utf8 text))) := by
  constructor
  · rintro ⟨fuel, h⟩
    obtain ⟨_ | ⟨asked, result⟩, hs, h⟩ := Option.bind_eq_some_iff.1 h
    · cases h
    · obtain ⟨body, rfl, htext⟩ := bind_eq_ok.1 (Option.some.inj h)
      obtain ⟨rfl, rfl⟩ := bodyText_eq_ok.1 htext
      exact ⟨rfl, fuel, asked, hs⟩
  · rintro ⟨rfl, fuel, asked, hs⟩
    refine ⟨fuel, Option.bind_eq_some_iff.2 ⟨_, hs, congrArg some ?_⟩⟩
    exact bind_eq_ok.2 ⟨utf8 text, rfl, bodyText_eq_ok.2 ⟨rfl, rfl⟩⟩

/-- A response is read as a text iff it is one, and says to be and is within the limit. -/
theorem exists_readLimitedResponseText_iff {response : Response} {maxResponseBytes : UInt64}
    {status : UInt16} {text : String} :
    (∃ fuel, readLimitedResponseText utf8Refusal response maxResponseBytes fuel =
      some (.ok (status, text))) ↔
    status = response.status ∧ maxResponseBytes ≠ 0 ∧
      (∀ length, response.contentLength = some length → length ≤ maxResponseBytes) ∧
      ∃ pieces, Pieces response.chunk pieces ∧ response.chunk pieces.length = .ok none ∧
        utf8 text = pieces.flatten ∧ pieces.flatten.length ≤ limit maxResponseBytes := by
  simp only [readLimitedResponseText]
  split
  next hzero =>
    refine iff_of_false ?_ fun h => h.2.1 hzero
    rintro ⟨_, ⟨⟩⟩
  next hpos =>
    split
    next hlong =>
      refine iff_of_false ?_ fun h => any_contentLength_iff.1 hlong h.2.2.1
      rintro ⟨_, ⟨⟩⟩
    next hshort =>
      rw [exists_bodyText_iff, exists_whileLoop_done_iff, and_iff_right hpos,
        and_iff_right (not_not.1 fun h => hshort (any_contentLength_iff.2 h))]
      refine and_congr_right fun _ => exists_congr fun pieces => ?_
      refine and_congr_right fun _ => and_congr_right fun _ => and_congr_right fun htext => ?_
      rw [htext]

/-- A call returns a value iff all the server sends, in whatever pieces, is within the limit
    and the text of the response to the call. -/
theorem callOverHttp_eq_ok_iff (display : Json → String) (refusal : Shape → Json → String)
    (utf8Refusal : Bytes → String) (fromStr : String → Except String Json) (c : Custom V)
    (s : Shape) (sent : Except PhantasmaError Response) (maxResponseBytes requestId : UInt64)
    (data : Data V) :
    (∃ fuel, callOverHttp display refusal utf8Refusal fromStr c s sent maxResponseBytes requestId
      fuel = some (.ok data)) ↔
    ∃ response pieces text object result, sent = .ok response ∧ maxResponseBytes ≠ 0 ∧
      (∀ length, response.contentLength = some length → length ≤ maxResponseBytes) ∧
      Pieces response.chunk pieces ∧ response.chunk pieces.length = .ok none ∧
      pieces.flatten.length ≤ limit maxResponseBytes ∧ pieces.flatten = utf8 text ∧
      fromStr text = .ok (.object object) ∧ Answers requestId response.status object result ∧
      decode c s result = some data := by
  constructor
  · rintro ⟨fuel, h⟩
    obtain ⟨answer, hanswer, hcall⟩ := Option.map_eq_some_iff.1 h
    obtain ⟨status, object, result, rfl, hanswers, hdata⟩ := call_eq_ok.1 hcall
    -- Backwards from the value: what was parsed, and what was gathered.
    rcases sent with e | response
    · cases hanswer
    · obtain ⟨read, hread, hparse⟩ := Option.map_eq_some_iff.1 hanswer
      obtain ⟨⟨status', text⟩, rfl, hparse⟩ := bind_eq_ok.1 hparse
      obtain ⟨rfl, hobject⟩ := parseBody_eq_ok.1 hparse
      obtain ⟨rfl, hpos, hlength, pieces, hpieces, hend, htext, hlimit⟩ :=
        exists_readLimitedResponseText_iff.1 ⟨fuel, hread⟩
      exact ⟨response, pieces, text, object, result, rfl, hpos, hlength, hpieces, hend, hlimit,
        htext.symm, hobject, hanswers, hdata⟩
  · rintro ⟨response, pieces, text, object, result, rfl, hpos, hlength, hpieces, hend, hlimit,
      htext, hobject, hanswers, hdata⟩
    obtain ⟨fuel, hread⟩ : ∃ fuel, readLimitedResponseText utf8Refusal response maxResponseBytes
        fuel = some (.ok (response.status, text)) := exists_readLimitedResponseText_iff.2
      ⟨rfl, hpos, hlength, pieces, hpieces, hend, htext.symm, hlimit⟩
    refine ⟨fuel, Option.map_eq_some_iff.2 ⟨.ok (response.status, .object object), ?_,
      call_eq_ok.2 ⟨_, object, result, rfl, hanswers, hdata⟩⟩⟩
    refine Option.map_eq_some_iff.2 ⟨_, hread, ?_⟩
    exact bind_eq_ok.2 ⟨_, rfl, parseBody_eq_ok.2 ⟨rfl, hobject⟩⟩

end

end PhantasmaSdk.Rpc
