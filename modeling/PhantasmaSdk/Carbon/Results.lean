import PhantasmaSdk.Carbon.NftAddress
import PhantasmaSdk.Carbon.VmHostile
import PhantasmaSdk.Codec.Framing
import PhantasmaSdk.Text

/-!
# Results of transactions

What a transaction has created is in its result: the encoding of an id, or of an array,
in hexadecimal digits. The parsers take the digits in either case, with a prefix and with
white space around them, and accept the encodings of values and nothing else
(`results_parsed`). A minted instance is given by its address, which has both ids in it.

What is said of bytes that are no digits is a parameter.
-/

namespace PhantasmaSdk

open Codec Codec.Decoder CarbonWriter CarbonReader

/-! ## Hexadecimal digits -/

def encoding {α : Type} (message : String) : Result α := .error (.error (.encoding message))

/-- The text after `0x`, in either case. -/
def stripHexPrefix : List Char → List Char
  | '0' :: 'x' :: text => text
  | '0' :: 'X' :: text => text
  | text => text

section

variable (refusal : Bytes → String)

def decodeHex (value : String) : Result Bytes :=
  let digits := utf8 (String.ofList (stripHexPrefix (trim value).toList))
  if digits.length % 2 ≠ 0 then encoding "hex value must contain an even number of digits"
  else
    match hexDecode digits with
    | some raw => pure raw
    | none => encoding (refusal digits)

/-! ## Parsing -/

/-- The value that the digits encode, of which nothing may be left. -/
def parseResult {α : Type} (d : Reader α) (resultHex : String) : Result α := do
  let data ← decodeHex refusal resultHex
  let (value, rest) ← d.run data
  -- `assert_eof`
  if rest.length ≠ 0 then serialization s!"unexpected trailing bytes: {rest.length}"
  else pure value

def parseCreateTokenResult : String → Result UInt64 := parseResult refusal read8u

def parseCreateTokenSeriesResult : String → Result UInt32 := parseResult refusal read4u

/-- The addresses of the instances of a token. -/
def readNftAddresses (carbonTokenId : UInt64) : Reader (List Bytes32) :=
  readReserved 8 do
    let instanceId ← read8u
    pure (getNftAddress carbonTokenId instanceId)

def parseMintNonFungibleResult (carbonTokenId : UInt64) : String → Result (List Bytes32) :=
  parseResult refusal (readNftAddresses carbonTokenId)

def parseMintPhantasmaNonFungibleResult : String → Result (List PhantasmaNFTMintResult) :=
  parseResult refusal (readReserved 40 readCarbon)

end

/-- The two halves of the id of an instance. -/
def unpackNftInstanceId (instanceId : UInt64) : UInt32 × UInt32 :=
  ((instanceId &&& 0xFFFFFFFF).toUInt32, ((instanceId >>> 32) &&& 0xFFFFFFFF).toUInt32)

/-! ## Digits -/

theorem utf8_ofList (cs : List Char) :
    utf8 (String.ofList cs) = cs.flatMap String.utf8EncodeChar := by
  rw [utf8, String.toByteArray_ofList, List.utf8Encode]
  simp

theorem halves (b : UInt8) :
    UInt8.ofNat (b.toNat / 16) <<< 4 ||| UInt8.ofNat (b.toNat % 16) = b := by
  have h : ∀ n : Fin 256, UInt8.ofNat ((UInt8.ofNat n).toNat / 16) <<< 4 |||
      UInt8.ofNat ((UInt8.ofNat n).toNat % 16) = UInt8.ofNat n := by decide +kernel
  simpa using h ⟨b.toNat, b.toNat_lt⟩

/-- What no character is, and every digit is. -/
theorem digitChar_spec (n : Fin 16) : isWhitespace (Nat.digitChar n) = false ∧
    Nat.digitChar n ≠ 'x' ∧ Nat.digitChar n ≠ 'X' := by
  revert n
  decide

/-- The digits of bytes, as characters. -/
def hexChars (raw : Bytes) : List Char :=
  raw.flatMap fun b => [Nat.digitChar (b.toNat / 16), Nat.digitChar (b.toNat % 16)]

theorem exists_of_mem_hexChars {raw : Bytes} {c : Char} (h : c ∈ hexChars raw) :
    ∃ n : Fin 16, c = Nat.digitChar n := by
  obtain ⟨b, -, hc⟩ := List.mem_flatMap.1 h
  have hb := b.toNat_lt
  rcases List.mem_pair.1 hc with rfl | rfl
  · exact ⟨⟨b.toNat / 16, by omega⟩, rfl⟩
  · exact ⟨⟨b.toNat % 16, by omega⟩, rfl⟩

theorem hexDigit_of_le {b : UInt8} (h : 128 ≤ b) : hexDigit b = none := by
  have hle (n : UInt8) (hn : n < 128) : ¬b ≤ n := fun hb =>
    absurd (UInt8.lt_of_le_of_lt (UInt8.le_trans h hb) hn) (UInt8.lt_irrefl _)
  rw [hexDigit, if_neg fun hb => hle 57 (by decide) hb.2, if_neg fun hb => hle 102 (by decide) hb.2,
    if_neg fun hb => hle 70 (by decide) hb.2]

/-- A character is its own byte, or begins with one that has no value as a digit. -/
theorem utf8EncodeChar_cases (c : Char) :
    (c.toNat < 128 ∧ String.utf8EncodeChar c = [c.toNat.toUInt8]) ∨
      128 ≤ c.toNat ∧ ∃ b bs, String.utf8EncodeChar c = b :: bs ∧ hexDigit b = none := by
  have hlead (n : ℕ) (h : 128 ≤ n) (hlt : n < 256) : hexDigit (UInt8.ofNat n) = none :=
    hexDigit_of_le (by rw [UInt8.le_iff_toNat_le, UInt8.toNat_ofNat_of_lt' hlt]; exact h)
  rw [String.utf8EncodeChar.eq_def]
  dsimp only
  split
  next h => exact .inl ⟨Nat.lt_succ_of_le h, rfl⟩
  next h =>
    refine .inr ⟨Nat.not_le.1 h, ?_⟩
    split
    · exact ⟨_, _, rfl, hlead _ (by omega) (by omega)⟩
    split
    · exact ⟨_, _, rfl, hlead _ (by omega) (by omega)⟩
    · exact ⟨_, _, rfl, hlead _ (by omega) (by omega)⟩

/-- What is decoded, after one more pair. -/
theorem hexDecode_pair_eq_some {high low : UInt8} {digits raw : Bytes} :
    hexDecode (high :: low :: digits) = some raw ↔ ∃ h l raw', hexDigit high = some h ∧
      hexDigit low = some l ∧ hexDecode digits = some raw' ∧ (h <<< 4 ||| l) :: raw' = raw := by
  rw [hexDecode]
  simp only [Option.bind_eq_bind, Option.bind_eq_some_iff, Option.pure_def, Option.some.injEq]
  constructor
  · rintro ⟨h, hh, l, hl, raw', hraw, rfl⟩
    exact ⟨h, l, raw', hh, hl, hraw, rfl⟩
  · rintro ⟨h, l, raw', hh, hl, hraw, rfl⟩
    exact ⟨h, hh, l, hl, raw', hraw, rfl⟩

/-- A character has a value if, in lower case, it is the digit of it. -/
theorem hexDigit_eq_some {c : Char} (hc : c.toNat < 128) (v : Fin 16) :
    hexDigit c.toNat.toUInt8 = some (UInt8.ofNat v) ↔ c.toLower = Nat.digitChar v := by
  have h : ∀ n : Fin 128, ∀ v : Fin 16, hexDigit n.val.toUInt8 = some (UInt8.ofNat v) ↔
      (Char.ofNat n).toLower = Nat.digitChar v := by
    decide +kernel
  simpa using h ⟨c.toNat, hc⟩ v

theorem exists_fin_of_hexDigit {b v : UInt8} (h : hexDigit b = some v) :
    ∃ n : Fin 16, v = UInt8.ofNat n := by
  have hall : ∀ n : Fin 256, ∀ v, hexDigit (UInt8.ofNat n) = some v → v < 16 := by
    intro n
    revert n
    decide +kernel
  have hlt : v < 16 := hall ⟨b.toNat, b.toNat_lt⟩ v (by simpa using h)
  exact ⟨⟨v.toNat, UInt8.lt_iff_toNat_lt.1 hlt⟩, (UInt8.ofNat_toNat).symm⟩

/-- A character is a digit, in either case, or begins with a byte that has no value. -/
theorem digit_cases (c : Char) :
    (∃ b, ∃ n : Fin 16, String.utf8EncodeChar c = [b] ∧ hexDigit b = some (UInt8.ofNat n) ∧
      c.toLower = Nat.digitChar n) ∨
    (∃ b bs, String.utf8EncodeChar c = b :: bs ∧ hexDigit b = none) ∧
      ∀ n : Fin 16, c.toLower ≠ Nat.digitChar n := by
  rcases utf8EncodeChar_cases c with ⟨hc, hone⟩ | ⟨hc, hnone⟩
  · cases hdigit : hexDigit c.toNat.toUInt8 with
    | some v =>
      obtain ⟨n, rfl⟩ := exists_fin_of_hexDigit hdigit
      exact .inl ⟨_, n, hone, hdigit, (hexDigit_eq_some hc n).1 hdigit⟩
    | none =>
      refine .inr ⟨⟨_, [], hone, hdigit⟩, fun n hn => ?_⟩
      rw [(hexDigit_eq_some hc n).2 hn] at hdigit
      cases hdigit
  · refine .inr ⟨hnone, fun n hn => ?_⟩
    -- Such a character has no other case.
    have hlower : c.toLower = c := by
      rw [Char.toLower.eq_def, dif_neg]
      rintro ⟨-, hle⟩
      exact absurd (UInt32.le_iff_toNat_le.1 hle) (Nat.not_le.2 (lt_of_lt_of_le (by decide) hc))
    have hsmall : ∀ n : Fin 16, (Nat.digitChar n).toNat < 128 := by decide
    rw [hlower] at hn
    exact absurd hc (Nat.not_le.2 (hn ▸ hsmall n))

theorem halves_of_digits (h l : Fin 16) :
    (UInt8.ofNat h <<< 4 ||| UInt8.ofNat l).toNat / 16 = h ∧
      (UInt8.ofNat h <<< 4 ||| UInt8.ofNat l).toNat % 16 = l := by
  revert h l
  decide

theorem digitChar_inj {h l : Fin 16} (hd : Nat.digitChar h = Nat.digitChar l) : h = l := by
  revert h l
  decide

theorem hexDecode_of_none {b : UInt8} {bs : Bytes} (h : hexDigit b = none) :
    hexDecode (b :: bs) = none := by
  cases bs with
  | nil => rfl
  | cons b' bs =>
    rw [hexDecode, h]
    rfl

/-- Characters are decoded as bytes iff they are, in lower case, the digits of these. -/
theorem hexDecode_eq_some_iff : ∀ (cs : List Char) (raw : Bytes),
    hexDecode (cs.flatMap String.utf8EncodeChar) = some raw ↔
      cs.map Char.toLower = hexChars raw
  | [], [] => by simp [hexDecode, hexChars]
  | [], b :: raw => by simp [hexDecode, hexChars]
  | [c], raw => by
    refine iff_of_false (fun h => ?_) fun h => ?_
    · rcases digit_cases c with ⟨b, n, hc, -⟩ | ⟨⟨b, bs, hc, hnone⟩, -⟩
      · rw [List.flatMap_singleton, hc] at h
        cases h
      · rw [List.flatMap_singleton, hc, hexDecode_of_none hnone] at h
        cases h
    · rcases raw with _ | ⟨b, raw⟩ <;> simp [hexChars] at h
  | c :: c' :: cs, raw => by
    have hdigits (b : UInt8) : ∃ h l : Fin 16, (h : ℕ) = b.toNat / 16 ∧ (l : ℕ) = b.toNat % 16 :=
      ⟨⟨b.toNat / 16, by have := b.toNat_lt; omega⟩, ⟨b.toNat % 16, by omega⟩, rfl, rfl⟩
    rcases digit_cases c with ⟨b, n, hc, hdigit, hlower⟩ | ⟨⟨b, bs, hc, hnone⟩, hlower⟩
    · rcases digit_cases c' with ⟨b', n', hc', hdigit', hlower'⟩ | ⟨⟨b', bs, hc', hnone⟩, hlower'⟩
      · -- Two digits, and the rest.
        rw [List.flatMap_cons, List.flatMap_cons, hc, hc', List.map_cons, List.map_cons, hlower,
          hlower']
        simp only [List.cons_append, List.nil_append]
        rw [hexDecode_pair_eq_some]
        constructor
        · rintro ⟨_, _, raw', hh, hl, hraw, rfl⟩
          obtain rfl := Option.some.inj (hdigit.symm.trans hh)
          obtain rfl := Option.some.inj (hdigit'.symm.trans hl)
          obtain ⟨hhigh, hlow⟩ := halves_of_digits n n'
          rw [hexChars, List.flatMap_cons, hhigh, hlow, ← hexChars,
            (hexDecode_eq_some_iff cs raw').1 hraw]
          rfl
        · rcases raw with _ | ⟨b, raw⟩
          · rintro ⟨⟩
          intro heq
          obtain ⟨h, l, hh, hl⟩ := hdigits b
          rw [hexChars, List.flatMap_cons, ← hexChars, ← hh, ← hl] at heq
          obtain ⟨hhigh, hafter⟩ := List.cons.inj heq
          obtain ⟨hlow, hrest⟩ := List.cons.inj hafter
          obtain rfl := digitChar_inj hhigh
          obtain rfl := digitChar_inj hlow
          refine ⟨_, _, raw, hdigit, hdigit', (hexDecode_eq_some_iff cs raw).2 hrest, ?_⟩
          rw [hh, hl, halves]
      · refine iff_of_false (fun h => ?_) fun h => ?_
        · rw [List.flatMap_cons, List.flatMap_cons, hc, hc'] at h
          obtain ⟨_, l, _, _, hl, _⟩ := hexDecode_pair_eq_some.1 h
          rw [hnone] at hl
          cases hl
        · rcases raw with _ | ⟨b, raw⟩
          · cases h
          obtain ⟨_, l, _, hl⟩ := hdigits b
          rw [hexChars, List.flatMap_cons, ← hl] at h
          exact hlower' l (List.cons.inj (List.cons.inj h).2).1
    · refine iff_of_false (fun h => ?_) fun h => ?_
      · rw [List.flatMap_cons, hc, List.cons_append, hexDecode_of_none hnone] at h
        cases h
      · rcases raw with _ | ⟨b, raw⟩
        · cases h
        obtain ⟨n, _, hn, _⟩ := hdigits b
        rw [hexChars, List.flatMap_cons, ← hn] at h
        exact hlower n (List.cons.inj h).1

theorem map_toLower_hexChars (raw : Bytes) : (hexChars raw).map Char.toLower = hexChars raw := by
  have hlower : ∀ n : Fin 16, (Nat.digitChar n).toLower = Nat.digitChar n := by decide
  have hself : ∀ c ∈ hexChars raw, c.toLower = id c := fun c hc => by
    obtain ⟨n, rfl⟩ := exists_of_mem_hexChars hc
    exact hlower n
  rw [List.map_congr_left hself, List.map_id]

theorem dropWhile_eq_self {cs : List Char} {p : Char → Bool} (h : ∀ c ∈ cs, p c = false) :
    cs.dropWhile p = cs := by
  cases cs with
  | nil => rfl
  | cons c cs => exact List.dropWhile_cons_of_neg (by simp [h c List.mem_cons_self])

/-- Text without white space is trimmed to itself. -/
theorem trim_ofList {cs : List Char} (h : ∀ c ∈ cs, isWhitespace c = false) :
    trim (String.ofList cs) = String.ofList cs := by
  rw [trim, String.toList_ofList, dropWhile_eq_self h,
    dropWhile_eq_self fun c hc => h c (List.mem_reverse.1 hc), List.reverse_reverse]

/-- Digits do not begin with a prefix. -/
theorem stripHexPrefix_hexChars (raw : Bytes) : stripHexPrefix (hexChars raw) = hexChars raw := by
  have hx (c : Char) (h : c ∈ hexChars raw) : c ≠ 'x' ∧ c ≠ 'X' := by
    obtain ⟨n, rfl⟩ := exists_of_mem_hexChars h
    exact (digitChar_spec n).2
  rw [stripHexPrefix.eq_def]
  split
  next heq => exact absurd rfl (hx 'x' (heq ▸ by simp)).1
  next heq => exact absurd rfl (hx 'X' (heq ▸ by simp)).2
  next => rfl

theorem even_length_of_hexDecode {digits raw : Bytes} (h : hexDecode digits = some raw) :
    digits.length % 2 = 0 := by
  induction digits using hexDecode.induct generalizing raw with
  | case1 => rfl
  | case2 high low digits ih =>
    rw [hexDecode] at h
    obtain ⟨_, _, hrest⟩ := Option.bind_eq_some_iff.1 h
    obtain ⟨_, _, hrest⟩ := Option.bind_eq_some_iff.1 hrest
    obtain ⟨raw', hraw, _⟩ := Option.bind_eq_some_iff.1 hrest
    have heven := ih hraw
    rw [List.length_cons, List.length_cons]
    omega
  | case3 => cases h

variable {refusal : Bytes → String}

/-- What is decoded are digits of the bytes, in either case, trimmed and without a prefix. -/
theorem decodeHex_eq_ok {value : String} {raw : Bytes} : decodeHex refusal value = .ok raw ↔
    (stripHexPrefix (trim value).toList).map Char.toLower = (hexEncode raw).toList := by
  have hdigits : (hexEncode raw).toList = hexChars raw := String.toList_ofList
  rw [hdigits, ← hexDecode_eq_some_iff, ← utf8_ofList]
  simp only [decodeHex]
  rcases hraw : hexDecode (utf8 (String.ofList (stripHexPrefix (trim value).toList))) with - | raw'
  · split
    · exact ⟨nofun, nofun⟩
    · exact ⟨nofun, nofun⟩
  · rw [if_neg (not_not.2 (even_length_of_hexDecode hraw))]
    exact Except.ok.injEq raw' raw ▸ (Option.some.injEq raw' raw).symm ▸ Iff.rfl

/-- Digits that bytes are encoded in are decoded as them. -/
theorem decodeHex_hexEncode (raw : Bytes) : decodeHex refusal (hexEncode raw) = .ok raw := by
  have htrim : trim (hexEncode raw) = String.ofList (hexChars raw) := by
    refine trim_ofList fun c hc => ?_
    obtain ⟨n, rfl⟩ := exists_of_mem_hexChars hc
    exact (digitChar_spec n).1
  have hdigits : (hexEncode raw).toList = hexChars raw := String.toList_ofList
  rw [decodeHex_eq_ok, htrim, String.toList_ofList, stripHexPrefix_hexChars, hdigits,
    map_toLower_hexChars]

theorem noPanic_decodeHex (value : String) : NoPanic (decodeHex refusal value) := by
  simp only [decodeHex]
  split
  · exact noPanic_error_iff.2 (Fault.not_isPanic_error _)
  · split
    · exact noPanic_ok _
    · exact noPanic_error_iff.2 (Fault.not_isPanic_error _)

/-! ## What is accepted -/

theorem parseResult_eq_ok {α : Type} {d : Reader α} {text : String} {value : α} :
    parseResult refusal d text = .ok value ↔
      ∃ data, decodeHex refusal text = .ok data ∧ d.run data = .ok (value, []) := by
  rw [parseResult, bind_eq_ok]
  refine exists_congr fun data => and_congr_right fun _ => ?_
  rw [bind_eq_ok]
  constructor
  · rintro ⟨⟨v, rest⟩, hrun, h⟩
    simp only at h
    split at h
    next => cases h
    next hnil => rw [hrun, ← Except.ok.inj h, List.length_eq_zero_iff.1 (not_not.1 hnil)]
  · exact fun hrun => ⟨(value, []), hrun, rfl⟩

/-- A reader of one encoding for each value accepts its digits, and does not panic. -/
theorem parseResult_of_format (refusal : Bytes → String) {α : Type} {encode : α → Result Bytes}
    {d : Reader α} {Fits : α → Prop} {minLength : ℕ}
    (h : Format Fault.IsPanic encode d Fits (fun _ => True) minLength) (text : String) :
    (∀ value, parseResult refusal d text = .ok value ↔
      Fits value ∧ ∃ enc, encode value = .ok enc ∧ decodeHex refusal text = .ok enc) ∧
    NoPanic (parseResult refusal d text) := by
  constructor
  · intro value
    rw [parseResult_eq_ok]
    constructor
    · rintro ⟨data, hdata, hrun⟩
      obtain ⟨hfits, enc, henc, rfl⟩ := (h.run_eq_ok_iff fun _ => trivial).1 hrun
      exact ⟨hfits, enc, henc, (List.append_nil enc) ▸ hdata⟩
    · rintro ⟨hfits, enc, henc, hdata⟩
      exact ⟨enc, hdata, (h.reads value enc hfits henc).run_self⟩
  · refine (noPanic_decodeHex text).bind fun data => NoPanic.bind (h.safe data).1 fun p => ?_
    obtain ⟨value, rest⟩ := p
    dsimp only
    split
    · exact noPanic_serialization _
    · exact noPanic_ok _

/-- An array of values of a format, for which memory is asked. -/
theorem format_readReserved {α : Type} {encode : α → Result Bytes} {d : Reader α}
    {Fits : α → Prop} {size : ℕ}
    (h : Format Fault.IsPanic encode d Fits (fun _ => True) size) (hsize : 0 < size)
    (hsize' : size ≤ 2 ^ 32) :
    Format Fault.IsPanic (writeArray encode) (readReserved size d)
      (fun values => values.length < 2 ^ 31 ∧ ∀ v ∈ values, Fits v) (fun _ => True) 4 := by
  refine .of_exact ⟨fun values enc hfits hw => ?_, ?_, fun _ _ hw => le_length_writeArray hw⟩
    fun input => ?_
  · refine reads_readReserved hsize hsize' hfits.1 (fun v hv e he => ?_) hw
    exact ⟨h.reads v e (hfits.2 v hv) he, h.length_le v e he⟩
  · refine (yields_readReserved h.yields size).mono fun values used hused => ?_
    obtain ⟨hl, useds, rfl, hall⟩ := hused
    have hfits : ∀ v ∈ values, Fits v := fun v hv => by
      obtain ⟨_, _, hfits, -⟩ := exists_of_forall₂_mem hall hv
      exact hfits
    refine ⟨⟨hl, hfits⟩, _, writeArray_of_forall₂ (by omega) (hall.imp ?_), fun _ => rfl⟩
    rintro v used ⟨-, enc, henc, hexact⟩
    exact hexact trivial ▸ henc
  · refine safeOn_bind.2 ⟨safe_readLengthFor size, fun count mid hcount => ?_⟩
    refine safeOn_bind.2 ⟨(safeOn_reserve count mid).2 (le_of_run_readLengthFor hsize hcount), ?_⟩
    exact fun _ mid' _ => safeOn_replicate.2 fun stop _ => h.safe stop

/-- An address of an instance of a token stands for the id of the instance. -/
theorem format_nftAddress (tokenId : UInt64) :
    Format Fault.IsPanic (fun address : Bytes32 => pure (write8u (unpackNftAddress address).2))
      (do let instanceId ← read8u; pure (getNftAddress tokenId instanceId))
      (fun address => ∃ instanceId, getNftAddress tokenId instanceId = address) (fun _ => True)
      8 := by
  refine .of_exact ⟨?_, ?_, fun _ _ hw => ?_⟩ fun input => ?_
  · rintro _ enc ⟨instanceId, rfl⟩ hw
    obtain rfl := Except.ok.inj hw
    rw [unpackNftAddress_getNftAddress]
    exact (reads_read8u instanceId).map _
  · refine yields_read8u.bind fun instanceId used hused => yields_pure ?_
    refine ⟨⟨instanceId, rfl⟩, _, rfl, fun _ => ?_⟩
    rw [unpackNftAddress_getNftAddress, hused, List.append_nil]
  · exact (Except.ok.inj hw) ▸ (length_toLE 8 _).ge
  · exact safe_read8u.bind fun _ => safeOn_pure _ _

theorem exists_pure_eq_iff (raw : Bytes) {r : Result Bytes} :
    (True ∧ ∃ enc, (pure raw : Result Bytes) = .ok enc ∧ r = .ok enc) ↔ r = .ok raw := by
  rw [true_and]
  constructor
  · rintro ⟨enc, henc, h⟩
    exact h.trans henc.symm
  · exact fun h => ⟨raw, rfl, h⟩

/-- The addresses made of ids are written as the ids. -/
theorem writeArray_addresses {tokenId : UInt64} (ids : List UInt64) :
    writeArray (fun address : Bytes32 => pure (write8u (unpackNftAddress address).2))
      (ids.map (getNftAddress tokenId)) = writeU64Array ids := by
  rw [writeU64Array, writeArray, writeArray, List.length_map, List.mapM_map]
  simp only [Function.comp_def, unpackNftAddress_getNftAddress]

/-- Whatever text is given for a result is parsed as a value just when it is the digits of
    the value's encoding, and refused with an error otherwise. The addresses of instances
    are those of their ids; the digits are in either case, trimmed and without a prefix. -/
theorem results_parsed (refusal : Bytes → String) (carbonTokenId : UInt64) (text : String) :
    ((∀ tokenId, parseCreateTokenResult refusal text = .ok tokenId ↔
        decodeHex refusal text = .ok (write8u tokenId)) ∧
      NoPanic (parseCreateTokenResult refusal text)) ∧
    ((∀ seriesId, parseCreateTokenSeriesResult refusal text = .ok seriesId ↔
        decodeHex refusal text = .ok (write4u seriesId)) ∧
      NoPanic (parseCreateTokenSeriesResult refusal text)) ∧
    ((∀ addresses, parseMintNonFungibleResult refusal carbonTokenId text = .ok addresses ↔
        ∃ ids : List UInt64, addresses = ids.map (getNftAddress carbonTokenId) ∧
          ids.length < 2 ^ 31 ∧
          ∃ enc, writeU64Array ids = .ok enc ∧ decodeHex refusal text = .ok enc) ∧
      NoPanic (parseMintNonFungibleResult refusal carbonTokenId text)) ∧
    ((∀ results, parseMintPhantasmaNonFungibleResult refusal text = .ok results ↔
        results.length < 2 ^ 31 ∧
          ∃ enc, writeCarbonArray results = .ok enc ∧ decodeHex refusal text = .ok enc) ∧
      NoPanic (parseMintPhantasmaNonFungibleResult refusal text)) ∧
    (∀ raw, decodeHex refusal text = .ok raw ↔
      (stripHexPrefix (trim text).toList).map Char.toLower = (hexEncode raw).toList) ∧
    ∀ raw, decodeHex refusal (hexEncode raw) = .ok raw := by
  have htoken := parseResult_of_format refusal format_write8u text
  have hseries := parseResult_of_format refusal format_write4u text
  have hmint := parseResult_of_format refusal
    (format_readReserved (format_nftAddress carbonTokenId) (by norm_num) (by norm_num)) text
  have hresults := parseResult_of_format refusal
    (format_readReserved PhantasmaNFTMintResult.record (by norm_num) (by norm_num)) text
  refine ⟨⟨fun id => (htoken.1 id).trans (exists_pure_eq_iff _), htoken.2⟩,
    ⟨fun id => (hseries.1 id).trans (exists_pure_eq_iff _), hseries.2⟩, ⟨fun addresses => ?_, hmint.2⟩,
    ⟨fun results => (hresults.1 results).trans (by simp [writeCarbonArray]), hresults.2⟩,
    fun _ => decodeHex_eq_ok, decodeHex_hexEncode⟩
  refine (hmint.1 addresses).trans ?_
  constructor
  · rintro ⟨⟨hl, hall⟩, hw⟩
    -- Addresses that are written are made of ids.
    obtain ⟨ids, rfl⟩ : ∃ ids : List UInt64, ids.map (getNftAddress carbonTokenId) = addresses :=
      (Set.range_list_map (getNftAddress carbonTokenId)).ge hall
    rw [writeArray_addresses] at hw
    exact ⟨ids, rfl, by rwa [List.length_map] at hl, hw⟩
  · rintro ⟨ids, rfl, hl, hw⟩
    rw [writeArray_addresses, List.length_map]
    refine ⟨⟨hl, fun address h => ?_⟩, hw⟩
    obtain ⟨id, -, rfl⟩ := List.mem_map.1 h
    exact ⟨id, rfl⟩

end PhantasmaSdk
