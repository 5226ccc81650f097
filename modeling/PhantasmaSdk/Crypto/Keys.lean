import PhantasmaSdk.Codec.Radix
import PhantasmaSdk.Crypto.Difficulty
import PhantasmaSdk.Vm.Helpers

/-!
# Keys and addresses as text

A private key is shown in Base58 between two bytes that mark it, with a checksum; an
address is shown as a letter for its kind and its bytes in Base58. What reads them
accepts, of a key, just the text it is shown as; of an address, the text it is shown
as unless it is of no valid kind (`fromWif_iff_and_fromText_toText`).

Base58 and the hash of bytes are taken from elsewhere. Of Base58 it is assumed that
encoding and decoding are inverse to each other (`Base58.Lawful`).
-/

namespace PhantasmaSdk

open Codec Vm

/-! ## Base58 -/

namespace Vm.Base58

/-- Encoding and decoding are inverse to each other, on the texts that can be decoded. -/
structure Lawful (base58 : Base58) (encode : Bytes → String) : Prop where
  decode_empty : base58.decode "" = .ok []
  decode_encode : ∀ data, base58.decode (encode data) = .ok data
  encode_decode : ∀ text data, base58.decode text = .ok data → encode data = text
  mem_alphabet : ∀ data, ∀ ch ∈ (encode data).toList, ch ∈ base58Alphabet.toList

variable {base58 : Base58} {encode : Bytes → String}

theorem Lawful.encode_ne_empty (h : base58.Lawful encode) {data : Bytes} (hdata : data ≠ []) :
    encode data ≠ "" := by
  intro hempty
  have hdecode := h.decode_encode data
  rw [hempty, h.decode_empty] at hdecode
  exact hdata (Except.ok.inj hdecode).symm

theorem Lawful.decodeBase58_encode (h : base58.Lawful encode) {data : Bytes} (hdata : data ≠ []) :
    decodeBase58 base58 (encode data) = .ok data := by
  have hnone : (encode data).toList.find? (· ∉ base58Alphabet.toList) = none :=
    List.find?_eq_none.2 fun ch hch => by simpa using h.mem_alphabet data ch hch
  rw [decodeBase58, if_neg (h.encode_ne_empty hdata), hnone]
  simp only [h.decode_encode]

theorem Lawful.encode_of_decodeBase58 (h : base58.Lawful encode) {text : String} {data : Bytes}
    (hdecode : decodeBase58 base58 text = .ok data) : encode data = text := by
  rw [decodeBase58] at hdecode
  split at hdecode
  next => cases hdecode
  next =>
    split at hdecode
    next => cases hdecode
    next =>
      split at hdecode
      next bytes hbytes =>
        obtain rfl := Except.ok.inj hdecode
        exact h.encode_decode text _ hbytes
      next => cases hdecode

end Vm.Base58

/-! ## Addresses -/

namespace Vm.Address

variable {base58 : Base58} {encode : Bytes → String}

def letter (address : Address) : Char :=
  match address.kind with
  | .system => 'S'
  | .interop => 'X'
  | _ => 'P'

def toText (encode : Bytes → String) (address : Address) : String :=
  if address = null then "NULL"
  else String.singleton address.letter ++ encode address.data.bytes

theorem tryFromSlice_data (address : Address) : tryFromSlice address.data.bytes = .ok address :=
  dif_pos address.data.length_eq

theorem letter_mem (address : Address) : address.letter ∈ ['P', 'S', 'X'] := by
  rw [letter]
  cases address.kind <;> decide

/-- A text that begins with a letter for a kind is read for what follows the letter. -/
theorem fromText_ofList (base58 : Base58) {letter ch : Char} (cs : List Char)
    (hletter : letter ∈ ['P', 'S', 'X']) :
    fromText base58 (String.ofList (letter :: ch :: cs)) = (do
      let data ← decodeBase58 base58 (String.ofList (ch :: cs))
      let address ← tryFromSlice data
      if letter = 'P' ∧ address.kind ≠ .user then crypto "address has to be of type User"
      else if letter = 'S' ∧ address.kind ≠ .system then crypto "address has to be of type System"
      else if letter = 'X' ∧ address.kind ≠ .interop then
        crypto "address has to be of type Interop"
      else .ok address) := by
  have hone : letter.utf8Size = 1 ∧ letter.toLower ≠ 'n' := by
    fin_cases hletter <;> decide
  have hnull : ¬(String.ofList (letter :: ch :: cs) = "" ∨
      toAsciiLowercase (String.ofList (letter :: ch :: cs)) = "null") := by
    rintro (h | h)
    · have := congrArg String.toList h
      rw [String.toList_ofList] at this
      cases this
    · have := congrArg String.toList h
      rw [toAsciiLowercase, String.toList_ofList, String.toList_ofList] at this
      exact hone.2 (List.cons.inj this).1
  have hshort : ¬(utf8 (String.ofList (letter :: ch :: cs))).length < 2 := by
    have hpos := ch.utf8Size_pos
    rw [length_utf8, String.toList_ofList, String.utf8Len_cons, String.utf8Len_cons]
    omega
  rw [fromText, if_neg hnull, if_neg hshort]
  simp only [String.toList_ofList, List.headD_cons, List.tail_cons, hone.1, ne_eq,
    not_true_eq_false, if_false, if_pos hletter]

/-- What is shown of an address is read, and its letter compared to its kind. -/
theorem fromText_letter_append (h : base58.Lawful encode) (address : Address) :
    fromText base58 (String.singleton address.letter ++ encode address.data.bytes) =
      if address.kind = .invalid then crypto "address has to be of type User"
      else .ok address := by
  have hdata : address.data.bytes ≠ [] :=
    List.ne_nil_of_length_pos (by rw [address.data.length_eq]; decide)
  obtain ⟨ch, cs, hcs⟩ : ∃ ch cs, encode address.data.bytes = String.ofList (ch :: cs) := by
    match hlist : (encode address.data.bytes).toList with
    | [] => exact absurd (String.toList_eq_nil_iff.1 hlist) (h.encode_ne_empty hdata)
    | ch :: cs => exact ⟨ch, cs, by rw [← hlist, String.ofList_toList]⟩
  have htext : String.singleton address.letter ++ String.ofList (ch :: cs) =
      String.ofList (address.letter :: ch :: cs) := by
    rw [String.singleton_eq_ofList, ← String.ofList_append]
    rfl
  rw [hcs, htext, fromText_ofList base58 cs address.letter_mem, ← hcs,
    h.decodeBase58_encode hdata, ok_bind, tryFromSlice_data, ok_bind, letter]
  cases address.kind <;> rfl

/-- An address is read from the text it is shown as, unless it is of no valid kind. -/
theorem fromText_toText (h : base58.Lawful encode) (address : Address) :
    fromText base58 (address.toText encode) =
      if address.kind = .invalid then crypto "address has to be of type User"
      else .ok address := by
  rw [toText]
  split
  next hnull =>
    rw [hnull, if_neg (by decide), fromText, if_pos (.inr (by decide))]
  next => exact fromText_letter_append h address

end Vm.Address

/-! ## Keys -/

namespace Crypto

def doubleSha256 (sha256 : Bytes → Hash) (data : Bytes) : Bytes :=
  (sha256 (sha256 data).data.bytes).data.bytes

structure PhantasmaKeys where
  privateKey : Bytes32
  deriving DecidableEq, Repr

namespace PhantasmaKeys

variable (sha256 : Bytes → Hash)

def tryFromSlice (privateKey : Bytes) : Result PhantasmaKeys :=
  let raw := if privateKey.length = 64 then privateKey.take 32 else privateKey
  if h : raw.length = 32 then .ok ⟨⟨raw, h⟩⟩
  else crypto s!"private key length must be 32, got {privateKey.length}"

/-- The key in the bytes of a WIF text, which are checked one after the other. -/
def fromWifData (data : Bytes) : Result PhantasmaKeys :=
  if data.length ≠ 38 then crypto "invalid WIF length"
  else
    let payload := data.take (data.length - 4)
    let checksum := data.drop (data.length - 4)
    if (doubleSha256 sha256 payload).take 4 ≠ checksum then crypto "invalid WIF checksum"
    else if payload.length ≠ 34 ∨ payload[0]? ≠ some 0x80 ∨ payload[33]? ≠ some 0x01 then
      crypto "invalid compressed Ed25519 WIF payload"
    else tryFromSlice ((payload.drop 1).take 32)

def fromWif (base58 : Base58) (wif : String) : Result PhantasmaKeys :=
  if wif = "" then crypto "WIF is required"
  else decodeBase58 base58 wif >>= fromWifData sha256

/-- A private key between the bytes that mark it. -/
def wifPayload (keys : PhantasmaKeys) : Bytes := 0x80 :: keys.privateKey.bytes ++ [0x01]

def wifData (keys : PhantasmaKeys) : Bytes :=
  keys.wifPayload ++ (doubleSha256 sha256 keys.wifPayload).take 4

def toWif (encode : Bytes → String) (keys : PhantasmaKeys) : String :=
  encode (keys.wifData sha256)

variable {sha256} {base58 : Base58} {encode : Bytes → String} {keys : PhantasmaKeys}

theorem length_wifPayload (keys : PhantasmaKeys) : keys.wifPayload.length = 34 := by
  simp [wifPayload, keys.privateKey.length_eq]

theorem length_doubleSha256 (data : Bytes) : (doubleSha256 sha256 data).length = 32 :=
  (sha256 (sha256 data).data.bytes).data.length_eq

theorem tryFromSlice_eq_ok {privateKey : Bytes} (h : privateKey.length = 32) :
    tryFromSlice privateKey = .ok keys ↔ keys.privateKey.bytes = privateKey := by
  rw [tryFromSlice, dif_pos (by rw [if_neg (by omega)]; exact h), Except.ok.injEq]
  simp only [h, Nat.reduceEqDiff, if_false]
  constructor
  · rintro rfl
    rfl
  · intro hbytes
    cases keys
    exact congrArg mk (FixedBytes.ext hbytes.symm)

/-- A payload of the right length is a key between the bytes that mark it, if these are
    where they should be. -/
theorem eq_wifPayload_iff {payload : Bytes} (h : payload.length = 34) :
    payload = keys.wifPayload ↔ payload[0]? = some 0x80 ∧ payload[33]? = some 0x01 ∧
      keys.privateKey.bytes = (payload.drop 1).take 32 := by
  have hlength := keys.privateKey.length_eq
  constructor
  · rintro rfl
    refine ⟨rfl, ?_, ?_⟩
    · rw [wifPayload, List.getElem?_append_right (by simp [hlength])]
      simp [hlength]
    · rw [wifPayload, List.cons_append, List.drop_one, List.tail_cons, List.take_left' hlength]
  · rintro ⟨hfirst, hlast, hkey⟩
    have hdrop : payload.drop 33 = [0x01] := by
      rw [List.drop_eq_getElem_cons (by omega), List.drop_of_length_le (by omega)]
      rw [List.getElem?_eq_getElem (by omega)] at hlast
      rw [Option.some.inj hlast]
    obtain ⟨first, rest, rfl⟩ := List.exists_cons_of_length_eq_add_one h
    obtain rfl := Option.some.inj hfirst
    rw [wifPayload, hkey, ← hdrop, List.drop_one, List.tail_cons, List.cons_append]
    exact congrArg _ (List.take_append_drop 32 rest).symm

/-- The bytes of a key are those that pass all the checks made of them. -/
theorem eq_wifData_iff {data : Bytes} : data = keys.wifData sha256 ↔
    data.length = 38 ∧ (doubleSha256 sha256 (data.take 34)).take 4 = data.drop 34 ∧
      data.take 34 = keys.wifPayload := by
  constructor
  · rintro rfl
    have htake : (keys.wifData sha256).take 34 = keys.wifPayload :=
      List.take_left' keys.length_wifPayload
    have hdrop : (keys.wifData sha256).drop 34 = (doubleSha256 sha256 keys.wifPayload).take 4 :=
      List.drop_left' keys.length_wifPayload
    refine ⟨?_, by rw [htake, hdrop], htake⟩
    rw [wifData, List.length_append, List.length_take, length_doubleSha256, length_wifPayload]
    rfl
  · rintro ⟨-, hsum, hpayload⟩
    rw [wifData, ← hpayload, hsum, List.take_append_drop]

theorem fromWifData_eq_ok {data : Bytes} :
    fromWifData sha256 data = .ok keys ↔ data = keys.wifData sha256 := by
  rw [eq_wifData_iff, fromWifData]
  split
  next h => exact iff_of_false nofun fun h' => h h'.1
  next h =>
    have hlength : data.length = 38 := not_not.1 h
    have hpayload : (data.take 34).length = 34 := by
      rw [List.length_take]
      omega
    simp only [hlength, Nat.reduceSub, hpayload, ne_eq, not_true_eq_false, false_or, true_and]
    split
    next hsum => exact iff_of_false nofun fun h' => hsum h'.1
    next hsum =>
      rw [and_iff_right (not_not.1 hsum), eq_wifPayload_iff hpayload]
      split
      next hmarks =>
        refine iff_of_false nofun fun h' => ?_
        exact hmarks.elim (· h'.1) (· h'.2.1)
      next hmarks =>
        obtain ⟨hfirst, hlast⟩ := not_or.1 hmarks
        rw [and_iff_right (not_not.1 hfirst), and_iff_right (not_not.1 hlast)]
        exact tryFromSlice_eq_ok (by rw [List.length_take, List.length_drop, hpayload]; rfl)

/-- A key is read from the text it is shown as, and from no other. -/
theorem fromWif_eq_ok (h : base58.Lawful encode) {wif : String} :
    fromWif sha256 base58 wif = .ok keys ↔ wif = keys.toWif sha256 encode := by
  have hne : keys.wifData sha256 ≠ [] := by
    rw [wifData, wifPayload]
    exact List.cons_ne_nil _ _
  constructor
  · intro hread
    rw [fromWif] at hread
    split at hread
    next => cases hread
    next =>
      obtain ⟨data, hdata, hread⟩ := bind_eq_ok.1 hread
      rw [toWif, ← fromWifData_eq_ok.1 hread, h.encode_of_decodeBase58 hdata]
  · rintro rfl
    rw [toWif, fromWif, if_neg (h.encode_ne_empty hne), h.decodeBase58_encode hne, ok_bind]
    exact fromWifData_eq_ok.2 rfl

end PhantasmaKeys

/-- A key is read from the text it is shown as and from no other; an address is read
    from the text it is shown as, which is refused if it is of no valid kind. -/
theorem fromWif_iff_and_fromText_toText {base58 : Base58} {encode : Bytes → String}
    (h : base58.Lawful encode) (sha256 : Bytes → Hash) :
    (∀ wif keys, PhantasmaKeys.fromWif sha256 base58 wif = .ok keys ↔
      wif = keys.toWif sha256 encode) ∧
    ∀ address, (address.kind ≠ .invalid →
        Address.fromText base58 (address.toText encode) = .ok address) ∧
      (address.kind = .invalid → Address.fromText base58 (address.toText encode) =
        crypto "address has to be of type User") := by
  refine ⟨fun wif keys => PhantasmaKeys.fromWif_eq_ok h, fun address => ?_⟩
  rw [Address.fromText_toText h]
  exact ⟨fun hkind => if_neg hkind, fun hkind => if_pos hkind⟩

/-! ## The alphabet of Bitcoin -/

theorem toList_base58Alphabet : base58Alphabet.toList = [
    '1', '2', '3', '4', '5', '6', '7', '8', '9', 'A', 'B', 'C', 'D', 'E', 'F', 'G', 'H', 'J', 'K',
    'L', 'M', 'N', 'P', 'Q', 'R', 'S', 'T', 'U', 'V', 'W', 'X', 'Y', 'Z', 'a', 'b', 'c', 'd', 'e',
    'f', 'g', 'h', 'i', 'j', 'k', 'm', 'n', 'o', 'p', 'q', 'r', 's', 't', 'u', 'v', 'w', 'x', 'y',
    'z'] :=
  String.toList_ofList

/-- The alphabet is in ascending order, hence no character occurs twice. -/
theorem nodup_base58Alphabet : base58Alphabet.toList.Nodup := by
  have hchain : base58Alphabet.toList.IsChain (· < ·) := by
    rw [toList_base58Alphabet]
    decide
  exact hchain.pairwise.imp ne_of_lt

theorem one_lt_length_base58Alphabet : 1 < base58Alphabet.toList.length := by
  rw [toList_base58Alphabet]
  decide

def bitcoin : Base58 where
  decode text := (bytesOfText base58Alphabet.toList text).elim
    (.error "provided string contained invalid character") .ok
  debugChar ch := String.ofList ['\'', ch, '\'']

theorem decode_bitcoin_eq_ok {text : String} {data : Bytes} :
    bitcoin.decode text = .ok data ↔ bytesOfText base58Alphabet.toList text = some data := by
  simp only [bitcoin]
  rcases bytesOfText base58Alphabet.toList text with - | bytes
  · exact iff_of_false nofun nofun
  · rw [Option.elim_some, Except.ok.injEq, Option.some.injEq]

theorem lawful_bitcoin : bitcoin.Lawful (textOfBytes base58Alphabet.toList) where
  decode_empty := decode_bitcoin_eq_ok.2 (bytesOfText_empty _)
  decode_encode data := decode_bitcoin_eq_ok.2
    (bytesOfText_textOfBytes nodup_base58Alphabet one_lt_length_base58Alphabet data)
  encode_decode _ _ hdecode :=
    textOfBytes_of_bytesOfText one_lt_length_base58Alphabet (decode_bitcoin_eq_ok.1 hdecode)
  mem_alphabet _ _ hch := mem_of_mem_textOfBytes one_lt_length_base58Alphabet hch

/-! ## A key of the reference SDKs -/

def vectorKeys : PhantasmaKeys where
  privateKey.bytes := [
    33, 252, 170, 43, 13, 207, 27, 99, 192, 217, 188, 3, 47, 198, 120, 88, 30, 158, 113, 215, 103,
    95, 183, 12, 99, 136, 219, 253, 53, 196, 56, 164]
  privateKey.length_eq := by decide

def vectorHash : Hash where
  data.bytes := [
    214, 141, 144, 61, 101, 254, 139, 31, 113, 130, 149, 21, 222, 97, 185, 88, 222, 17, 103, 176,
    221, 107, 76, 12, 99, 84, 40, 106, 241, 103, 230, 121]
  data.length_eq := by decide

def vectorDoubleHash : Hash where
  data.bytes := [
    190, 229, 50, 85, 18, 191, 238, 244, 218, 110, 189, 114, 114, 12, 254, 9, 82, 92, 198, 208,
    137, 209, 1, 37, 145, 138, 251, 76, 176, 97, 228, 250]
  data.length_eq := by decide

/-- The hash of the payload of the key, and the hash of that. -/
def vectorSha256 (data : Bytes) : Hash :=
  if data = vectorKeys.wifPayload then vectorHash
  else if data = vectorHash.data.bytes then vectorDoubleHash
  else ⟨emptyBytes32⟩

def vectorAddress : Address where
  data.bytes := [
    1, 0, 92, 102, 107, 155, 88, 109, 74, 107, 136, 223, 231, 225, 178, 239, 62, 87, 19, 174, 60,
    102, 234, 185, 183, 68, 215, 120, 21, 110, 18, 7, 123, 84]
  data.length_eq := by decide

theorem fromWif_and_fromText_vector :
    PhantasmaKeys.fromWif vectorSha256 bitcoin
      "KxMn2TgXukYaNXx7tEdjh7qB2YaMgeuKy47j4rvKigHhBuZWeP3r" = .ok vectorKeys ∧
    Address.fromText bitcoin "P2K9zmyFDNGN6n6hHiTUAz6jqn29s5G1SWLiXwCVQcpHcQb" =
      .ok vectorAddress := by
  have hvector := fromWif_iff_and_fromText_toText lawful_bitcoin vectorSha256
  have htext : vectorAddress.toText (textOfBytes base58Alphabet.toList) =
      "P2K9zmyFDNGN6n6hHiTUAz6jqn29s5G1SWLiXwCVQcpHcQb" := by decide +kernel
  exact ⟨(hvector.1 _ _).2 (by decide +kernel), htext ▸ (hvector.2 vectorAddress).1 (by decide)⟩

end Crypto

end PhantasmaSdk
