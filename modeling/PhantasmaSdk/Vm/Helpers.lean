import PhantasmaSdk.Vm.Operation
import PhantasmaSdk.Text

/-!
# Addresses as text, and the calls scripts mostly make

An address is read from a letter for its kind and its bytes in Base58. What decodes
Base58, and how a character is shown in an error, is taken from elsewhere (`Base58`).
A text whose first character is not in ASCII is not refused but panicked of
(`Address.noPanic_fromText_iff`).

The helpers are calls of contracts and of runtime methods. Those given addresses as
text read them all first, and only fail, with the first error, if one of them is no
address (`TextHelper.eq_settle`).
-/

namespace PhantasmaSdk.Vm

open Codec Machine BinaryWriter

/-! ## Addresses as text -/

/-- What is taken from elsewhere to read Base58. -/
structure Base58 where
  /-- Decodes a text of the alphabet, or says what is wrong with it. -/
  decode : String → Except String Bytes
  /-- A character as it is shown for debugging. -/
  debugChar : Char → String

def base58Alphabet : String := "123456789ABCDEFGHJKLMNPQRSTUVWXYZabcdefghijkmnopqrstuvwxyz"

/-- The bytes of a text, whose characters are checked before it is decoded. -/
def decodeBase58 (base58 : Base58) (text : String) : Result Bytes :=
  if text = "" then .error (.error (.encoding "base58 text is empty"))
  else
    match text.toList.find? (· ∉ base58Alphabet.toList) with
    | some ch =>
      .error (.error (.encoding s!"invalid base58 character: {base58.debugChar ch}"))
    | none =>
      match base58.decode text with
      | .ok data => .ok data
      | .error message => .error (.error (.encoding message))

inductive AddressKind
  | invalid
  | user
  | system
  | interop
  deriving DecidableEq, Repr

namespace Address

/-- An address of as many bytes as it has. -/
def tryFromSlice (data : Bytes) : Result Address :=
  if h : data.length = 34 then .ok ⟨⟨data, h⟩⟩
  else crypto s!"address length must be 34, got {data.length}"

def null : Address := ⟨.zero 34⟩

/-- The kind of an address is in its first byte; the null address is a system one. -/
def kind (address : Address) : AddressKind :=
  if address = null then .system
  else
    match address.data.bytes.headD 0 with
    | 0 => .invalid
    | 1 => .user
    | 2 => .system
    | _ => .interop

/-- The letter is the first byte of the text: the text is cut after it, which panics
    within a character. -/
def fromText (base58 : Base58) (text : String) : Result Address :=
  if text = "" ∨ toAsciiLowercase text = "null" then .ok null
  else if (utf8 text).length < 2 then crypto "address text is too short"
  else
    let letter := text.toList.headD ' '
    if letter.utf8Size ≠ 1 then .error (.panic (.expect "byte index 1 is not a char boundary"))
    else do
      let data ← decodeBase58 base58 (String.ofList text.toList.tail)
      let address ← tryFromSlice data
      if letter = 'P' ∧ address.kind ≠ .user then crypto "address has to be of type User"
      else if letter = 'S' ∧ address.kind ≠ .system then crypto "address has to be of type System"
      else if letter = 'X' ∧ address.kind ≠ .interop then
        crypto "address has to be of type Interop"
      else if letter ∈ ['P', 'S', 'X'] then .ok address
      else crypto s!"unknown address prefix: {letter}"

theorem noPanic_decodeBase58 (base58 : Base58) (text : String) :
    NoPanic (decodeBase58 base58 text) := by
  rw [decodeBase58]
  split
  next => exact noPanic_error_iff.2 (Fault.not_isPanic_error _)
  next =>
    split
    next => exact noPanic_error_iff.2 (Fault.not_isPanic_error _)
    next =>
      split
      next => exact noPanic_ok _
      next => exact noPanic_error_iff.2 (Fault.not_isPanic_error _)

theorem noPanic_tryFromSlice (data : Bytes) : NoPanic (tryFromSlice data) := by
  rw [tryFromSlice]
  split
  next => exact noPanic_ok _
  next => exact noPanic_crypto _

theorem toNat_lt_of_toLower {c : Char} (h : c.toLower.toNat < 128) : c.toNat < 128 := by
  by_cases hupper : c.val ≥ 'A'.val ∧ c.val ≤ 'Z'.val
  · have hle := UInt32.le_iff_toNat_le.1 hupper.2
    exact Nat.lt_of_le_of_lt hle (by decide)
  · have hlower : c.toLower = c := dif_neg hupper
    exact hlower ▸ h

/-- A text that is the null address in some case begins with an `n`. -/
theorem toNat_lt_of_null {letter : Char} {cs : List Char}
    (h : toAsciiLowercase (String.ofList (letter :: cs)) = "null") : letter.toNat < 128 := by
  have hcs := congrArg String.toList h
  rw [toAsciiLowercase, String.toList_ofList, String.toList_ofList, List.map_cons] at hcs
  have hletter : letter.toLower = 'n' := (List.cons.inj hcs).1
  exact toNat_lt_of_toLower (hletter ▸ by decide)

/-- A text is read, or refused, unless its first character takes more than a byte: the cut after
    the first byte is then within it. -/
theorem noPanic_fromText_iff (base58 : Base58) (text : String) :
    NoPanic (fromText base58 text) ↔ ∀ c ∈ text.toList.head?, c.toNat < 128 := by
  obtain ⟨cs, rfl⟩ : ∃ cs, text = String.ofList cs := ⟨_, String.ofList_toList.symm⟩
  rw [fromText, length_utf8]
  simp only [String.toList_ofList]
  cases cs with
  | nil => exact iff_of_true (noPanic_ok _) nofun
  | cons letter cs =>
    have hhead : (∀ c ∈ (letter :: cs).head?, c.toNat < 128) ↔ letter.toNat < 128 :=
      ⟨fun h => h letter rfl, fun h c hc => Option.some.inj hc ▸ h⟩
    rw [hhead, ← utf8Size_eq_one_iff, String.utf8Len_cons, List.headD_cons, List.tail_cons]
    have hpos := letter.utf8Size_pos
    split
    next h =>
      rcases h with h | h
      · have := congrArg String.toList h
        rw [String.toList_ofList] at this
        cases this
      · exact iff_of_true (noPanic_ok _) (utf8Size_eq_one_iff.2 (toNat_lt_of_null h))
    next =>
      split
      next => exact iff_of_true (noPanic_crypto _) (by omega)
      next =>
        split
        next hwide => exact iff_of_false (fun h => h _ rfl trivial) hwide
        next hone =>
          refine iff_of_true ?_ (not_not.1 hone)
          refine (noPanic_decodeBase58 _ _).bind fun data => (noPanic_tryFromSlice data).bind ?_
          intro address
          repeat' split
          all_goals first | exact noPanic_crypto _ | exact noPanic_ok _

/-- `é` takes two bytes. -/
theorem not_noPanic_fromText :
    ¬∀ (base58 : Base58) (text : String), NoPanic (fromText base58 text) := by
  intro h
  exact h ⟨fun _ => .ok [], fun _ => ""⟩ "éP" _ rfl trivial

end Address

/-! ## Given addresses -/

namespace Op

open ScriptArg

section

/-- A number of 64 bits as an argument. -/
def amountArg (value : UInt64) : ScriptArg := number value.toNat

variable (symbol : String) (fromAddress toAddress destinationChain : Address)
  (amount tokenId : UInt64)

def allowGas (gasPrice gasLimit : UInt64) : Op :=
  callContract "gas" "AllowGas"
    [address fromAddress, address toAddress, amountArg gasPrice, amountArg gasLimit]

def spendGas (addr : Address) : Op := callContract "gas" "SpendGas" [address addr]

def transferTokens : Op :=
  callInterop "Runtime.TransferTokens"
    [address fromAddress, address toAddress, string symbol, amountArg amount]

def mintTokens : Op :=
  callInterop "Runtime.MintTokens"
    [address fromAddress, address toAddress, string symbol, amountArg amount]

def transferBalance : Op :=
  callInterop "Runtime.TransferBalance" [address fromAddress, address toAddress, string symbol]

def transferNft : Op :=
  callInterop "Runtime.TransferToken"
    [address fromAddress, address toAddress, string symbol, amountArg tokenId]

def crossTransferToken : Op :=
  callInterop "Runtime.SendTokens"
    [address destinationChain, address fromAddress, address toAddress, string symbol,
      amountArg amount]

def crossTransferNft : Op :=
  callInterop "Runtime.SendToken"
    [address destinationChain, address fromAddress, address toAddress, string symbol,
      amountArg tokenId]

def stake (addr : Address) : Op :=
  callContract "stake" "Stake" [address addr, amountArg amount]

def unstake (addr : Address) : Op :=
  callContract "stake" "Unstake" [address addr, amountArg amount]

/-! ## Given texts -/

/-- What a call gives back, an error included, unless it panics. -/
def attempt {α : Type} : Result α → Result (Except PhantasmaError α)
  | .ok a => .ok (.ok a)
  | .error (.error e) => .ok (.error e)
  | .error (.panic p) => .error (.panic p)

/-- The operation, or the error stored in the builder. -/
def orFail : Except PhantasmaError Op → Op
  | .ok op => op
  | .error e => fail e.toText

variable (base58 : Base58)

/-- An operation on an address given as text. -/
def withAddress (text : String) (op : Address → Op) : Result Op := do
  let addr ← attempt (Address.fromText base58 text)
  pure (orFail do pure (op (← addr)))

/-- An operation on two addresses given as texts, both of which are read before. -/
def withAddresses (text₁ text₂ : String) (op : Address → Address → Op) : Result Op := do
  let addr₁ ← attempt (Address.fromText base58 text₁)
  let addr₂ ← attempt (Address.fromText base58 text₂)
  pure (orFail do pure (op (← addr₁) (← addr₂)))

/-- An operation on three addresses given as texts, all of which are read before. -/
def withThreeAddresses (text₁ text₂ text₃ : String) (op : Address → Address → Address → Op) :
    Result Op := do
  let addr₁ ← attempt (Address.fromText base58 text₁)
  let addr₂ ← attempt (Address.fromText base58 text₂)
  let addr₃ ← attempt (Address.fromText base58 text₃)
  pure (orFail do pure (op (← addr₁) (← addr₂) (← addr₃)))

variable (fromText toText destinationText : String)

def allowGasText (gasPrice gasLimit : UInt64) : Result Op :=
  withAddresses base58 fromText toText fun a b => allowGas a b gasPrice gasLimit

def spendGasText (addressText : String) : Result Op := withAddress base58 addressText spendGas

def transferTokensText : Result Op :=
  withAddresses base58 fromText toText fun a b => transferTokens symbol a b amount

def transferTokensToText : Result Op :=
  withAddress base58 toText fun b => transferTokens symbol fromAddress b amount

def mintTokensText : Result Op :=
  withAddresses base58 fromText toText fun a b => mintTokens symbol a b amount

def transferBalanceText : Result Op :=
  withAddresses base58 fromText toText fun a b => transferBalance symbol a b

def transferNftText : Result Op :=
  withAddresses base58 fromText toText fun a b => transferNft symbol a b tokenId

def transferNftToText : Result Op :=
  withAddress base58 toText fun b => transferNft symbol fromAddress b tokenId

def crossTransferTokenText : Result Op :=
  withThreeAddresses base58 destinationText fromText toText fun chain a b =>
    crossTransferToken symbol a b chain amount

def crossTransferTokenToText : Result Op :=
  withAddress base58 toText fun b =>
    crossTransferToken symbol fromAddress b destinationChain amount

def crossTransferNftText : Result Op :=
  withThreeAddresses base58 destinationText fromText toText fun chain a b =>
    crossTransferNft symbol a b chain tokenId

def crossTransferNftToText : Result Op :=
  withAddress base58 toText fun b =>
    crossTransferNft symbol fromAddress b destinationChain tokenId

def stakeText (addressText : String) : Result Op :=
  withAddress base58 addressText fun a => stake amount a

def unstakeText (addressText : String) : Result Op :=
  withAddress base58 addressText fun a => unstake amount a

end

/-! ## What becomes of a text -/

/-- The helpers that are given texts: each text with an address it may stand for, the operation
    on these addresses, and what is made of the texts. -/
inductive TextHelper (base58 : Base58) : List (String × Address) → Op → Result Op → Prop
  | allowGas (fromText toText : String) (a b : Address) (gasPrice gasLimit : UInt64) :
    TextHelper base58 [(fromText, a), (toText, b)] (allowGas a b gasPrice gasLimit)
      (allowGasText base58 fromText toText gasPrice gasLimit)
  | spendGas (text : String) (a : Address) :
    TextHelper base58 [(text, a)] (spendGas a) (spendGasText base58 text)
  | transferTokens (symbol fromText toText : String) (a b : Address) (amount : UInt64) :
    TextHelper base58 [(fromText, a), (toText, b)] (transferTokens symbol a b amount)
      (transferTokensText symbol amount base58 fromText toText)
  | transferTokensTo (symbol toText : String) (a b : Address) (amount : UInt64) :
    TextHelper base58 [(toText, b)] (transferTokens symbol a b amount)
      (transferTokensToText symbol a amount base58 toText)
  | mintTokens (symbol fromText toText : String) (a b : Address) (amount : UInt64) :
    TextHelper base58 [(fromText, a), (toText, b)] (mintTokens symbol a b amount)
      (mintTokensText symbol amount base58 fromText toText)
  | transferBalance (symbol fromText toText : String) (a b : Address) :
    TextHelper base58 [(fromText, a), (toText, b)] (transferBalance symbol a b)
      (transferBalanceText symbol base58 fromText toText)
  | transferNft (symbol fromText toText : String) (a b : Address) (tokenId : UInt64) :
    TextHelper base58 [(fromText, a), (toText, b)] (transferNft symbol a b tokenId)
      (transferNftText symbol tokenId base58 fromText toText)
  | transferNftTo (symbol toText : String) (a b : Address) (tokenId : UInt64) :
    TextHelper base58 [(toText, b)] (transferNft symbol a b tokenId)
      (transferNftToText symbol a tokenId base58 toText)
  | crossTransferToken (symbol destinationText fromText toText : String) (chain a b : Address)
      (amount : UInt64) :
    TextHelper base58 [(destinationText, chain), (fromText, a), (toText, b)]
      (crossTransferToken symbol a b chain amount)
      (crossTransferTokenText symbol amount base58 fromText toText destinationText)
  | crossTransferTokenTo (symbol toText : String) (chain a b : Address) (amount : UInt64) :
    TextHelper base58 [(toText, b)] (crossTransferToken symbol a b chain amount)
      (crossTransferTokenToText symbol a chain amount base58 toText)
  | crossTransferNft (symbol destinationText fromText toText : String) (chain a b : Address)
      (tokenId : UInt64) :
    TextHelper base58 [(destinationText, chain), (fromText, a), (toText, b)]
      (crossTransferNft symbol a b chain tokenId)
      (crossTransferNftText symbol tokenId base58 fromText toText destinationText)
  | crossTransferNftTo (symbol toText : String) (chain a b : Address) (tokenId : UInt64) :
    TextHelper base58 [(toText, b)] (crossTransferNft symbol a b chain tokenId)
      (crossTransferNftToText symbol a chain tokenId base58 toText)
  | stake (text : String) (a : Address) (amount : UInt64) :
    TextHelper base58 [(text, a)] (stake amount a) (stakeText amount base58 text)
  | unstake (text : String) (a : Address) (amount : UInt64) :
    TextHelper base58 [(text, a)] (unstake amount a) (unstakeText amount base58 text)

/-- What is wrong with a text that is refused. -/
def refusal {α : Type} : Result α → Option PhantasmaError
  | .error (.error e) => some e
  | _ => none

/-- What becomes of some texts, each with the address it stands for if it is not refused: the
    operation, or a failure with what is wrong with the first of them. -/
def settle (base58 : Base58) (given : List (String × Address)) (op : Op) : Op :=
  match given.findSome? fun text => refusal (Address.fromText base58 text.1) with
  | some e => fail e.toText
  | none => op

/-- The text is refused, or read as the address. -/
def Reads (base58 : Base58) (text : String × Address) : Prop :=
  Address.fromText base58 text.1 = .ok text.2 ∨
    ∃ e, Address.fromText base58 text.1 = .error (.error e)

section

variable {base58 : Base58} {text text' text'' : String × Address}

theorem withAddress_eq {f : Address → Op} (h : Reads base58 text) :
    withAddress base58 text.1 f = .ok (settle base58 [text] (f text.2)) := by
  rw [withAddress, settle]
  rcases h with h | ⟨e, h⟩ <;> simp only [List.findSome?, h] <;> rfl

theorem withAddresses_eq {f : Address → Address → Op} (h : Reads base58 text)
    (h' : Reads base58 text') : withAddresses base58 text.1 text'.1 f =
      .ok (settle base58 [text, text'] (f text.2 text'.2)) := by
  rw [withAddresses, settle]
  rcases h with h | ⟨e, h⟩ <;> rcases h' with h' | ⟨e', h'⟩ <;>
    simp only [List.findSome?, h, h'] <;> rfl

theorem withThreeAddresses_eq {f : Address → Address → Address → Op} (h : Reads base58 text)
    (h' : Reads base58 text') (h'' : Reads base58 text'') :
    withThreeAddresses base58 text.1 text'.1 text''.1 f =
      .ok (settle base58 [text, text', text''] (f text.2 text'.2 text''.2)) := by
  rw [withThreeAddresses, settle]
  rcases h with h | ⟨e, h⟩ <;> rcases h' with h' | ⟨e', h'⟩ <;> rcases h'' with h'' | ⟨e'', h''⟩ <;>
    simp only [List.findSome?, h, h', h''] <;> rfl

/-- A helper that is given texts is the operation on their addresses, or fails with what is
    wrong with the first that is refused. -/
theorem TextHelper.eq_settle {given : List (String × Address)} {op : Op} {made : Result Op}
    (h : TextHelper base58 given op made) (hreads : ∀ text ∈ given, Reads base58 text) :
    made = .ok (settle base58 given op) := by
  cases h <;> simp only [List.forall_mem_cons, List.not_mem_nil] at hreads
  case allowGas | transferTokens | mintTokens | transferBalance | transferNft =>
    exact withAddresses_eq hreads.1 hreads.2.1
  case crossTransferToken | crossTransferNft =>
    exact withThreeAddresses_eq hreads.1 hreads.2.1 hreads.2.2.1
  all_goals exact withAddress_eq hreads.1

/-- A helper that is given a text that is no address only fails. -/
theorem TextHelper.fails {given : List (String × Address)} {op : Op} {made : Result Op}
    (h : TextHelper base58 given op made) (hreads : ∀ text ∈ given, Reads base58 text)
    (hrefused : ∃ text ∈ given, Address.fromText base58 text.1 ≠ .ok text.2) :
    ∃ text ∈ given, ∃ e, Address.fromText base58 text.1 = .error (.error e) ∧
      made = .ok (fail e.toText) := by
  obtain ⟨text, hmem, hne⟩ := hrefused
  obtain ⟨e, he⟩ := (hreads text hmem).resolve_left hne
  obtain ⟨e', hfirst⟩ : ∃ e', (given.findSome? fun text =>
      refusal (Address.fromText base58 text.1)) = some e' :=
    Option.isSome_iff_exists.1 (List.findSome?_isSome_iff.2 ⟨text, hmem, by rw [he]; rfl⟩)
  obtain ⟨text', hmem', hrefusal⟩ := List.exists_of_findSome?_eq_some hfirst
  have hread : Address.fromText base58 text'.1 = .error (.error e') := by
    rcases hreads text' hmem' with hok | ⟨e'', he''⟩
    · rw [hok] at hrefusal
      cases hrefusal
    · rw [he''] at hrefusal ⊢
      rw [← Option.some.inj hrefusal]
  refine ⟨text', hmem', e', hread, ?_⟩
  rw [h.eq_settle hreads, settle, hfirst]

end

end Op

end PhantasmaSdk.Vm
