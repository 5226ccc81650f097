import PhantasmaSdk.ExtendedEvents.Events
import PhantasmaSdk.Rpc.Calls
import PhantasmaSdk.Serde.Whole

/-!
# Typed answers

A call decodes the result of the response to it as the type of its method, of which the
decoder and the encoder are derived. An answer may be kept, as it is encoded, and be
answered again: the same call then returns the same (`values_replayed`), and what was
answered is kept, as far as it has a place in the type and scalars of the VM are text.
Transactions may take two times, if a special resolution came without data
(`events_replayed`).

What the decoder says of what it refuses is a parameter.
-/

namespace PhantasmaSdk.Rpc

open ExtendedEvents Serde

/-! ## Types of answers -/

/-- A JSON text that is nested deeper is refused. -/
def jsonDepth : ℕ := 128

def buildInfoResult : Shape := .struct [
  ("version", .string), ("commit", .string), ("buildTimeUtc", .string)]

def stakeResult : Shape := .struct [
  ("amount", .string), ("time", .unsigned 64), ("unclaimed", .string)]

def accountInfoResult : Shape := .struct [
  ("address", .string), ("name", .string), ("stake", stakeResult)]

def archiveResult : Shape := .struct [
  ("hash", .option .string), ("name", .option .string), ("size", .unsigned 64),
  ("time", .unsigned 64), ("encryption", .option .string), ("blockCount", .unsigned 64),
  ("missingBlocks", .option (.seq (.unsigned 64))), ("owners", .option (.seq .string))]

def storageResult : Shape := .struct [
  ("available", .unsigned 64), ("used", .unsigned 64), ("avatar", .string),
  ("archives", .seq archiveResult)]

def balanceResult : Shape := .struct [
  ("chain", .string), ("amount", .string), ("symbol", .string), ("decimals", .unsigned 32),
  ("ids", .option (.seq .string))]

def accountResult : Shape := .struct [
  ("address", .string), ("name", .string), ("stakes", stakeResult), ("stake", .string),
  ("unclaimed", .string), ("relay", .option .string), ("validator", .string),
  ("storage", storageResult), ("balances", .seq balanceResult), ("txs", .option (.seq .string))]

def interopResult : Shape := .struct [("local", .string), ("external", .string)]

def platformResult : Shape := .struct [
  ("platform", .string), ("chain", .string), ("fuel", .string), ("tokens", .seq .string),
  ("interop", .seq interopResult)]

def chainResult : Shape := .struct [
  ("name", .option .string), ("address", .option .string), ("parent", .option .string),
  ("height", .unsigned 64), ("organization", .option .string),
  ("contracts", .option (.seq .string)), ("dapps", .option (.seq .string))]

def gasConfigDataResult : Shape := .struct [
  ("version", .unsigned 8), ("maxNameLength", .unsigned 8),
  ("maxTokenSymbolLength", .unsigned 8), ("feeShift", .unsigned 8),
  ("maxStructureSize", .unsigned 32), ("feeMultiplier", .option .string),
  ("gasTokenId", .option .string), ("dataTokenId", .option .string),
  ("minimumGasOffer", .option .string), ("dataEscrowPerRow", .option .string),
  ("gasFeeTransfer", .option .string), ("gasFeeQuery", .option .string),
  ("gasFeeCreateTokenBase", .option .string), ("gasFeeCreateTokenSymbol", .option .string),
  ("gasFeeCreateTokenSeries", .option .string), ("gasFeePerByte", .option .string),
  ("gasFeeRegisterName", .option .string), ("gasBurnRatioMul", .option .string),
  ("gasBurnRatioShift", .unsigned 8), ("minimumGasBill", .option .string),
  ("gasProducerRatioMul", .option .string), ("gasProducerRatioShift", .option (.unsigned 8)),
  ("gasDappRatioMul", .option .string), ("gasDappRatioShift", .option (.unsigned 8)),
  ("policyFeeCreateTokenBase", .option .string), ("policyFeeCreateTokenSymbol", .option .string),
  ("policyFeeCreateTokenSeries", .option .string), ("policyFeeRegisterName", .option .string),
  ("legacyDataEscrowPerRow", .option .string)]

def gasConfigResult : Shape := .struct [
  ("gasModelVersion", .unsigned 32), ("gasConfig", .option gasConfigDataResult),
  ("blockRateTarget", .unsigned 32), ("expiryWindow", .unsigned 32),
  ("unitsPerBlockDataByte", .option (.unsigned 32))]

def estimateTransactionResult : Shape := .struct [
  ("wouldAbort", .bool), ("abortReason", .string), ("gasBillKcalBase", .option .string),
  ("dataRows", .option .string), ("dataEscrowAtoms", .option .string),
  ("dataRefundAtoms", .option .string), ("recommendedMaxGas", .option .string),
  ("recommendedMaxData", .option .string)]

def abiParameterResult : Shape := .struct [("name", .string), ("type", .string)]

def abiMethodResult : Shape := .struct [
  ("name", .string), ("returnType", .string), ("parameters", .seq abiParameterResult)]

def tokenPropertyResult : Shape := .struct [("key", .string), ("value", .custom)]

def tokenSeriesResult : Shape := .struct [
  ("seriesId", .string), ("carbonTokenId", .string), ("carbonSeriesId", .string),
  ("ownerAddress", .string), ("maxMint", .string), ("mintCount", .string),
  ("currentSupply", .string), ("maxSupply", .string), ("burnedSupply", .option .string),
  ("mode", .option .string), ("script", .option .string),
  ("methods", .option (.seq abiMethodResult)), ("metadata", .seq tokenPropertyResult)]

def vmVariableSchemaResult (structSchema : Shape) : Shape := .struct [
  ("type", .string), ("schema", .option structSchema)]

def vmNamedVariableSchemaResult (structSchema : Shape) : Shape := .struct [
  ("name", .string), ("schema", vmVariableSchemaResult structSchema)]

/-- Structs nested in each other to some level, below which nothing is left. -/
def vmStructSchemaResult : ℕ → Shape
  | 0 => .struct []
  | levels + 1 => .struct [
    ("fields", .seq (vmNamedVariableSchemaResult (vmStructSchemaResult levels))),
    ("flags", .unsigned 32)]

def tokenSchemasResult : Shape := .struct [
  ("seriesMetadata", vmStructSchemaResult jsonDepth), ("rom", vmStructSchemaResult jsonDepth),
  ("ram", vmStructSchemaResult jsonDepth)]

def tokenExternalResult : Shape := .struct [("platform", .string), ("hash", .string)]

def tokenPriceResult : Shape := .struct [
  ("timestamp", .unsigned 64), ("open", .string), ("high", .string), ("low", .string),
  ("close", .string)]

def tokenResult : Shape := .struct [
  ("symbol", .string), ("name", .string), ("decimals", .unsigned 32), ("currentSupply", .string),
  ("maxSupply", .string), ("burnedSupply", .string), ("address", .string), ("owner", .string),
  ("flags", .string), ("script", .option .string), ("series", .seq tokenSeriesResult),
  ("carbonId", .string), ("metadata", .option (.seq tokenPropertyResult)),
  ("tokenSchemas", .option tokenSchemasResult), ("external", .option (.seq tokenExternalResult)),
  ("price", .option (.seq tokenPriceResult))]

def governanceResult : Shape := .struct [("name", .string), ("value", .string)]

def nexusResult : Shape := .struct [
  ("name", .option .string), ("protocol", .unsigned 32),
  ("platforms", .option (.seq platformResult)), ("tokens", .option (.seq tokenResult)),
  ("chains", .option (.seq chainResult)), ("governance", .option (.seq governanceResult)),
  ("organizations", .option (.seq .string))]

def abiEventResult : Shape := .struct [
  ("name", .string), ("value", .unsigned 32), ("returnType", .string), ("description", .string)]

def contractResult : Shape := .struct [
  ("name", .string), ("address", .string), ("owner", .option .string), ("script", .string),
  ("methods", .option (.seq abiMethodResult)), ("events", .option (.seq abiEventResult))]

def organizationResult : Shape := .struct [
  ("name", .option .string), ("owner", .option .string), ("carbonOwner", .option .string),
  ("metadata", .seq tokenPropertyResult), ("memberCount", .option .string)]

def organizationMemberResult : Shape := .struct [
  ("address", .option .string), ("carbonAddress", .option .string), ("isMember", .bool),
  ("memberTime", .option (.unsigned 64))]

def leaderboardRowResult : Shape := .struct [("address", .string), ("value", .string)]

def leaderboardResult : Shape := .struct [
  ("name", .option .string), ("rows", .option (.seq leaderboardRowResult))]

def tokenDataResult : Shape := .struct [
  ("id", .string), ("series", .string), ("carbonTokenId", .string), ("carbonSeriesId", .string),
  ("carbonNftAddress", .string), ("mint", .string), ("chainName", .string),
  ("ownerAddress", .string), ("creatorAddress", .string), ("ram", .string), ("rom", .string),
  ("status", .string), ("infusion", .seq tokenPropertyResult),
  ("properties", .seq tokenPropertyResult)]

def auctionResult : Shape := .struct [
  ("creatorAddress", .string), ("chainAddress", .string), ("startDate", .unsigned 64),
  ("endDate", .unsigned 64), ("baseSymbol", .string), ("quoteSymbol", .string),
  ("tokenId", .string), ("price", .string), ("endPrice", .string), ("extensionPeriod", .string),
  ("type", .string), ("rom", .string), ("ram", .string), ("listingFee", .string),
  ("currentWinner", .string)]

def eventResult : Shape := .struct [
  ("address", .string), ("contract", .string), ("kind", .string), ("name", .string),
  ("data", .string)]

def oracleResult : Shape := .struct [("url", .string), ("content", .string)]

def scriptResult : Shape := .struct [
  ("events", .seq eventResult), ("result", .string), ("results", .seq .string),
  ("oracles", .seq oracleResult), ("error", .option .string), ("state", .option .string),
  ("gas", .option .string)]

def phantasmaVmConfigResult : Shape := .struct [
  ("isStored", .bool), ("featureLevel", .unsigned 32), ("gasConstructor", .string),
  ("gasNexus", .string), ("gasOrganization", .string), ("gasAccount", .string),
  ("gasLeaderboard", .string), ("gasStandard", .string), ("gasOracle", .string),
  ("fuelPerContractDeploy", .string)]

def signatureResult : Shape := .struct [("kind", .string), ("data", .string)]

def transactionResult : Shape := .struct [
  ("hash", .string), ("chainAddress", .string), ("timestamp", .unsigned 64),
  ("blockHeight", .unsigned 64), ("blockHash", .string), ("script", .string),
  ("carbonTxType", .unsigned 32), ("carbonTxData", .string), ("payload", .string),
  ("events", .seq eventResult), ("extendedEvents", .seq .custom), ("state", .string),
  ("result", .string), ("debugComment", .option .string), ("fee", .string),
  ("signatures", .seq signatureResult), ("sender", .string), ("gasPayer", .string),
  ("gasTarget", .string), ("gasPrice", .string), ("gasLimit", .string),
  ("expiration", .unsigned 64)]

def addressTransactionsResult : Shape := .struct [
  ("address", .string), ("txs", .seq transactionResult)]

def blockResult : Shape := .struct [
  ("hash", .string), ("previousHash", .string), ("timestamp", .unsigned 64),
  ("height", .unsigned 64), ("chainAddress", .string), ("protocol", .unsigned 32),
  ("txs", .seq transactionResult), ("validatorAddress", .string),
  ("producerAddress", .option .string), ("reward", .string),
  ("events", .option (.seq eventResult)), ("oracles", .option (.seq oracleResult))]

def paginatedResult (item : Shape) : Shape := .struct [
  ("page", .unsigned 32), ("pageSize", .unsigned 32), ("total", .unsigned 64),
  ("totalPages", .unsigned 32), ("result", .option item)]

def cursorPaginatedResult (item : Shape) : Shape := .struct [
  ("result", .option item), ("cursor", .option .string)]

/-! ## Methods -/

/-- The methods, each with the type of what is answered. -/
def valueAnswers : List (String × Shape) := [
  ("getVersion", buildInfoResult),
  ("getAccountInfo", accountInfoResult),
  ("getAccountInfos", .seq accountInfoResult),
  ("getAccount", accountResult),
  ("getAccounts", .seq accountResult),
  ("lookUpName", .string),
  ("getPlatforms", .seq platformResult),
  ("getChains", .seq chainResult),
  ("getChain", chainResult),
  ("getGasConfig", gasConfigResult),
  ("estimateTransaction", estimateTransactionResult),
  ("getNexus", nexusResult),
  ("getContract", contractResult),
  ("getContractByAddress", contractResult),
  ("getContracts", .seq contractResult),
  ("getOrganization", organizationResult),
  ("getOrganizations", cursorPaginatedResult (.seq organizationResult)),
  ("getOrganizationMembers", cursorPaginatedResult (.seq organizationMemberResult)),
  ("getOrganizationMember", organizationMemberResult),
  ("getLeaderboard", leaderboardResult),
  ("getToken", tokenResult),
  ("getTokens", .seq tokenResult),
  ("getTokenData", tokenDataResult),
  ("getTokenBalance", balanceResult),
  ("getTokenSeries", cursorPaginatedResult (.seq tokenSeriesResult)),
  ("getTokenSeriesById", tokenSeriesResult),
  ("getTokenNFTs", cursorPaginatedResult (.seq tokenDataResult)),
  ("getAccountFungibleTokens", cursorPaginatedResult (.seq balanceResult)),
  ("getAccountNFTs", cursorPaginatedResult (.seq tokenDataResult)),
  ("getAccountOwnedTokens", cursorPaginatedResult (.seq tokenResult)),
  ("getAccountOwnedTokenSeries", cursorPaginatedResult (.seq tokenSeriesResult)),
  ("getAuctions", paginatedResult (.seq auctionResult)),
  ("getAuction", auctionResult),
  ("getNFT", tokenDataResult),
  ("getNFTs", .seq tokenDataResult),
  ("getArchive", archiveResult),
  ("readArchive", .string),
  ("invokeRawScript", scriptResult),
  ("getPhantasmaVmConfig", phantasmaVmConfigResult)]

/-- Those that answer transactions, with their events. -/
def eventAnswers : List (String × Shape) := [
  ("getAddressTransactions", paginatedResult addressTransactionsResult),
  ("getBlockByHeight", blockResult),
  ("getBlockByHash", blockResult),
  ("getLatestBlock", blockResult),
  ("getTransactionByBlockHashAndIndex", transactionResult),
  ("getTransaction", transactionResult)]

theorem distinct_of_valueAnswers : ∀ m ∈ valueAnswers, m.2.distinct := by decide +kernel

theorem distinct_of_eventAnswers : ∀ m ∈ eventAnswers, m.2.distinct := by decide +kernel

/-! ## Calls -/

section

variable {V : Type} (display : Json → String) (refusal : Shape → Json → String) (c : Custom V)

def fromValue (s : Shape) (value : Json) : Result (Data V) :=
  match decode c s value with
  | some data => pure data
  | none => rpc none (refusal s value)

/-- What a call returns, given what the transport did. -/
def call (s : Shape) (answer : Result (UInt16 × Json)) (requestId : UInt64) :
    Result (Data V) := do
  let value ← callValue display answer requestId
  fromValue refusal c s value

/-- A response that carries a result. -/
def envelope (requestId : UInt64) (result : Json) : UInt16 × Json :=
  (200, .object [("jsonrpc", .string "2.0"), ("id", .number (.int requestId.toNat)),
    ("result", result)])

variable {display refusal c} {s : Shape} {answer : Result (UInt16 × Json)} {id : UInt64}
  {data : Data V}

theorem call_eq_ok : call display refusal c s answer id = .ok data ↔ ∃ status object result,
    answer = .ok (status, .object object) ∧ Answers id status object result ∧
      decode c s result = some data := by
  have hfrom (value : Json) : fromValue refusal c s value = .ok data ↔
      decode c s value = some data := by
    rw [fromValue]
    rcases decode c s value with - | data'
    · exact ⟨nofun, nofun⟩
    · exact Except.ok.injEq data' data ▸ (Option.some.injEq data' data).symm ▸ Iff.rfl
  rw [call, bind_eq_ok]
  constructor
  · rintro ⟨result, hresult, hdata⟩
    obtain ⟨⟨status, body⟩, rfl, hparse⟩ := bind_eq_ok.1 hresult
    obtain ⟨object, rfl, hanswers⟩ := (parseJsonRpcResponse_eq_ok display).1 hparse
    exact ⟨status, object, result, rfl, hanswers, (hfrom result).1 hdata⟩
  · rintro ⟨status, object, result, rfl, hanswers, hdata⟩
    exact ⟨result, (parseJsonRpcResponse_eq_ok display).2 ⟨object, rfl, hanswers⟩,
      (hfrom result).2 hdata⟩

theorem answers_envelope (id : UInt64) (result : Json) :
    ∃ object, envelope id result = (200, .object object) ∧ Answers id 200 object result :=
  ⟨_, rfl, .inl rfl, rfl, by decide, rfl⟩

/-- A call that is answered with a result returns it as it is decoded. -/
theorem call_envelope {result : Json} (h : decode c s result = some data) :
    call display refusal c s (.ok (envelope id result)) id = .ok data := by
  obtain ⟨object, henvelope, hanswers⟩ := answers_envelope id result
  exact call_eq_ok.2 ⟨200, object, result, congrArg Except.ok henvelope, hanswers, h⟩

end

/-! ## Answers kept -/

variable {display : Json → String} {refusal : Shape → Json → String}
  {answer : Result (UInt16 × Json)} {id : UInt64}

/-- What a call returns, encoded and answered to the same call again, is returned again.
    It was answered, and is kept iff no array stood for a struct in it, nor a scalar of the
    VM was anything but a text. -/
theorem values_replayed {method : String} {s : Shape} (hm : (method, s) ∈ valueAnswers)
    {data : Data VmValue} (h : call display refusal VmValue.custom s answer id = .ok data) :
    (∀ id', call display refusal VmValue.custom s
      (.ok (envelope id' (encodeAll VmValue.custom data))) id' = .ok data) ∧
    ∃ status object result, answer = .ok (status, .object object) ∧
      Answers id status object result ∧
      (Keeps s result (encodeAll VmValue.custom data) ↔ Exact IsText s result) := by
  have hs := distinct_of_valueAnswers _ hm
  obtain ⟨status, object, result, hanswer, hanswers, hdecode⟩ := call_eq_ok.1 h
  exact ⟨fun id' => call_envelope (decode_encodeAll_of_decode VmValue.lawful_custom hs hdecode),
    status, object, result, hanswer, hanswers,
    keeps_encodeAll_iff VmValue.toJson_fromJson s hs hdecode⟩

/-- A balance, with a member that has no place in the type. -/
def balanceAnswer : Json := .object [("chain", .string "main"), ("amount", .string "5"),
  ("symbol", .string "SOUL"), ("decimals", .number (.int 8)), ("node", .bool true)]

def balanceData : Data VmValue := .struct [("chain", .string "main"), ("amount", .string "5"),
  ("symbol", .string "SOUL"), ("decimals", .int 8), ("ids", .absent)]

theorem values_replayed_balance :
    call (fun _ => "") (fun _ _ => "") VmValue.custom balanceResult
      (.ok (envelope 1 balanceAnswer)) 1 = .ok balanceData ∧
    ∀ id', call (fun _ => "") (fun _ _ => "") VmValue.custom balanceResult
      (.ok (envelope id' (encodeAll VmValue.custom balanceData))) id' = .ok balanceData := by
  have hm : ("getTokenBalance", balanceResult) ∈ valueAnswers := by simp [valueAnswers]
  have h : call (fun _ => "") (fun _ _ => "") VmValue.custom balanceResult
      (.ok (envelope 1 balanceAnswer)) 1 = .ok balanceData := rfl
  exact ⟨h, (values_replayed hm h).1⟩

/-- Transactions that a call returns, encoded and answered to the same call again, are
    returned again the second time, and the first time just if no special resolution among
    their events came without data. -/
theorem events_replayed {method : String} {s : Shape} (hm : (method, s) ∈ eventAnswers)
    {data : Data ReadEvent} (h : call display refusal ReadEvent.custom s answer id = .ok data) :
    ∃ data', (∀ id', call display refusal ReadEvent.custom s
        (.ok (envelope id' (encodeAll ReadEvent.custom data))) id' = .ok data') ∧
      (∀ id', call display refusal ReadEvent.custom s
        (.ok (envelope id' (encodeAll ReadEvent.custom data'))) id' = .ok data') ∧
      (data' = data ↔ ∀ event ∈ data.customs, ¬event.1.Bare) := by
  have hs := distinct_of_eventAnswers _ hm
  obtain ⟨-, -, result, -, -, hdecode⟩ := call_eq_ok.1 h
  -- An event that was read is read again as it was, if it had data.
  have hread (event : ReadEvent) : ReadEvent.custom.read (ReadEvent.custom.write event) = event ↔
      ¬event.1.Bare := by
    obtain ⟨-, j, rfl⟩ := event
    exact Subtype.ext_iff.trans (EventExResult.fromJson_toJson_fromJson_iff j)
  obtain ⟨data', honce, htwice, hiff⟩ := decode_encodeAll_twice (c := ReadEvent.custom)
    (fun _ => nofun) (fun event => Subtype.ext (EventExResult.fromJson_toJson_twice event.1)) hs
    hdecode
  exact ⟨data', fun id' => call_envelope honce, fun id' => call_envelope htwice,
    hiff.trans (forall₂_congr fun event _ => hread event)⟩

/-- A transaction with a special resolution that has no data. -/
def bareAnswer : Json := .object [("hash", .string "00"),
  ("extendedEvents", .array [.object [("kind", .string "SpecialResolution")]])]

theorem events_replayed_bare : ∃ data data', data' ≠ data ∧
    call (fun _ => "") (fun _ _ => "") ReadEvent.custom transactionResult
      (.ok (envelope 1 bareAnswer)) 1 = .ok data ∧
    call (fun _ => "") (fun _ _ => "") ReadEvent.custom transactionResult
      (.ok (envelope 1 (encodeAll ReadEvent.custom data))) 1 = .ok data' ∧
    call (fun _ => "") (fun _ _ => "") ReadEvent.custom transactionResult
      (.ok (envelope 1 (encodeAll ReadEvent.custom data'))) 1 = .ok data' := by
  have hm : ("getTransaction", transactionResult) ∈ eventAnswers := by simp [eventAnswers]
  obtain ⟨data, h⟩ : ∃ data, call (fun _ => "") (fun _ _ => "") ReadEvent.custom transactionResult
      (.ok (envelope 1 bareAnswer)) 1 = .ok data ∧ ∃ event ∈ data.customs, event.1.Bare :=
    ⟨_, rfl, _, List.mem_cons_self, rfl, rfl⟩
  obtain ⟨hdata, event, hmem, hbare⟩ := h
  obtain ⟨data', honce, htwice, hiff⟩ := events_replayed hm hdata
  exact ⟨data, data', fun heq => hiff.1 heq event hmem hbare, hdata, honce 1, htwice 1⟩

end PhantasmaSdk.Rpc
