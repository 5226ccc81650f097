import PhantasmaSdk.Serde.Derive

/-!
# Shapes of extended events

What the data of an extended event looks like, and what the arguments of a call inside
a special resolution look like, which its module and its method tell (`callShapes`).
Names are as they are on the wire.

Metadata of tokens and of series holds values of the VM (`VmValue`): a text, an array
or a struct of such. Whatever is no text, a number say, is read as one.
-/

namespace PhantasmaSdk.ExtendedEvents

open Serde

/-! ## Values of the VM -/

inductive VmValue
  | text (value : String)
  | items (values : List VmValue)
  | fields (members : List (String × VmValue))

def boolText (value : Bool) : String := if value then "true" else "false"

def numberText : Number → String
  | .int value => toString value
  | .float text => text

namespace VmValue

mutual

def fromJson : Json → VmValue
  | .array values => items (itemsFromJson values)
  | .object members => fields (fieldsFromJson members)
  | .string value => text value
  | .null => text ""
  | .bool value => text (boolText value)
  | .number value => text (numberText value)

def itemsFromJson : List Json → List VmValue
  | [] => []
  | value :: values => fromJson value :: itemsFromJson values

def fieldsFromJson : List (String × Json) → List (String × VmValue)
  | [] => []
  | (name, value) :: members => (name, fromJson value) :: fieldsFromJson members

end

mutual

def toJson : VmValue → Json
  | text value => .string value
  | items values => .array (itemsToJson values)
  | fields members => .object (fieldsToJson members)

def itemsToJson : List VmValue → List Json
  | [] => []
  | value :: values => toJson value :: itemsToJson values

def fieldsToJson : List (String × VmValue) → List (String × Json)
  | [] => []
  | (name, value) :: members => (name, toJson value) :: fieldsToJson members

end

def custom : Custom VmValue := ⟨fromJson, toJson, text ""⟩

end VmValue

mutual

/-- Texts, and arrays and structs of them. -/
def IsText : Json → Prop
  | .string _ => True
  | .array values => AllText values
  | .object members => FieldsText members
  | _ => False

def AllText : List Json → Prop
  | [] => True
  | value :: values => IsText value ∧ AllText values

def FieldsText : List (String × Json) → Prop
  | [] => True
  | (_, value) :: members => IsText value ∧ FieldsText members

end

mutual

/-- Texts are what is written as it is read. -/
theorem VmValue.toJson_fromJson (j : Json) : toJson (fromJson j) = j ↔ IsText j := by
  cases j with
  | array values =>
    rw [fromJson, toJson, Json.array.injEq]
    exact itemsToJson_itemsFromJson values
  | object members =>
    rw [fromJson, toJson, Json.object.injEq]
    exact fieldsToJson_fieldsFromJson members
  | _ => simp [fromJson, toJson, IsText]

theorem VmValue.itemsToJson_itemsFromJson (values : List Json) :
    itemsToJson (itemsFromJson values) = values ↔ AllText values := by
  match values with
  | [] => exact iff_of_true rfl trivial
  | value :: values =>
    rw [itemsFromJson, itemsToJson, List.cons.injEq, AllText]
    exact and_congr (toJson_fromJson value) (itemsToJson_itemsFromJson values)

theorem VmValue.fieldsToJson_fieldsFromJson (members : List (String × Json)) :
    fieldsToJson (fieldsFromJson members) = members ↔ FieldsText members := by
  match members with
  | [] => exact iff_of_true rfl trivial
  | (name, value) :: members =>
    rw [fieldsFromJson, fieldsToJson, List.cons.injEq, Prod.mk.injEq, FieldsText]
    exact and_congr ((and_iff_right rfl).trans (toJson_fromJson value))
      (fieldsToJson_fieldsFromJson members)

end

/-! ## Data of events -/

def tokenCreateData : Shape := .struct [
  ("symbol", .string), ("maxSupply", .string), ("decimals", .unsigned 32), ("isNonFungible", .bool),
  ("carbonTokenId", .unsigned 64), ("metadata", .map .string)]

def tokenSeriesCreateData : Shape := .struct [
  ("symbol", .string), ("seriesId", .string), ("maxMint", .unsigned 32),
  ("maxSupply", .unsigned 32), ("owner", .string), ("carbonTokenId", .unsigned 64),
  ("carbonSeriesId", .unsigned 32), ("metadata", .map .string)]

def marketOrderData : Shape := .struct [
  ("baseSymbol", .string), ("quoteSymbol", .string), ("tokenId", .string),
  ("carbonBaseTokenId", .unsigned 64), ("carbonQuoteTokenId", .unsigned 64),
  ("carbonInstanceId", .unsigned 64), ("seller", .string), ("buyer", .string), ("price", .string),
  ("endPrice", .string), ("startDate", .signed 64), ("endDate", .signed 64), ("type", .string)]

/-! ## Arguments of calls -/

def rawArguments : Shape := .struct [("rawArgs", .string)]

def gasConfigArguments : Shape := .struct [
  ("version", .string), ("maxNameLength", .string), ("maxTokenSymbolLength", .string),
  ("feeShift", .string), ("maxStructureSize", .string), ("feeMultiplier", .string),
  ("gasTokenId", .string), ("dataTokenId", .string), ("minimumGasOffer", .string),
  ("dataEscrowPerRow", .string), ("gasFeeTransfer", .string), ("gasFeeQuery", .string),
  ("gasFeeCreateTokenBase", .string), ("gasFeeCreateTokenSymbol", .string),
  ("gasFeeCreateTokenSeries", .string), ("gasFeePerByte", .string), ("gasFeeRegisterName", .string),
  ("gasBurnRatioMul", .string), ("gasBurnRatioShift", .string), ("minimumGasBill", .option .string),
  ("gasProducerRatioMul", .option .string), ("gasProducerRatioShift", .option .string),
  ("gasDappRatioMul", .option .string), ("gasDappRatioShift", .option .string),
  ("policyFeeCreateTokenBase", .option .string), ("policyFeeCreateTokenSymbol", .option .string),
  ("policyFeeCreateTokenSeries", .option .string), ("policyFeeRegisterName", .option .string),
  ("legacyDataEscrowPerRow", .option .string)]

def chainConfigArguments : Shape := .struct [
  ("version", .string), ("reserved1", .string), ("reserved2", .string), ("reserved3", .string),
  ("allowedTxTypes", .string), ("expiryWindow", .string), ("blockRateTarget", .string)]

def nestedResolutionArguments : Shape := .struct [("resolutionId", .string)]

def metadataArguments : Shape := .struct [("metadata", .map .custom)]

def consensusNode : Shape := .struct [("id", .string), ("type", .string)]

def nodeConfigArguments : Shape := .struct [("nodes", .seq consensusNode)]

def registerNameArguments : Shape := .struct [("address", .string), ("name", .string)]

def addressArguments : Shape := .struct [("address", .string)]

def nameArguments : Shape := .struct [("name", .string)]

def executeScriptArguments : Shape := .struct [
  ("maxGas", .string), ("gasFrom", .string), ("script", .string)]

def registerTokenContractArguments : Shape := .struct [
  ("tokenId", .string), ("symbol", .string), ("script", .string), ("abi", .string),
  ("token", .option .string)]

def deployContractArguments : Shape := .struct [
  ("from", .string), ("contractName", .string), ("script", .string), ("abi", .string)]

def phantasmaVmConfigArguments : Shape := .struct [
  ("featureLevel", .string), ("gasConstructor", .string), ("gasNexus", .string),
  ("gasOrganization", .string), ("gasAccount", .string), ("gasLeaderboard", .string),
  ("gasStandard", .string), ("gasOracle", .string), ("fuelPerContractDeploy", .string)]

def contractStorageRow : Shape := .struct [("key", .string), ("value", .string)]

def contractStorageTable : Shape := .struct [("name", .string), ("rows", .seq contractStorageRow)]

def importedContract : Shape := .struct [
  ("name", .string), ("address", .string), ("owner", .string), ("script", .string),
  ("abi", .string), ("rootVariables", .seq contractStorageRow),
  ("tables", .seq contractStorageTable)]

def importContractsArguments : Shape := .struct [
  ("contractsCount", .string), ("contracts", .seq importedContract)]

def seriesSupplement : Shape := .struct [
  ("token", .string), ("tokenId", .string), ("phantasmaSeriesId", .string), ("maxSupply", .string),
  ("mintCount", .string), ("mode", .string), ("script", .string), ("abi", .string),
  ("rom", .string)]

def seriesMintCountRepair : Shape := .struct [
  ("token", .string), ("tokenId", .string), ("phantasmaSeriesId", .string),
  ("importedLiveCount", .string), ("script", .string), ("abi", .string)]

def repairSeriesArguments : Shape := .struct [
  ("supplementsCount", .string), ("supplements", .seq seriesSupplement), ("repairsCount", .string),
  ("repairs", .seq seriesMintCountRepair)]

def tokenRepair : Shape := .struct [
  ("token", .string), ("tokenId", .string), ("symbol", .string), ("script", .string),
  ("abi", .string), ("tokenFlags", .string), ("repairMask", .string)]

def repairTokenArguments : Shape := .struct [
  ("repairsCount", .string), ("repairs", .seq tokenRepair)]

def tokenReferenceArguments : Shape := .struct [("token", .string), ("tokenId", .string)]

def tokenSeriesReferenceArguments : Shape := .struct [
  ("seriesId", .string), ("token", .string), ("tokenId", .string)]

def symbolArguments : Shape := .struct [("symbol", .string)]

def transferFungibleArguments : Shape := .struct [
  ("from", .string), ("to", .string), ("amount", .string), ("token", .string), ("tokenId", .string)]

def transferNonFungibleArguments : Shape := .struct [
  ("from", .string), ("to", .string), ("instanceIds", .seq .string), ("token", .string),
  ("tokenId", .string)]

def mintFungibleArguments : Shape := .struct [
  ("to", .string), ("amount", .string), ("token", .string), ("tokenId", .string)]

def burnFungibleArguments : Shape := .struct [
  ("from", .string), ("amount", .string), ("token", .string), ("tokenId", .string)]

def balanceArguments : Shape := .struct [
  ("address", .string), ("token", .string), ("tokenId", .string)]

def createTokenArguments : Shape := .struct [
  ("symbol", .string), ("owner", .string), ("maxSupply", .string), ("decimals", .string),
  ("flags", .string), ("metadata", .option (.map .custom)), ("tokenSchemas", .option .string)]

def tokenSeriesArguments : Shape := .struct [
  ("owner", .string), ("maxMint", .string), ("maxSupply", .string),
  ("metadata", .option (.map .custom)), ("seriesId", .option .string),
  ("metadataRaw", .option .string), ("token", .string), ("tokenId", .string)]

def createMintedTokenSeriesArguments : Shape := .struct [
  ("recipient", .string), ("roms", .seq .string), ("rams", .seq .string), ("owner", .string),
  ("maxMint", .string), ("maxSupply", .string), ("metadata", .option (.map .custom)),
  ("seriesId", .option .string), ("metadataRaw", .option .string), ("token", .string),
  ("tokenId", .string)]

def nftMint : Shape := .struct [("seriesId", .string), ("rom", .string), ("ram", .string)]

def phantasmaNftMint : Shape := .struct [
  ("phantasmaSeriesId", .string), ("rom", .string), ("ram", .string)]

def mintNonFungibleArguments : Shape := .struct [
  ("owner", .string), ("tokens", .seq nftMint), ("token", .string), ("tokenId", .string)]

def mintPhantasmaNonFungibleArguments : Shape := .struct [
  ("owner", .string), ("tokens", .seq phantasmaNftMint), ("token", .string), ("tokenId", .string)]

def burnNonFungibleArguments : Shape := .struct [
  ("address", .string), ("instanceIds", .seq .string), ("token", .string), ("tokenId", .string)]

def nonFungibleInfoArguments : Shape := .struct [
  ("instanceId", .string), ("getSchemas", .string), ("token", .string), ("tokenId", .string)]

def nonFungibleInfoByRomIdArguments : Shape := .struct [
  ("romId", .string), ("getSchemas", .string), ("token", .string), ("tokenId", .string)]

def seriesInfoByMetaIdArguments : Shape := .struct [
  ("romId", .string), ("token", .string), ("tokenId", .string)]

def tokensConfigArguments : Shape := .struct [("flags", .string), ("flagsNames", .seq .string)]

def updateTokenMetadataArguments : Shape := .struct [
  ("metadata", .option (.map .custom)), ("token", .string), ("tokenId", .string)]

def updateSeriesMetadataArguments : Shape := .struct [
  ("seriesId", .string), ("metadata", .string), ("token", .string), ("tokenId", .string)]

/-- The variants of the arguments of a call. -/
inductive ArgumentsKind
  | raw
  | gasConfig
  | chainConfig
  | nestedResolution
  | metadata
  | nodeConfig
  | registerName
  | address
  | name
  | executeScript
  | registerTokenContract
  | deployContract
  | phantasmaVmConfig
  | importContracts
  | repairSeries
  | repairToken
  | tokenReference
  | tokenSeriesReference
  | symbol
  | transferFungible
  | transferNonFungible
  | mintFungible
  | burnFungible
  | balance
  | createToken
  | tokenSeries
  | createMintedTokenSeries
  | mintNonFungible
  | mintPhantasmaNonFungible
  | burnNonFungible
  | nonFungibleInfo
  | nonFungibleInfoByRomId
  | seriesInfoByMetaId
  | tokensConfig
  | updateTokenMetadata
  | updateSeriesMetadata
  deriving DecidableEq, Repr

def ArgumentsKind.shape : ArgumentsKind → Shape
  | .raw => rawArguments
  | .gasConfig => gasConfigArguments
  | .chainConfig => chainConfigArguments
  | .nestedResolution => nestedResolutionArguments
  | .metadata => metadataArguments
  | .nodeConfig => nodeConfigArguments
  | .registerName => registerNameArguments
  | .address => addressArguments
  | .name => nameArguments
  | .executeScript => executeScriptArguments
  | .registerTokenContract => registerTokenContractArguments
  | .deployContract => deployContractArguments
  | .phantasmaVmConfig => phantasmaVmConfigArguments
  | .importContracts => importContractsArguments
  | .repairSeries => repairSeriesArguments
  | .repairToken => repairTokenArguments
  | .tokenReference => tokenReferenceArguments
  | .tokenSeriesReference => tokenSeriesReferenceArguments
  | .symbol => symbolArguments
  | .transferFungible => transferFungibleArguments
  | .transferNonFungible => transferNonFungibleArguments
  | .mintFungible => mintFungibleArguments
  | .burnFungible => burnFungibleArguments
  | .balance => balanceArguments
  | .createToken => createTokenArguments
  | .tokenSeries => tokenSeriesArguments
  | .createMintedTokenSeries => createMintedTokenSeriesArguments
  | .mintNonFungible => mintNonFungibleArguments
  | .mintPhantasmaNonFungible => mintPhantasmaNonFungibleArguments
  | .burnNonFungible => burnNonFungibleArguments
  | .nonFungibleInfo => nonFungibleInfoArguments
  | .nonFungibleInfoByRomId => nonFungibleInfoByRomIdArguments
  | .seriesInfoByMetaId => seriesInfoByMetaIdArguments
  | .tokensConfig => tokensConfigArguments
  | .updateTokenMetadata => updateTokenMetadataArguments
  | .updateSeriesMetadata => updateSeriesMetadataArguments

/-- The arguments of each method, by module and name. -/
def callShapes : List ((String × String) × ArgumentsKind) :=
  [(("governance", "SetGasConfig"), .gasConfig),
    (("governance", "SetChainConfig"), .chainConfig),
    (("governance", "SpecialResolution"), .nestedResolution),
    (("governance", "SetMetadata"), .metadata),
    (("governance", "SetNodeConfig"), .nodeConfig),
    (("governance", "RegisterName"), .registerName),
    (("governance", "LookupName"), .address),
    (("governance", "LookupAddress"), .name),
    (("phantasma_vm", "ExecuteScript"), .executeScript),
    (("phantasma_vm", "RegisterTokenContract"), .registerTokenContract),
    (("phantasma_vm", "DeployContract"), .deployContract),
    (("phantasma_vm", "IsContractDeployed"), .name),
    (("phantasma_vm", "SetConfig"), .phantasmaVmConfig),
    (("phantasma_vm", "ImportContracts"), .importContracts),
    (("phantasma_vm", "RepairSeries"), .repairSeries),
    (("phantasma_vm", "RepairToken"), .repairToken),
    (("token", "TransferFungible"), .transferFungible),
    (("token", "TransferNonFungible"), .transferNonFungible),
    (("token", "CreateToken"), .createToken),
    (("token", "MintFungible"), .mintFungible),
    (("token", "BurnFungible"), .burnFungible),
    (("token", "GetBalance"), .balance),
    (("token", "CreateTokenSeries"), .tokenSeries),
    (("token", "DeleteTokenSeries"), .tokenSeriesReference),
    (("token", "MintNonFungible"), .mintNonFungible),
    (("token", "BurnNonFungible"), .burnNonFungible),
    (("token", "GetNonFungibleInfo"), .nonFungibleInfo),
    (("token", "GetNonFungibleInfoByRomId"), .nonFungibleInfoByRomId),
    (("token", "GetSeriesInfo"), .tokenSeriesReference),
    (("token", "GetSeriesInfoByMetaId"), .seriesInfoByMetaId),
    (("token", "GetTokenInfo"), .tokenReference),
    (("token", "GetTokenInfoBySymbol"), .symbol),
    (("token", "GetTokenSupply"), .tokenReference),
    (("token", "GetSeriesSupply"), .tokenSeriesReference),
    (("token", "GetTokenIdBySymbol"), .symbol),
    (("token", "GetBalances"), .address),
    (("token", "CreateMintedTokenSeries"), .createMintedTokenSeries),
    (("token", "ApplyInflation"), .tokenReference),
    (("token", "UpdateTokenMetadata"), .updateTokenMetadata),
    (("token", "GetNextTokenInflation"), .tokenReference),
    (("token", "SetTokensConfig"), .tokensConfig),
    (("token", "UpdateSeriesMetadata"), .updateSeriesMetadata),
    (("token", "MintPhantasmaNonFungible"), .mintPhantasmaNonFungible)]

theorem ArgumentsKind.distinct_shape (kind : ArgumentsKind) : kind.shape.distinct := by
  cases kind <;> decide +kernel

end PhantasmaSdk.ExtendedEvents
