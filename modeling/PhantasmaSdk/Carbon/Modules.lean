import PhantasmaSdk.Carbon.VmHostile
import PhantasmaSdk.Fees.ConfigWire

/-!
# The records of the modules

The records the SDK writes and reads for the modules of a chain, as one family: what
holds of each of them holds whatever the record is.
-/

namespace PhantasmaSdk

open Codec Codec.Decoder CarbonWriter CarbonReader

/-- A record type of a module. -/
inductive ModuleRecord
  | chainConfig
  | gasConfig
  | tokensConfig
  | marketConfig
  | tokenInfo
  | seriesInfo
  | createTokenSeries
  | createMintedTokenSeries
  | updateSeriesMetadata
  | nftMintInfo
  | mintNonFungible
  | phantasmaNftMintInfo
  | mintPhantasmaNonFungible
  | phantasmaNftMintResult
  | registerName
  | transferFungible
  | transferNonFungible
  | mintFungible
  | burnFungible
  | burnNonFungible
  | tokenListing
  | marketSellToken
  | marketCancelSale
  | marketBuyToken
  | marketGetTokenListingCount
  | marketGetTokenListingInfo
  deriving DecidableEq, Repr

namespace ModuleRecord

def Value : ModuleRecord → Type
  | chainConfig => ChainConfig
  | gasConfig => GasConfig
  | tokensConfig => TokensConfig
  | marketConfig => MarketConfig
  | tokenInfo => TokenInfo
  | seriesInfo => SeriesInfo
  | createTokenSeries => CreateTokenSeriesArgs
  | createMintedTokenSeries => CreateMintedTokenSeriesArgs
  | updateSeriesMetadata => UpdateSeriesMetadataArgs
  | nftMintInfo => NFTMintInfo
  | mintNonFungible => MintNonFungibleArgs
  | phantasmaNftMintInfo => PhantasmaNFTMintInfo
  | mintPhantasmaNonFungible => MintPhantasmaNonFungibleArgs
  | phantasmaNftMintResult => PhantasmaNFTMintResult
  | registerName => RegisterNameArgs
  | transferFungible => TransferFungibleArgs
  | transferNonFungible => TransferNonFungibleArgs
  | mintFungible => MintFungibleArgs
  | burnFungible => BurnFungibleArgs
  | burnNonFungible => BurnNonFungibleArgs
  | tokenListing => TokenListing
  | marketSellToken => MarketSellTokenArgs
  | marketCancelSale => MarketCancelSaleArgs
  | marketBuyToken => MarketBuyTokenArgs
  | marketGetTokenListingCount => MarketGetTokenListingCountArgs
  | marketGetTokenListingInfo => MarketGetTokenListingInfoArgs

instance (r : ModuleRecord) : CarbonSerializable r.Value :=
  match r with
  | chainConfig => inferInstanceAs (CarbonSerializable ChainConfig)
  | gasConfig => inferInstanceAs (CarbonSerializable GasConfig)
  | tokensConfig => inferInstanceAs (CarbonSerializable TokensConfig)
  | marketConfig => inferInstanceAs (CarbonSerializable MarketConfig)
  | tokenInfo => inferInstanceAs (CarbonSerializable TokenInfo)
  | seriesInfo => inferInstanceAs (CarbonSerializable SeriesInfo)
  | createTokenSeries => inferInstanceAs (CarbonSerializable CreateTokenSeriesArgs)
  | createMintedTokenSeries => inferInstanceAs (CarbonSerializable CreateMintedTokenSeriesArgs)
  | updateSeriesMetadata => inferInstanceAs (CarbonSerializable UpdateSeriesMetadataArgs)
  | nftMintInfo => inferInstanceAs (CarbonSerializable NFTMintInfo)
  | mintNonFungible => inferInstanceAs (CarbonSerializable MintNonFungibleArgs)
  | phantasmaNftMintInfo => inferInstanceAs (CarbonSerializable PhantasmaNFTMintInfo)
  | mintPhantasmaNonFungible => inferInstanceAs (CarbonSerializable MintPhantasmaNonFungibleArgs)
  | phantasmaNftMintResult => inferInstanceAs (CarbonSerializable PhantasmaNFTMintResult)
  | registerName => inferInstanceAs (CarbonSerializable RegisterNameArgs)
  | transferFungible => inferInstanceAs (CarbonSerializable TransferFungibleArgs)
  | transferNonFungible => inferInstanceAs (CarbonSerializable TransferNonFungibleArgs)
  | mintFungible => inferInstanceAs (CarbonSerializable MintFungibleArgs)
  | burnFungible => inferInstanceAs (CarbonSerializable BurnFungibleArgs)
  | burnNonFungible => inferInstanceAs (CarbonSerializable BurnNonFungibleArgs)
  | tokenListing => inferInstanceAs (CarbonSerializable TokenListing)
  | marketSellToken => inferInstanceAs (CarbonSerializable MarketSellTokenArgs)
  | marketCancelSale => inferInstanceAs (CarbonSerializable MarketCancelSaleArgs)
  | marketBuyToken => inferInstanceAs (CarbonSerializable MarketBuyTokenArgs)
  | marketGetTokenListingCount => inferInstanceAs (CarbonSerializable MarketGetTokenListingCountArgs)
  | marketGetTokenListingInfo => inferInstanceAs (CarbonSerializable MarketGetTokenListingInfoArgs)

/-- The values that fit the wire: amounts, lengths and schemas do, and what a record
    has for a field that is not on the wire is its default. -/
def Fits : (r : ModuleRecord) → r.Value → Prop
  | chainConfig => fun _ => True
  | gasConfig => GasConfig.Fits
  | tokensConfig => fun _ => True
  | marketConfig => fun _ => True
  | tokenInfo => TokenInfo.Fits
  | seriesInfo => SeriesInfo.Fits
  | createTokenSeries => fun (v : CreateTokenSeriesArgs) => v.info.Fits
  | createMintedTokenSeries => CreateMintedTokenSeriesArgs.Fits
  | updateSeriesMetadata => fun (v : UpdateSeriesMetadataArgs) => v.metadata.length < 2 ^ 31
  | nftMintInfo => NFTMintInfo.Fits
  | mintNonFungible => fun (v : MintNonFungibleArgs) =>
    v.tokens.length < 2 ^ 31 ∧ ∀ token ∈ v.tokens, token.Fits
  | phantasmaNftMintInfo => PhantasmaNFTMintInfo.Fits
  | mintPhantasmaNonFungible => fun (v : MintPhantasmaNonFungibleArgs) =>
    v.tokens.length < 2 ^ 31 ∧ ∀ token ∈ v.tokens, token.Fits
  | phantasmaNftMintResult => fun _ => True
  | registerName => fun _ => True
  | transferFungible => fun (v : TransferFungibleArgs) => v.amount.InRange
  | transferNonFungible => fun (v : TransferNonFungibleArgs) => v.instanceIds.length < 2 ^ 31
  | mintFungible => fun (v : MintFungibleArgs) => v.amount.InRange
  | burnFungible => fun (v : BurnFungibleArgs) => v.amount.InRange
  | burnNonFungible => fun (v : BurnNonFungibleArgs) => v.instanceIds.length < 2 ^ 31
  | tokenListing => fun (v : TokenListing) => v.price.InRange
  | marketSellToken => fun (v : MarketSellTokenArgs) => v.price.InRange
  | marketCancelSale => fun _ => True
  | marketBuyToken => fun _ => True
  | marketGetTokenListingCount => fun _ => True
  | marketGetTokenListingInfo => fun _ => True

/-- The values that have one image. An amount is written in one way and read in
    several. -/
def Exact : (r : ModuleRecord) → r.Value → Prop
  | tokenInfo => fun _ => False
  | phantasmaNftMintInfo => fun _ => False
  | mintPhantasmaNonFungible => fun (v : MintPhantasmaNonFungibleArgs) => v.tokens = []
  | transferFungible => fun _ => False
  | mintFungible => fun _ => False
  | burnFungible => fun _ => False
  | tokenListing => fun _ => False
  | marketSellToken => fun _ => False
  | _ => fun _ => True

/-- No value of the record is written in fewer bytes. -/
def minLength : ModuleRecord → ℕ
  | chainConfig => 16
  | gasConfig => 113
  | tokensConfig => 1
  | marketConfig => 28
  | tokenInfo => 40
  | seriesInfo => 54
  | createTokenSeries => 62
  | createMintedTokenSeries => 102
  | updateSeriesMetadata => 16
  | nftMintInfo => 12
  | mintNonFungible => 44
  | phantasmaNftMintInfo => 9
  | mintPhantasmaNonFungible => 44
  | phantasmaNftMintResult => 40
  | registerName => 33
  | transferFungible => 73
  | transferNonFungible => 76
  | mintFungible => 41
  | burnFungible => 41
  | burnNonFungible => 44
  | tokenListing => 58
  | marketSellToken => 65
  | marketCancelSale => 16
  | marketBuyToken => 48
  | marketGetTokenListingCount => 8
  | marketGetTokenListingInfo => 16

/-- Every record of a module is a format. -/
theorem record (r : ModuleRecord) : Record r.Value r.Fits r.Exact r.minLength := by
  cases r with
  | chainConfig => exact ChainConfig.record
  | gasConfig => exact GasConfig.record
  | tokensConfig => exact TokensConfig.record
  | marketConfig => exact MarketConfig.record
  | tokenInfo => exact TokenInfo.record
  | seriesInfo => exact SeriesInfo.record
  | createTokenSeries => exact CreateTokenSeriesArgs.record
  | createMintedTokenSeries => exact CreateMintedTokenSeriesArgs.record
  | updateSeriesMetadata => exact UpdateSeriesMetadataArgs.record
  | nftMintInfo => exact NFTMintInfo.record
  | mintNonFungible => exact MintNonFungibleArgs.record
  | phantasmaNftMintInfo => exact PhantasmaNFTMintInfo.record
  | mintPhantasmaNonFungible => exact MintPhantasmaNonFungibleArgs.record
  | phantasmaNftMintResult => exact PhantasmaNFTMintResult.record
  | registerName => exact RegisterNameArgs.record
  | transferFungible => exact TransferFungibleArgs.record
  | transferNonFungible => exact TransferNonFungibleArgs.record
  | mintFungible => exact MintFungibleArgs.record
  | burnFungible => exact BurnFungibleArgs.record
  | burnNonFungible => exact BurnNonFungibleArgs.record
  | tokenListing => exact TokenListing.record
  | marketSellToken => exact MarketSellTokenArgs.record
  | marketCancelSale => exact MarketCancelSaleArgs.record
  | marketBuyToken => exact MarketBuyTokenArgs.record
  | marketGetTokenListingCount => exact MarketGetTokenListingCountArgs.record
  | marketGetTokenListingInfo => exact MarketGetTokenListingInfoArgs.record

/-- A record that was serialized is read back iff it fits, and is then refused when
    any of its bytes are missing at the end. -/
theorem deserialize_serialize_iff (r : ModuleRecord) (v : r.Value) (enc : Bytes)
    (hw : serialize v = .ok enc) : (deserialize r.Value enc = .ok v ↔ r.Fits v) ∧
      (r.Fits v → ∀ short more, enc = short ++ more → more ≠ [] →
        ∃ e, deserialize r.Value short = .error (.error e)) := by
  refine ⟨⟨fun hd => (r.record.serialize_of_deserialize hd).1,
    fun hfits => r.record.deserialize_of_serialize hfits hw⟩, ?_⟩
  rintro hfits short more rfl hmore
  exact r.record.deserialize_short hfits hw hmore

/-- A fungible token with schemas, which it does not have on the wire. -/
def schemedToken : TokenInfo where
  maxSupply := ⟨1000⟩
  flags := .bigFungible
  decimals := 8
  owner := emptyBytes32
  symbol := ⟨"TOK"⟩
  metadata := []
  tokenSchemas := [9]

theorem deserialize_serialize_schemedToken : ∃ enc, serialize schemedToken = .ok enc ∧
    deserialize TokenInfo enc ≠ .ok schemedToken := by
  have hw : ∃ enc, serialize (show Value tokenInfo from schemedToken) = .ok enc := ⟨_, rfl⟩
  obtain ⟨enc, hw⟩ := hw
  refine ⟨enc, hw, fun hd => ?_⟩
  have hfits := (deserialize_serialize_iff tokenInfo schemedToken enc hw).1.1 hd
  exact absurd hfits.2.2 (by decide)

/-! ## On a stack of any size -/

/-- The records with a schema, whose reader calls itself for a schema nested in it. -/
def HasSchemas : ModuleRecord → Prop
  | seriesInfo | createTokenSeries | createMintedTokenSeries => True
  | _ => False

/-- The reader on a stack that holds so many calls for a schema, one in another. -/
def readOn (stack : ℕ) : (r : ModuleRecord) → Reader r.Value
  | seriesInfo => SeriesInfo.readWith (VMStructSchema.readAt stack)
  | createTokenSeries => CreateTokenSeriesArgs.readWith (VMStructSchema.readAt stack)
  | createMintedTokenSeries => CreateMintedTokenSeriesArgs.readWith (VMStructSchema.readAt stack)
  | r => (readCarbon : Reader r.Value)

theorem readOn_of_not_hasSchemas {r : ModuleRecord} (h : ¬r.HasSchemas) (stack : ℕ) :
    r.readOn stack = readCarbon := by
  cases r with
  | seriesInfo | createTokenSeries | createMintedTokenSeries => exact absurd trivial h
  | _ => rfl

theorem exact_of_hasSchemas {r : ModuleRecord} (h : r.HasSchemas) (v : r.Value) : r.Exact v := by
  cases r with
  | seriesInfo | createTokenSeries | createMintedTokenSeries => exact trivial
  | _ => exact h.elim

theorem deepens_seriesInfo : Deepens Fault.IsPanic (.panic .stackOverflow) (fun stack => 6 * stack)
    (readOn · seriesInfo) (readCarbon : Reader SeriesInfo) :=
  .after (tame_readLE 4 _) fun _ => .after (tame_readLE 4 _) fun _ => .after (tame_readArray 32)
    fun _ => .after tame_readByteArray fun _ => VMStructSchema.deepens_readAt.bind fun _ =>
      VMStructSchema.deepens_readAt.map _

theorem deepens_readOn {r : ModuleRecord} (h : r.HasSchemas) : Deepens Fault.IsPanic
    (.panic .stackOverflow) (fun stack => 6 * stack) (readOn · r) (readCarbon : Reader r.Value) := by
  cases r with
  | seriesInfo => exact deepens_seriesInfo
  | createTokenSeries => exact .after (tame_readLE 8 _) fun _ => deepens_seriesInfo.map _
  | createMintedTokenSeries =>
    have hbytes := tame_array tame_readByteArray 4
    exact .after (tame_readLE 8 _) fun _ => deepens_seriesInfo.bind fun _ =>
      Tame.deepens ((tame_readArray 32).bind fun _ => hbytes.bind fun _ => hbytes.map _) _ _
  | _ => exact h.elim

/-- A record with schemas overflows a stack of any size: by a schema that holds a schema,
    and so on. -/
theorem exists_overflow {r : ModuleRecord} (h : r.HasSchemas) (stack : ℕ) :
    ∃ data, (r.readOn stack).run data = .error (.panic .stackOverflow) := by
  have hseries : (SeriesInfo.readWith (VMStructSchema.readAt stack)).run (write4u 0 ++ (write4u 0 ++
      (write32 emptyBytes32 ++ (write4 0 ++ (nestedSchemas stack ++ []))))) =
        .error (.panic .stackOverflow) := by
    refine (run_bind_of_ok (reads_read4u 0 _)).trans ?_
    refine (run_bind_of_ok (reads_read4u 0 _)).trans ?_
    refine (run_bind_of_ok (reads_read32 emptyBytes32 _)).trans ?_
    have hempty : writeByteArray [] = .ok (write4 0) := rfl
    refine (run_bind_of_ok (reads_readByteArray (by norm_num) hempty _)).trans ?_
    exact run_bind_of_error (VMStructSchema.run_readAt_nestedSchemas stack [])
  cases r with
  | seriesInfo => exact ⟨_, hseries⟩
  | createTokenSeries =>
    exact ⟨_, (run_bind_of_ok (reads_read8u 0 _)).trans (run_bind_of_error hseries)⟩
  | createMintedTokenSeries =>
    exact ⟨_, (run_bind_of_ok (reads_read8u 0 _)).trans (run_bind_of_error hseries)⟩
  | _ => exact h.elim

theorem cut_readOn (r : ModuleRecord) (stack : ℕ) :
    Cut (.panic .stackOverflow) (r.readOn stack) (readCarbon : Reader r.Value) := by
  by_cases h : r.HasSchemas
  · exact (deepens_readOn h).cut stack
  · rw [readOn_of_not_hasSchemas h]
    exact .refl _ _

/-- Off any bytes, and on a stack of any size, a record is read or refused with an error, or
    its schemas overflow the stack, for which they take six bytes a call. No more is asked
    for than is left, and what is read is what the source's reader reads given stack enough.
    What is accepted is serialized, and read as the same value; as the same bytes, if it has
    one image. Schemas overflow a stack of any size. -/
theorem safe_and_settled (r : ModuleRecord) (stack : ℕ) (data : Bytes) :
    (∀ p, deserializeWith (r.readOn stack) data = .error (.panic p) →
      p = .stackOverflow ∧ r.HasSchemas ∧ 6 * stack ≤ data.length) ∧
    (∀ q ∈ (r.readOn stack).requests data, q.Bounded) ∧
    (deserializeWith (r.readOn stack) data = .error (.panic .stackOverflow) ∨
      deserializeWith (r.readOn stack) data = deserialize r.Value data) ∧
    (∀ v, deserializeWith (r.readOn stack) data = .ok v → ∃ enc, serialize v = .ok enc ∧
      deserializeWith (r.readOn stack) enc = .ok v ∧ (r.Exact v → enc = data)) ∧
    (r.HasSchemas →
      ∃ deep, deserializeWith (r.readOn stack) deep = .error (.panic .stackOverflow)) := by
  have hcut := r.cut_readOn stack
  have halike := deserializeWith_of_cut hcut data
  refine ⟨fun p hp => ?_, fun q hq => (r.record.safe data).2 q (hcut.requests_subset data hq), halike,
    fun v hd => ?_, fun h => ?_⟩
  · have hrun := run_of_deserializeWith_panic hp
    by_cases h : r.HasSchemas
    · obtain ⟨he, hle⟩ := (deepens_readOn h).eq_of_bad hrun (Fault.isPanic_panic p)
      exact ⟨Fault.panic.inj he, h, hle⟩
    · rw [readOn_of_not_hasSchemas h] at hrun
      exact absurd (Fault.isPanic_panic p) ((r.record.safe data).1 _ hrun)
  · have hwhole : deserialize r.Value data = .ok v := by
      rcases halike with herror | heq
      · exact nomatch hd.symm.trans herror
      · exact heq.symm.trans hd
    obtain ⟨hfits, enc, hw, hexact⟩ := r.record.serialize_of_deserialize hwhole
    refine ⟨enc, hw, ?_, hexact⟩
    by_cases h : r.HasSchemas
    · rw [hexact (exact_of_hasSchemas h v), hd]
    · rw [readOn_of_not_hasSchemas h]
      exact r.record.deserialize_of_serialize hfits hw
  · obtain ⟨deep, hdeep⟩ := exists_overflow h stack
    exact ⟨deep, deserializeWith_of_error hdeep⟩

end ModuleRecord

end PhantasmaSdk
