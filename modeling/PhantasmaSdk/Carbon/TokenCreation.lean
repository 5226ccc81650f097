import PhantasmaSdk.Carbon.Builders
import PhantasmaSdk.Carbon.MetadataKept
import PhantasmaSdk.Carbon.TokenMetadata
import PhantasmaSdk.Carbon.VmCanonical
import PhantasmaSdk.Fees.Preflight

/-!
# Creating tokens

A token is described by texts, a supply and flags that follow from them, and what describes
it is written twice: the texts into the metadata, and the metadata into the arguments of the
call that creates the token. Whoever prices that call, or asks whether its symbol is free,
reads both again: what they go by is what the token was built of
(`described_of_buildCreateTokenTx`).
-/

namespace PhantasmaSdk

open Codec Codec.Decoder CarbonWriter CarbonReader Carbon

/-! ## Building -/

def checkTokenSymbol (symbol : String) : Result Unit :=
  if (utf8 symbol).isEmpty then builder "token symbol must not be empty"
  else if 255 < (utf8 symbol).length then builder "token symbol exceeds 255 UTF-8 bytes"
  else if ¬(utf8 symbol).all (fun byte => 65 ≤ byte ∧ byte ≤ 90) then
    builder "token symbol must contain only uppercase ASCII letters A-Z"
  else pure ()

def SmallString.new (value : String) : Result SmallString :=
  if 255 < (utf8 value).length then serialization "SmallString exceeds 255 UTF-8 bytes"
  else pure ⟨value⟩

/-- The flags of a token. A supply without a limit, which is zero, has no bound of 64 bits. -/
def tokenFlags (maxSupply : IntX) (isNft : Bool) (tokenSchemas : Bytes) : Result TokenFlags :=
  if isNft then
    if ¬maxSupply.is8ByteSafe then builder "NFT maximum supply must fit into Int64"
    else if tokenSchemas.isEmpty then builder "token schemas are required for NFTs"
    else pure .nonFungible
  else if maxSupply.value = 0 ∨ ¬maxSupply.is8ByteSafe then pure .bigFungible
  else pure .none

def buildTokenInfo (symbol : String) (maxSupply : IntX) (isNft : Bool) (decimals : UInt8)
    (owner : Bytes32) (metadata tokenSchemas : Bytes) : Result TokenInfo := do
  checkTokenSymbol symbol
  if metadata.isEmpty then builder "metadata is required for all tokens"
  else
    let flags ← tokenFlags maxSupply isNft tokenSchemas
    let symbol ← SmallString.new symbol
    pure { maxSupply, flags, decimals, owner, symbol, metadata, tokenSchemas }

/-! ## Metadata -/

/-- A leaf is read whatever follows it. -/
theorem VMValue.FitsLeaf.need_extent {data : VMValue} {vmType : VMType}
    (h : data.FitsLeaf vmType) : (data.extent vmType .none).need = 0 := by
  unfold VMValue.FitsLeaf at h
  split at h <;> first | rfl | exact h.elim

namespace VMDynamicStruct

variable {fields : List VMNamedDynamicVariable}

/-- So is a list of variables that are. -/
theorem need_countedExtent
    (h : ∀ f ∈ fields, (f.value.data.extent f.value.vmType none).need = 0) :
    (countedExtent
      ((fields.map VMNamedDynamicVariable.fieldExtent).map FieldExtent.named)).need = 0 := by
  have hnamed : ∀ x ∈ (fields.map VMNamedDynamicVariable.fieldExtent).map FieldExtent.named,
      x.need = 0 ∧ 1 ≤ x.length := by
    intro x hx
    obtain ⟨_, hf', rfl⟩ := List.mem_map.1 hx
    obtain ⟨f, hf, rfl⟩ := List.mem_map.1 hf'
    rw [f.fieldExtent_eq, FieldExtent.named]
    refine ⟨Extent.need_append_eq_zero rfl (Extent.need_append_eq_zero rfl (h f hf)), ?_⟩
    rw [Extent.length_append, Extent.length_append, Extent.length_plain 1]
    omega
  rw [countedExtent, ← Nat.le_zero, Extent.need_append_le_iff,
    Extent.need_concat_eq_zero fun x hx => (hnamed x hx).1]
  exact ⟨Extent.length_le_concat fun x hx => (hnamed x hx).2, le_rfl⟩

/-- A struct of leaves is written, and read back whatever follows. -/
theorem exists_write_leaves (hl : fields.length < 2 ^ 31)
    (hnames : ∀ f ∈ fields, (utf8 f.name.value).length < 256)
    (hleaf : ∀ f ∈ fields, f.value.data.FitsLeaf f.value.vmType) :
    ∃ enc, serialize (⟨fields⟩ : VMDynamicStruct) = .ok enc ∧
      deserialize VMDynamicStruct enc = .ok (new fields) := by
  have hmem : ∀ f ∈ (new fields).fields, f ∈ fields := fun f => (perm_new fields).mem_iff.1
  have hfits : ∀ f ∈ (new fields).fields,
      f.value.data.Fits VMStructSchema.Normal f.value.vmType none := fun f hf =>
    .leaf (hleaf f (hmem f hf))
  obtain ⟨enc, hw, hreads⟩ := exists_writeNamed_within
    ((perm_new fields).length_eq.trans_lt hl) (fun f hf => hnames f (hmem f hf))
    (fun f hf => (hfits f hf).ne_array) fun f hf => (hfits f hf).readsBack
  refine ⟨enc, (write_eq ⟨fields⟩).trans hw, ?_⟩
  have hread := (hreads (stackFor enc none) (by rw [stackFor]; omega)).map new
  have hnew : new (new fields).fields = new fields := (sorted_new fields).sort_eq
  rw [hnew] at hread
  rw [deserialize_eq_ok, run_readCarbon]
  exact hread.run_self_iff.2 (need_countedExtent fun f hf => (hleaf f (hmem f hf)).need_extent)

end VMDynamicStruct

/-- A text of the metadata, as a variable. -/
def textField (field : String × String) : VMNamedDynamicVariable :=
  ⟨⟨field.1⟩, ⟨.string, .string field.2⟩⟩

section

variable {base64 : String → Except String Bytes} {fields : List (String × String)}

/-- Metadata that are built are the texts, of names that are short enough. -/
theorem serialize_of_buildTokenMetadata {metadata : Bytes}
    (h : buildTokenMetadata base64 fields = .ok metadata) :
    (∀ field ∈ fields, ShortName field.1) ∧
      serialize (VMDynamicStruct.new (fields.map textField)) = .ok metadata := by
  obtain ⟨_, -, h⟩ := bind_eq_ok.1 h
  obtain ⟨_, -, h⟩ := bind_eq_ok.1 h
  obtain ⟨named, hnamed, h⟩ := bind_eq_ok.1 h
  have hall : List.Forall₂ (fun field f => ShortName field.1 ∧ f = textField field) fields
      named := by
    refine (mapM_eq_ok.1 hnamed).imp fun field f hf => ?_
    obtain ⟨name, hname, hf⟩ := bind_eq_ok.1 hf
    obtain ⟨-, hname⟩ | ⟨hshort, hname⟩ := ite_eq_iff.1 hname
    · cases hname
    · rw [← Except.ok.inj hf, ← Except.ok.inj hname]
      exact ⟨not_lt.1 hshort, rfl⟩
  obtain rfl : named = fields.map textField := by
    refine List.forall₂_eq_eq_eq ▸ (List.forall₂_map_right_iff.2 ?_)
    exact (hall.imp fun _ _ hf => hf.2).flip
  exact ⟨fun field hf => (exists_of_forall₂_mem hall hf).elim fun _ h => h.2.1, h⟩

/-- A text is written iff no byte of it is zero, which would end it. -/
theorem fitsLeaf_of_write {field : String × String} {enc : Bytes}
    (h : (textField field).fieldWriter.write = .ok enc) :
    (textField field).value.data.FitsLeaf (textField field).value.vmType := by
  obtain ⟨_, -, h⟩ := bind_eq_ok.1 h
  obtain ⟨body, hbody, -⟩ := bind_eq_ok.1 h
  have htext : writeStringZ field.2 = .ok body := hbody
  obtain ⟨-, htext⟩ | ⟨hzero, -⟩ := ite_eq_iff.1 htext
  · cases htext
  · exact hzero

theorem get_new_textField (name : String) :
    (VMDynamicStruct.new (fields.map textField)).get ⟨name⟩ =
      (fields.lookup name).map fun value => ⟨.string, .string value⟩ := by
  have hfind : (VMDynamicStruct.new (fields.map textField)).fields.find? (·.name = ⟨name⟩) =
      (fields.map textField).find? (·.name = ⟨name⟩) := find?_sortByName _ _
  rw [VMDynamicStruct.get, hfind]
  induction fields with
  | nil => rfl
  | cons field fields ih =>
    obtain ⟨name', value⟩ := field
    rw [List.map_cons, List.find?_cons, List.lookup_cons]
    by_cases hname : name = name'
    · subst hname
      simp [textField]
    · have hne : (textField (name', value)).name ≠ ⟨name⟩ := fun h =>
        hname (congrArg SmallString.value h).symm
      rw [decide_eq_false hne, beq_eq_false_iff_ne.2 hname]
      exact ih (find?_sortByName _ _)

/-- Of metadata that are built, the first text of each name is read. -/
theorem deserialize_of_buildTokenMetadata {metadata : Bytes}
    (h : buildTokenMetadata base64 fields = .ok metadata) (hsize : metadata.length < 2 ^ 31) :
    ∃ s, deserialize VMDynamicStruct metadata = .ok s ∧ ∀ name, s.get ⟨name⟩ =
      (fields.lookup name).map fun value => ⟨.string, .string value⟩ := by
  obtain ⟨hshort, hw⟩ := serialize_of_buildTokenMetadata h
  have hsorted := VMDynamicStruct.sorted_new (fields.map textField)
  have hget : ∀ name, (VMDynamicStruct.new (fields.map textField)).get ⟨name⟩ =
      (fields.lookup name).map fun value => ⟨.string, .string value⟩ := get_new_textField
  have hmem : ∀ f ∈ (VMDynamicStruct.new (fields.map textField)).fields, ∃ field ∈ fields,
      f = textField field := fun f hf =>
    (List.mem_map.1 ((VMDynamicStruct.perm_new _).mem_iff.1 hf)).imp fun _ h => ⟨h.1, h.2.symm⟩
  generalize VMDynamicStruct.new (fields.map textField) = texts at hw hsorted hget hmem
  have hwriters := (VMDynamicStruct.write_eq texts).symm.trans hw
  rw [hsorted.sort_eq] at hwriters
  obtain ⟨len, -, hwriters⟩ := bind_eq_ok.1 hwriters
  obtain ⟨encs, hencs, hwriters⟩ := bind_eq_ok.1 hwriters
  have hall := List.forall₂_map_left_iff.1 (mapM_eq_ok.1 hencs)
  have hlength : texts.fields.length < 2 ^ 31 := by
    have hle : texts.fields.length * 1 ≤ encs.flatten.length := le_length_flatten
      (hall.imp fun f enc henc => List.length_pos_iff.2 (ne_nil_of_write henc))
    rw [← Except.ok.inj hwriters, List.length_append] at hsize
    omega
  have hnames : ∀ f ∈ texts.fields, (utf8 f.name.value).length < 256 := fun f hf => by
    obtain ⟨field, hfield, rfl⟩ := hmem f hf
    exact Nat.lt_succ_of_le (hshort field hfield)
  have hleaf : ∀ f ∈ texts.fields, f.value.data.FitsLeaf f.value.vmType := fun f hf => by
    obtain ⟨enc, -, henc⟩ := exists_of_forall₂_mem hall hf
    obtain ⟨field, -, rfl⟩ := hmem f hf
    exact fitsLeaf_of_write henc
  obtain ⟨enc, henc, hread⟩ := VMDynamicStruct.exists_write_leaves hlength hnames hleaf
  have hnew : VMDynamicStruct.new texts.fields = texts := hsorted.sort_eq
  rw [hnew] at hread
  cases texts
  rw [Except.ok.inj (henc.symm.trans hw)] at hread
  exact ⟨_, hread, hget⟩

/-- The planner finds a name in them just if there is a text of it. -/
theorem tokenMetadata_of_buildTokenMetadata {metadata : Bytes}
    (h : buildTokenMetadata base64 fields = .ok metadata) (hne : metadata ≠ [])
    (hsize : metadata.length < 2 ^ 31) : ∃ s, tokenMetadata metadata = .ok s ∧
      ∀ name : SmallString, (s.get name).isSome = (fields.lookup name.value).isSome := by
  obtain ⟨s, hs, hget⟩ := deserialize_of_buildTokenMetadata h hsize
  refine ⟨s, ?_, fun name => by rw [hget name.value, Option.isSome_map]⟩
  rw [tokenMetadata, if_neg (by simpa using hne), callArgs_eq_ok.2 hs]

end

/-! ## Tokens -/

section

variable {symbol : String} {maxSupply : IntX} {isNft : Bool} {decimals : UInt8} {owner : Bytes32}
  {metadata tokenSchemas : Bytes} {info : TokenInfo}

theorem contains_nonFungible_of_tokenFlags {flags : TokenFlags}
    (h : tokenFlags maxSupply isNft tokenSchemas = .ok flags) :
    flags.contains .nonFungible = isNft := by
  rw [tokenFlags] at h
  cases isNft with
  | true =>
    rw [if_pos rfl] at h
    obtain ⟨-, h⟩ | ⟨-, h⟩ := ite_eq_iff.1 h
    · cases h
    obtain ⟨-, h⟩ | ⟨-, h⟩ := ite_eq_iff.1 h
    · cases h
    · exact Except.ok.inj h ▸ by decide
  | false =>
    rw [if_neg (by decide)] at h
    obtain ⟨-, h⟩ | ⟨-, h⟩ := ite_eq_iff.1 h
    · exact Except.ok.inj h ▸ by decide
    · exact Except.ok.inj h ▸ by decide

/-- The symbol of a token is of 1 to 255 bytes, each of a letter from A to Z. -/
structure TokenSymbol (symbol : String) : Prop where
  ne_nil : utf8 symbol ≠ []
  length_le : (utf8 symbol).length ≤ 255
  upper : ∀ byte ∈ utf8 symbol, 65 ≤ byte ∧ byte ≤ 90

theorem checkTokenSymbol_eq_ok : checkTokenSymbol symbol = .ok () ↔ TokenSymbol symbol := by
  rw [checkTokenSymbol]
  constructor
  · intro h
    obtain ⟨-, h⟩ | ⟨hne, h⟩ := ite_eq_iff.1 h
    · cases h
    obtain ⟨-, h⟩ | ⟨hle, h⟩ := ite_eq_iff.1 h
    · cases h
    obtain ⟨-, h⟩ | ⟨hall, -⟩ := ite_eq_iff.1 h
    · cases h
    exact ⟨fun hnil => hne (List.isEmpty_iff.2 hnil), not_lt.1 hle, by simpa using hall⟩
  · rintro ⟨hne, hle, hall⟩
    rw [if_neg (by simpa using hne), if_neg (not_lt.2 hle), if_neg (by simpa using hall)]
    rfl

/-- What is built, and of what. -/
theorem buildTokenInfo_eq_ok :
    buildTokenInfo symbol maxSupply isNft decimals owner metadata tokenSchemas = .ok info ↔
      TokenSymbol symbol ∧ metadata ≠ [] ∧ ∃ flags,
        tokenFlags maxSupply isNft tokenSchemas = .ok flags ∧
        info = { maxSupply, flags, decimals, owner, symbol := ⟨symbol⟩, metadata, tokenSchemas } := by
  rw [buildTokenInfo]
  constructor
  · intro h
    obtain ⟨⟨⟩, hsymbol, h⟩ := bind_eq_ok.1 h
    obtain ⟨-, h⟩ | ⟨hne, h⟩ := ite_eq_iff.1 h
    · cases h
    obtain ⟨flags, hflags, h⟩ := bind_eq_ok.1 h
    obtain ⟨name, hname, h⟩ := bind_eq_ok.1 h
    obtain ⟨-, hname⟩ | ⟨-, hname⟩ := ite_eq_iff.1 hname
    · cases hname
    obtain rfl := Except.ok.inj hname
    exact ⟨checkTokenSymbol_eq_ok.1 hsymbol, fun hnil => hne (List.isEmpty_iff.2 hnil), flags,
      hflags, (Except.ok.inj h).symm⟩
  · rintro ⟨hsymbol, hne, flags, hflags, rfl⟩
    rw [checkTokenSymbol_eq_ok.2 hsymbol, ok_bind, if_neg (by simpa using hne), hflags, ok_bind,
      SmallString.new, if_neg (not_lt.2 hsymbol.length_le)]
    rfl

/-- The schemas of any token but a non-fungible one are not written. -/
theorem serialize_withoutSchemas (info : TokenInfo) : serialize info =
    serialize { info with
      tokenSchemas := if info.flags.contains .nonFungible then info.tokenSchemas else [] } := by
  cases hflag : info.flags.contains .nonFungible with
  | true => rfl
  | false =>
    simp only [serialize, CarbonSerializable.writeCarbon, hflag]
    rfl

/-- What is written of a token is longer than its metadata, and than its schemas if they
    are written. -/
theorem length_le_of_serialize_tokenInfo {args : Bytes} (h : serialize info = .ok args) :
    info.metadata.length ≤ args.length ∧
      (info.flags.contains .nonFungible = true → info.tokenSchemas.length ≤ args.length) := by
  obtain ⟨maxSupply, -, h⟩ := bind_eq_ok.1 h
  obtain ⟨symbol, -, h⟩ := bind_eq_ok.1 h
  obtain ⟨metadata', hmetadata, h⟩ := bind_eq_ok.1 h
  obtain ⟨schemas', hschemas, h⟩ := bind_eq_ok.1 h
  have hlength := length_writeByteArray hmetadata
  rw [← Except.ok.inj h, List.length_append, List.length_append]
  refine ⟨by omega, fun hflag => ?_⟩
  have hlength' := length_writeByteArray (if_pos hflag ▸ hschemas)
  omega

theorem deserialize_tokenInfo {args : Bytes} (hrange : info.maxSupply.InRange)
    (h : serialize info = .ok args) (hsize : args.length < 2 ^ 31) :
    deserialize TokenInfo args = .ok { info with
      tokenSchemas := if info.flags.contains .nonFungible then info.tokenSchemas else [] } := by
  obtain ⟨hmetadata, hschemas⟩ := length_le_of_serialize_tokenInfo h
  refine TokenInfo.record.deserialize_of_serialize ⟨hrange, hmetadata.trans_lt hsize, ?_⟩
    ((serialize_withoutSchemas info).symm.trans h)
  dsimp only
  split
  next hflag => exact (hschemas hflag).trans_lt hsize
  next => rfl

/-- What the creation of a token is priced from: how long its symbol and its arguments are,
    and which of the names that cost have a text. -/
def creationParams (symbol : String) (isNft : Bool) (fields : List (String × String))
    (args : Bytes) : NativeFeeParams where
  symbolLength := UInt32.ofNat (utf8 symbol).length
  tokenInfoBytes := UInt32.ofNat args.length
  nonFungible := isNft
  hasPreBurn := (fields.lookup StandardMeta.tokenPreBurn.value).isSome
  hasInflationSchedule := (fields.lookup StandardMeta.tokenInflationPeriod.value).isSome
  hasStakingOrganisation := (fields.lookup StandardMeta.tokenStakingOrgId.value).isSome
  hasStakingRewardToken := (fields.lookup StandardMeta.tokenStakingRewardToken.value).isSome

theorem lengthU32_of_lt {len : ℕ} (h : len < 2 ^ 32) : lengthU32 len = .ok (UInt32.ofNat len) := by
  rw [lengthU32, Machine.word32, if_pos h]
  rfl

theorem describeCall_createToken {call : TxMsgCall} {state : NativeFeeParams}
    {options : FeePlanOptions} {infusions : Option (List InfusedAsset)}
    (hs : ¬MsgCallArgSections.present call.sections) (hmodule : call.moduleId = ModuleId.token)
    (hmethod : call.methodId = TokenContractMethod.createToken) :
    describeCall call state options infusions = (do
      let info ← callArgs TokenInfo "CreateToken arguments" call.args
      let metadata ← tokenMetadata info.metadata
      let symbolLength ← lengthU32 (utf8 info.symbol.value).length
      let tokenInfoBytes ← lengthU32 call.args.length
      pure ⟨.createToken, {
        symbolLength, tokenInfoBytes
        nonFungible := info.flags.contains .nonFungible
        hasPreBurn := (metadata.get StandardMeta.tokenPreBurn).isSome
        hasInflationSchedule := (metadata.get StandardMeta.tokenInflationPeriod).isSome
        hasStakingOrganisation := (metadata.get StandardMeta.tokenStakingOrgId).isSome
        hasStakingRewardToken := (metadata.get StandardMeta.tokenStakingRewardToken).isSome }⟩ :
      Result NativeFeePart) := by
  rw [describeCall, if_neg hs, if_pos hmodule, hmethod, if_neg (by decide), if_neg (by decide),
    if_neg (by decide), if_neg (by decide), if_neg (by decide), if_pos rfl]

theorem preflightTransaction_taken {node : Node} {msg : TxMsg} {call : TxMsgCall}
    (hmsg : msg.msg = .call call) (htype : msg.txType = .call)
    (hcall : call.moduleId = ModuleId.token ∧ call.methodId = TokenContractMethod.createToken)
    (hread : deserialize TokenInfo call.args = .ok info) (hne : info.symbol.value ≠ "")
    (htaken : node.tokenWithId info.symbol.value 0 = .ok ()) : node.preflightTransaction msg =
      .ok ⟨.taken, s!"token symbol {info.symbol.value}", ""⟩ := by
  simp only [Node.preflightTransaction, hmsg]
  rw [if_neg (by simp [htype, hcall])]
  simp only [hread, if_neg hne, htaken]
  rfl

/-- A token that was built comes back from the wire, but for schemas it does not carry. -/
theorem deserialize_of_buildTokenInfo {args : Bytes}
    (hinfo : buildTokenInfo symbol maxSupply isNft decimals owner metadata tokenSchemas = .ok info)
    (hrange : maxSupply.InRange) (hargs : serialize info = .ok args)
    (hsize : args.length < 2 ^ 31) : deserialize TokenInfo args =
      .ok { info with tokenSchemas := if isNft then tokenSchemas else [] } := by
  obtain ⟨-, -, flags, hflags, rfl⟩ := buildTokenInfo_eq_ok.1 hinfo
  rw [deserialize_tokenInfo hrange hargs hsize, contains_nonFungible_of_tokenFlags hflags]

/-- The call that creates a token. -/
def createTokenCall (args : Bytes) : TxMsgCall :=
  { moduleId := ModuleId.token, methodId := TokenContractMethod.createToken, args, sections := none }

/-- The creation of a token that was built is priced from what it was built of. -/
theorem describeCall_of_buildTokenInfo {base64 : String → Except String Bytes}
    {fields : List (String × String)} {args : Bytes}
    (hmetadata : buildTokenMetadata base64 fields = .ok metadata)
    (hinfo : buildTokenInfo symbol maxSupply isNft decimals owner metadata tokenSchemas = .ok info)
    (hrange : maxSupply.InRange) (hargs : serialize info = .ok args)
    (hsize : args.length < 2 ^ 31) (state : NativeFeeParams) (options : FeePlanOptions)
    (infusions : Option (List InfusedAsset)) :
    describeCall (createTokenCall args) state options infusions =
      .ok ⟨.createToken, creationParams symbol isNft fields args⟩ := by
  have hread : deserialize TokenInfo (createTokenCall args).args = .ok _ :=
    deserialize_of_buildTokenInfo hinfo hrange hargs hsize
  obtain ⟨hsymbol, hne, flags, hflags, rfl⟩ := buildTokenInfo_eq_ok.1 hinfo
  obtain ⟨hmetadataSize, -⟩ := length_le_of_serialize_tokenInfo hargs
  obtain ⟨s, htexts, hisSome⟩ := tokenMetadata_of_buildTokenMetadata hmetadata hne
    (hmetadataSize.trans_lt hsize)
  -- Neither length is too large for the planner.
  have hsymbolSize : (utf8 symbol).length < 2 ^ 32 := by
    have hle := hsymbol.length_le
    omega
  have hargsSize : (createTokenCall args).args.length < 2 ^ 32 := by
    change args.length < 2 ^ 32
    omega
  have hpresent : ¬MsgCallArgSections.present (createTokenCall args).sections :=
    Bool.false_ne_true
  rw [describeCall_createToken hpresent rfl rfl, callArgs_eq_ok.2 hread, ok_bind,
    htexts, ok_bind, lengthU32_of_lt hsymbolSize, ok_bind, lengthU32_of_lt hargsSize, ok_bind,
    hisSome, hisSome, hisSome, hisSome, contains_nonFungible_of_tokenFlags hflags]
  rfl

/-- A message that creates a token which was built of texts, a symbol and a supply is
    described, for pricing it, by these; it asks for the token that was built, but for
    schemas of a token that has none on the wire; and its symbol is the one that is looked
    up before it is sent. -/
theorem described_of_buildCreateTokenTx (base64 : String → Except String Bytes)
    (clock : Option Duration) (fields : List (String × String)) (symbol : String)
    (maxSupply : IntX) (isNft : Bool) (decimals : UInt8) (owner creator : Bytes32)
    (metadata tokenSchemas : Bytes) (info : TokenInfo) (limits : TxLimits) (msg : TxMsg)
    (hmetadata : buildTokenMetadata base64 fields = .ok metadata)
    (hinfo : buildTokenInfo symbol maxSupply isNft decimals owner metadata tokenSchemas = .ok info)
    (hrange : maxSupply.InRange) (hmsg : buildCreateTokenTx clock info creator limits = .ok msg) :
    ∃ args, serialize info = .ok args ∧ (args.length < 2 ^ 31 →
      (∀ options, describe msg options =
        .ok [⟨.createToken, creationParams symbol isNft fields args⟩]) ∧
      msg.request = some (.createToken creator
        { info with tokenSchemas := if isNft then tokenSchemas else [] }) ∧
      msg.Creates symbol ∧
      ∀ node : Node, node.tokenWithId symbol 0 = .ok () →
        node.preflightTransaction msg = .ok ⟨.taken, s!"token symbol {symbol}", ""⟩) := by
  obtain ⟨hsymbol, -, flags, -, heq⟩ := buildTokenInfo_eq_ok.1 hinfo
  have hname : info.symbol.value = symbol := by rw [heq]
  have hne : info.symbol.value ≠ "" := by
    rintro hempty
    exact hsymbol.ne_nil (by rw [← hname, hempty]; rfl)
  obtain ⟨args, expiry, hargs, hexpiry, rfl⟩ := tokenCallTx_eq_ok.1 hmsg
  refine ⟨args, hargs, fun hsize => ?_⟩
  have hread : deserialize TokenInfo (createTokenCall args).args = .ok _ :=
    deserialize_of_buildTokenInfo hinfo hrange hargs hsize
  have hdescribe := describeCall_of_buildTokenInfo hmetadata hinfo hrange hargs hsize
  refine ⟨fun options => ?_, ?_, ⟨createTokenCall args, List.mem_singleton.2 rfl, hname ▸ hne,
    ⟨{}, none, _, hdescribe _ _ _, rfl⟩, _, hread, hname⟩, fun node htaken => ?_⟩
  · exact bind_eq_ok.2 ⟨_, hdescribe _ _ _, rfl⟩
  · change TxMsgCall.request creator (createTokenCall args) = _
    have hmethod : (createTokenCall args).methodId = TokenContractMethod.createToken := rfl
    rw [TxMsgCall.request, if_neg (fun h => h.elim Bool.false_ne_true fun h => h rfl),
      if_pos hmethod, hread]
    rfl
  · rw [← hname] at htaken ⊢
    have hmsg' : (assembled .call creator limits expiry (.call (createTokenCall args))).msg =
        .call (createTokenCall args) := rfl
    have htold := preflightTransaction_taken hmsg' rfl ⟨rfl, rfl⟩ hread hne htaken
    exact htold

end

/-- A text of each name that is required, and one of a name that costs. -/
def burnableFields : List (String × String) := [
  ("name", "Token"), ("icon", "data:image/png;base64,AA=="), ("url", "https://token"),
  ("description", "A token"), ("_brn", "1")]

def burnableToken : Result (Bytes × TokenInfo × TxMsg × Bytes) := do
  let metadata ← buildTokenMetadata (fun _ => .ok [0]) burnableFields
  let info ← buildTokenInfo "TOKEN" ⟨1000⟩ false 8 emptyBytes32 metadata [1]
  let msg ← buildCreateTokenTx none info emptyBytes32 { expiry := 1 }
  let args ← serialize info
  pure (metadata, info, msg, args)

theorem described_of_buildCreateTokenTx_burnable : ∃ msg args, args.length = 150 ∧
    describe msg {} = .ok [⟨.createToken, creationParams "TOKEN" false burnableFields args⟩] ∧
    (creationParams "TOKEN" false burnableFields args).hasPreBurn = true ∧ msg.Creates "TOKEN" := by
  obtain ⟨⟨metadata, info, msg, args⟩, h⟩ := exists_ok_of_isSome (x := burnableToken)
    (by decide +kernel)
  have hlength : burnableToken.toOption.map (fun built => built.2.2.2.length) = some 150 := by
    decide +kernel
  rw [h] at hlength
  have hlength : args.length = 150 := Option.some.inj hlength
  obtain ⟨metadata', hmetadata, h⟩ := bind_eq_ok.1 h
  obtain ⟨info', hinfo, h⟩ := bind_eq_ok.1 h
  obtain ⟨msg', hmsg, h⟩ := bind_eq_ok.1 h
  obtain ⟨args', hargs, h⟩ := bind_eq_ok.1 h
  have heq : args' = args := congrArg (·.2.2.2) (Except.ok.inj h)
  subst heq
  obtain ⟨_, hargs', hall⟩ := described_of_buildCreateTokenTx _ _ _ _ _ _ _ _ _ _ _ _ _ _
    hmetadata hinfo ⟨by norm_num, by norm_num⟩ hmsg
  obtain rfl := Except.ok.inj (hargs.symm.trans hargs')
  obtain ⟨hdescribe, -, hcreates, -⟩ := hall (by omega)
  exact ⟨_, _, hlength, hdescribe {}, rfl, hcreates⟩

end PhantasmaSdk
