import PhantasmaSdk.Fees.Burned
import PhantasmaSdk.Fees.Returns

/-!
# The growth of a batch

What a batch of calls does to the rows of the storage is told by its calls, given what is
stated of the chain: a transfer creates the balance row of the recipient unless that is
stated to be there, a burn deletes the rows of its NFTs. A message that burns NFTs
grows the storage by what its batch creates and does not delete, and by nothing if it
is no batch (`toNat_net_of_burn`).
-/

namespace PhantasmaSdk

open Machine

/-! ## Calls -/

namespace FeePlanOptions

variable (config : GasConfig) (o : FeePlanOptions) (tokenId : UInt64)

/-- The balance row of who receives the token, unless it is stated to be there. -/
def recipientRow : ℕ := factRow o.recipientHoldsToken (config.freeRows (some tokenId))

/-- The row that counts what is burned of the token, unless it was burned before. -/
def burntRow : ℕ := factRow o.tokenBurnedBefore (config.freeRows (some tokenId))

def supplyRow : ℕ := factRow o.supplyRowExists (config.freeRows (some tokenId))

end FeePlanOptions

/-- The token is created with this key among its metadata. -/
def TokenInfo.hasMeta (info : TokenInfo) (key : SmallString) : Bool :=
  ((tokenMetadata info.metadata).toOption.bind (VMDynamicStruct.get · key)).isSome

namespace TxMsgCall

variable (config : GasConfig) (o : FeePlanOptions) (call : TxMsgCall)

/-- The arguments of the call, if they can be read. -/
def argsAs (α : Type) [CarbonSerializable α] : Option α := (deserialize α call.args).toOption

/-- The rows the call creates, those of returned assets apart. What is not recognised
    creates what is budgeted. -/
def createdRows : ℕ :=
  match call.describedKind with
  | .transferFungible => (call.argsAs TransferFungibleArgs).elim 0 fun args =>
      o.recipientRow config args.tokenId
  | .transferNonFungible => (call.argsAs TransferNonFungibleArgs).elim 0 fun args =>
      args.instanceIds.length + o.recipientRow config args.tokenId
  | .mintFungible => (call.argsAs MintFungibleArgs).elim 0 fun args =>
      o.recipientRow config args.tokenId + o.supplyRow config args.tokenId
  | .burnFungible => (call.argsAs BurnFungibleArgs).elim 0 fun args =>
      o.burntRow config args.tokenId + o.supplyRow config args.tokenId
  | .burnNonFungible => (call.argsAs BurnNonFungibleArgs).elim 0 fun args =>
      o.burntRow config args.tokenId + o.supplyRow config args.tokenId
  | .mintPhantasmaNonFungible => (call.argsAs MintPhantasmaNonFungibleArgs).elim 0 fun args =>
      o.recipientRow config args.tokenId + o.supplyRow config args.tokenId +
        (args.tokens.map fun token =>
          instanceQuanta (2 * token.rom.length + 36) token.ram.length 1).sum
  | .createToken => (call.argsAs TokenInfo).elim 0 fun info =>
      (decide (0 < (utf8 info.symbol.value).length)).toNat + rowQuanta (9 + call.args.length) + 1 +
        (info.flags.contains .nonFungible).toNat +
        (info.hasMeta StandardMeta.tokenPreBurn).toNat +
        (info.hasMeta StandardMeta.tokenInflationPeriod).toNat
  | .createTokenSeries => rowQuanta (13 + (call.args.length - 8)) + 1 +
      (o.seriesHasMetaId.getD true).toNat
  | .script => (o.scriptStorageQuanta.getD defaultScriptStorageQuanta).toNat
  | .mintNonFungible | .registerName => 0

/-- The rows the call deletes: those of each NFT that is burned, with its meta id unless it
    is stated to have none, and one of each that is transferred. -/
def deletedRows : ℕ :=
  match call.describedKind with
  | .transferNonFungible => (call.argsAs TransferNonFungibleArgs).elim 0 fun args =>
      args.instanceIds.length
  | .burnNonFungible => (burnedByCall call).length * (3 + (o.romHasMetaId.getD true).toNat)
  | _ => 0

end TxMsgCall

/-- The calls of a batch. -/
def TxMsg.batch (msg : TxMsg) : List TxMsgCall :=
  match msg.msg with
  | .callMulti batch => batch.calls
  | _ => []

/-- What is created over what is deleted, both counted in 32 bits. -/
def grown (created deleted : ℕ) : ℕ := min created (2 ^ 32 - 1) - min deleted (2 ^ 32 - 1)

/-- What a batch that burns NFTs adds to the rows of the storage on balance, those of the
    returned assets included. -/
def growth (config : GasConfig) (o : FeePlanOptions) (calls : List TxMsgCall) : ℕ :=
  grown ((calls.map (TxMsgCall.createdRows config o)).sum +
      ((o.infusions.getD []).map (InfusedAsset.newRows config)).sum)
    ((calls.map (TxMsgCall.deletedRows o)).sum +
      ((o.infusions.getD []).map (InfusedAsset.deletedRows config)).sum)

/-! ## The rows of the parts -/

section

variable {config : GasConfig} {o : FeePlanOptions} {call : TxMsgCall} {part : NativeFeePart}

theorem argsAs_eq_some {α : Type} [CarbonSerializable α] {name : String} {args : α}
    (h : callArgs α name call.args = .ok args) : call.argsAs α = some args := by
  rw [TxMsgCall.argsAs, callArgs_eq_ok.1 h]
  rfl

/-- The part a call is described as creates and deletes the rows of the call. -/
structure RowsOf (config : GasConfig) (o : FeePlanOptions) (call : TxMsgCall)
    (part : NativeFeePart) : Prop where
  newRows : (part.stated o).newRows config = call.createdRows config o
  deletedRows : (part.stated o).deletedRows = call.deletedRows o

/-- The instances of a burn that is read. -/
theorem length_burnedByCall {args : BurnNonFungibleArgs}
    (hkind : call.describedKind = .burnNonFungible)
    (hargs : deserialize BurnNonFungibleArgs call.args = .ok args) :
    (burnedByCall call).length = args.instanceIds.length := by
  have hburns : call.BurnsNfts := (describedKind_eq_iff (by decide)).1 hkind
  obtain ⟨hs, hmodule, hmethod⟩ := hburns
  rw [burnedByCall, if_neg hs, if_neg (by simp [hmodule, hmethod]), hargs]
  exact List.length_map _

/-- The rows that the sizes of minted NFTs say. -/
theorem sum_mintedRows {tokens : List PhantasmaNFTMintInfo} {roms rams : List UInt32}
    (hroms : tokens.mapM (fun token => lengthU32 token.rom.length) = .ok roms)
    (hrams : tokens.mapM (fun token => lengthU32 token.ram.length) = .ok rams) :
    ((roms.zip rams).map fun (rom, ram) =>
      instanceQuanta (2 * rom.toNat + 36) ram.toNat 1).sum =
        (tokens.map fun token =>
          instanceQuanta (2 * token.rom.length + 36) token.ram.length 1).sum := by
  rw [mapM_eq_ok] at hroms hrams
  induction hroms generalizing rams with
  | nil => rfl
  | cons hrom _ ih =>
    obtain ⟨ram, rest, hram, hrest, rfl⟩ := List.forall₂_cons_left_iff.1 hrams
    rw [List.zip_cons_cons, List.map_cons, List.map_cons, List.sum_cons, List.sum_cons, ih hrest,
      ← lengthU32_eq_ok.1 hrom, ← lengthU32_eq_ok.1 hram]

theorem rowsOf_of_describeCall (h : describeCall call noFacts.state noFacts (some []) = .ok part) :
    RowsOf config o call part := by
  have hkind := kind_describedKind h
  rw [describeCall] at h
  rcases ite_eq_iff.1 h with ⟨-, h⟩ | ⟨-, h⟩
  · cases Except.ok.inj h
    exact ⟨by rw [TxMsgCall.createdRows, ← hkind]; rfl,
      by rw [TxMsgCall.deletedRows, ← hkind]; rfl⟩
  rcases ite_eq_iff.1 h with ⟨-, h⟩ | ⟨-, h⟩
  · rcases ite_eq_iff.1 h with ⟨-, h⟩ | ⟨-, h⟩
    · obtain ⟨args, hargs, h⟩ := bind_eq_ok.1 h
      cases Except.ok.inj h
      exact ⟨by rw [TxMsgCall.createdRows, ← hkind, argsAs_eq_some hargs]; rfl,
        by rw [TxMsgCall.deletedRows, ← hkind]; rfl⟩
    rcases ite_eq_iff.1 h with ⟨-, h⟩ | ⟨-, h⟩
    · obtain ⟨args, hargs, h⟩ := bind_eq_ok.1 h
      obtain ⟨count, hcount, h⟩ := bind_eq_ok.1 h
      cases Except.ok.inj h
      obtain ⟨-, hcount⟩ := instanceCount_eq_ok.1 hcount
      have hsome := argsAs_eq_some hargs
      exact ⟨by rw [TxMsgCall.createdRows, ← hkind, hsome, Option.elim_some, ← hcount]; rfl,
        by rw [TxMsgCall.deletedRows, ← hkind, hsome, Option.elim_some, ← hcount]; rfl⟩
    rcases ite_eq_iff.1 h with ⟨-, h⟩ | ⟨-, h⟩
    · obtain ⟨args, hargs, h⟩ := bind_eq_ok.1 h
      cases Except.ok.inj h
      exact ⟨by rw [TxMsgCall.createdRows, ← hkind, argsAs_eq_some hargs]; rfl,
        by rw [TxMsgCall.deletedRows, ← hkind]; rfl⟩
    rcases ite_eq_iff.1 h with ⟨-, h⟩ | ⟨-, h⟩
    · obtain ⟨args, hargs, h⟩ := bind_eq_ok.1 h
      cases Except.ok.inj h
      exact ⟨by rw [TxMsgCall.createdRows, ← hkind, argsAs_eq_some hargs]; rfl,
        by rw [TxMsgCall.deletedRows, ← hkind]; rfl⟩
    rcases ite_eq_iff.1 h with ⟨-, h⟩ | ⟨-, h⟩
    · obtain ⟨args, hargs, h⟩ := bind_eq_ok.1 h
      obtain ⟨count, hcount, h⟩ := bind_eq_ok.1 h
      cases Except.ok.inj h
      obtain ⟨-, hcount⟩ := instanceCount_eq_ok.1 hcount
      have hlength := length_burnedByCall hkind.symm (callArgs_eq_ok.1 hargs)
      refine ⟨by rw [TxMsgCall.createdRows, ← hkind, argsAs_eq_some hargs]; rfl, ?_⟩
      rw [TxMsgCall.deletedRows, ← hkind, hlength, ← hcount]
      exact burnedRows_eq count (o.romHasMetaId.getD true).toNat
    rcases ite_eq_iff.1 h with ⟨-, h⟩ | ⟨-, h⟩
    · obtain ⟨info, hinfo, h⟩ := bind_eq_ok.1 h
      obtain ⟨metadata, hmetadata, h⟩ := bind_eq_ok.1 h
      obtain ⟨symbolLength, hsymbol, h⟩ := bind_eq_ok.1 h
      obtain ⟨size, hsize, h⟩ := bind_eq_ok.1 h
      cases Except.ok.inj h
      have hmeta (key : SmallString) : info.hasMeta key = (metadata.get key).isSome := by
        rw [TokenInfo.hasMeta, hmetadata]
        rfl
      refine ⟨?_, by rw [TxMsgCall.deletedRows, ← hkind]; rfl⟩
      rw [TxMsgCall.createdRows, ← hkind, argsAs_eq_some hinfo, Option.elim_some, hmeta, hmeta,
        ← lengthU32_eq_ok.1 hsymbol, ← lengthU32_eq_ok.1 hsize]
      rfl
    rcases ite_eq_iff.1 h with ⟨-, h⟩ | ⟨-, h⟩
    · obtain ⟨size, hsize, h⟩ := bind_eq_ok.1 h
      cases Except.ok.inj h
      refine ⟨?_, by rw [TxMsgCall.deletedRows, ← hkind]; rfl⟩
      rw [TxMsgCall.createdRows, ← hkind, ← lengthU32_eq_ok.1 hsize]
      rfl
    rcases ite_eq_iff.1 h with ⟨-, h⟩ | ⟨-, h⟩
    · obtain ⟨args, hargs, h⟩ := bind_eq_ok.1 h
      obtain ⟨count, hcount, h⟩ := bind_eq_ok.1 h
      obtain ⟨roms, hroms, h⟩ := bind_eq_ok.1 h
      obtain ⟨rams, hrams, h⟩ := bind_eq_ok.1 h
      obtain ⟨distinct, hdistinct, h⟩ := bind_eq_ok.1 h
      cases Except.ok.inj h
      obtain ⟨-, hcount⟩ := instanceCount_eq_ok.1 hcount
      have hromsLength := (sum_map_of_mapM_lengthU32 hroms).1.trans hcount.symm
      have hramsLength := (sum_map_of_mapM_lengthU32 hrams).1.trans hcount.symm
      refine ⟨?_, by rw [TxMsgCall.deletedRows, ← hkind]; rfl⟩
      rw [TxMsgCall.createdRows, ← hkind, argsAs_eq_some hargs]
      dsimp only [Option.elim_some]
      rw [← sum_mintedRows hroms hrams]
      simp only [NativeFeePart.stated, NativeFeePart.newRows, NativeFeePart.instanceSizes,
        NativeFeePart.instances, Option.getD_some, sizesFor_eq hromsLength,
        sizesFor_eq hramsLength]
      rfl
    · cases Except.ok.inj h
      exact ⟨by rw [TxMsgCall.createdRows, ← hkind]; rfl,
        by rw [TxMsgCall.deletedRows, ← hkind]; rfl⟩
  · rcases ite_eq_iff.1 h with ⟨-, h⟩ | ⟨-, h⟩
    · obtain ⟨args, hargs, h⟩ := bind_eq_ok.1 h
      obtain ⟨nameLength, hname, h⟩ := bind_eq_ok.1 h
      cases Except.ok.inj h
      exact ⟨by rw [TxMsgCall.createdRows, ← hkind]; rfl,
        by rw [TxMsgCall.deletedRows, ← hkind]; rfl⟩
    · cases Except.ok.inj h
      exact ⟨by rw [TxMsgCall.createdRows, ← hkind]; rfl,
        by rw [TxMsgCall.deletedRows, ← hkind]; rfl⟩

/-- The parts of a batch create and delete the rows of its calls. -/
theorem rowsOf_of_describeCalls {calls : List TxMsgCall} {parts : List NativeFeePart}
    (h : describeCalls noFacts.state noFacts (some []) calls = .ok parts) :
    List.Forall₂ (RowsOf config o) calls parts :=
  (forall₂_of_describeCalls h).imp fun _ _ => rowsOf_of_describeCall

end

/-! ## Messages that burn -/

theorem grown_le_grown {created created' deleted deleted' : ℕ} (hcreated : created' ≤ created)
    (hdeleted : deleted ≤ deleted') : grown created' deleted' ≤ grown created deleted := by
  unfold grown
  omega

section

variable {msg : TxMsg} {config : GasConfig} {o : FeePlanOptions} {parts : List NativeFeePart}

/-- A message is a batch, or performs a single operation. -/
theorem batch_or_singleton (h : operations msg = .ok parts) :
    describeCalls noFacts.state noFacts (some []) msg.batch = .ok parts ∨
      msg.batch = [] ∧ ∃ part, parts = [part] := by
  have hone {x : Result NativeFeePart} (h : (do let part ← x; pure [part]) = Except.ok parts) :
      ∃ part, parts = [part] := by
    obtain ⟨part, -, h⟩ := bind_eq_ok.1 h
    exact ⟨part, (Except.ok.inj h).symm⟩
  rw [operations, describe] at h
  rw [TxMsg.batch]
  revert h
  cases msg.msg with
  | callMulti batch => exact .inl
  | call call => exact fun h => .inr ⟨rfl, hone h⟩
  | burnNonFungible inner | burnNonFungibleGasPayer inner => exact fun h => .inr ⟨rfl, hone h⟩
  | phantasmaRaw => rintro ⟨⟩
  | transferNonFungibleMulti inner | transferNonFungibleMultiGasPayer inner =>
    intro h
    obtain ⟨count, -, h⟩ := bind_eq_ok.1 h
    exact .inr ⟨rfl, _, (Except.ok.inj h).symm⟩
  | mintNonFungible inner =>
    intro h
    obtain ⟨rom, -, h⟩ := bind_eq_ok.1 h
    obtain ⟨ram, -, h⟩ := bind_eq_ok.1 h
    exact .inr ⟨rfl, _, (Except.ok.inj h).symm⟩
  | _ => exact fun h => .inr ⟨rfl, _, (Except.ok.inj h).symm⟩

/-- What some parts add to the rows of the storage on balance, a burn among them. -/
def partsGrowth (config : GasConfig) (o : FeePlanOptions) (parts : List NativeFeePart) : ℕ :=
  grown ((parts.map fun part => (part.stated o).newRows config).sum +
      ((o.infusions.getD []).map (InfusedAsset.newRows config)).sum)
    ((parts.map fun part => (part.stated o).deletedRows).sum +
      ((o.infusions.getD []).map (InfusedAsset.deletedRows config)).sum)

/-- The parts that are priced are those of the message, with what they return. -/
theorem forall₂_attached (o : FeePlanOptions) (infusions : List InfusedAsset)
    (parts : List NativeFeePart) :
    List.Forall₂ (fun part part' => ∃ infusions, part' = part.attached o infusions) parts
      (attachedAll o infusions parts) := by
  induction parts generalizing infusions with
  | nil => exact .nil
  | cons part parts ih => exact .cons ⟨_, rfl⟩ (ih _)

variable {size : UInt32} {models : List OperationModel} {estimate : NativeFeeEstimate}

/-- A burn that is priced has instances, and sizes for them. -/
theorem Priced.sized_of_burn (h : Priced msg config o parts size models estimate)
    {part : NativeFeePart} (hpart : part ∈ parts) (hkind : part.kind = .burnNonFungible) :
    part.instances ≠ 0 ∧ part.Sized := by
  obtain ⟨part', hmem, infusions, rfl⟩ :=
    exists_of_forall₂_mem (forall₂_attached o (o.infusions.getD []) parts) hpart
  obtain ⟨model, -, hmodel⟩ := exists_of_forall₂_mem (mapM_eq_ok.1 h.priced) hmem
  obtain ⟨⟨h0, hadmitted⟩, -⟩ := partModel_eq_ok.1 hmodel
  obtain ⟨kind, params⟩ := part
  cases hkind
  exact ⟨h0, hadmitted.1, hadmitted.2.1⟩

/-- A message that burns NFTs grows as its batch does, and not at all if it is none, with
    whatever facts. -/
theorem Priced.partsGrowth_eq (h : Priced msg config o parts size models estimate)
    (hburn : .burnNonFungible ∈ parts.map NativeFeePart.kind) (o' : FeePlanOptions) :
    partsGrowth config o' parts = growth config o' msg.batch := by
  have hreturned : ((o'.infusions.getD []).map (InfusedAsset.newRows config)).sum ≤
      ((o'.infusions.getD []).map (InfusedAsset.deletedRows config)).sum :=
    List.sum_le_sum fun asset _ => asset.newRows_le_deletedRows config
  rcases batch_or_singleton h.operations with hcalls | ⟨hbatch, part, rfl⟩
  · have hrows : List.Forall₂ (RowsOf config o') msg.batch parts := rowsOf_of_describeCalls hcalls
    rw [partsGrowth, growth, sum_eq_of_forall₂ (hrows.imp fun _ _ h => h.newRows),
      sum_eq_of_forall₂ (hrows.imp fun _ _ h => h.deletedRows)]
  · -- A single burn deletes two rows for each NFT, and creates two at most.
    have hkind : part.kind = .burnNonFungible := by
      simpa [eq_comm] using hburn
    obtain ⟨h0, hsized⟩ := h.sized_of_burn List.mem_cons_self hkind
    have hpos : part.instances.toNat ≠ 0 := fun hzero => h0 (UInt32.toNat_inj.1 hzero)
    have hkind' : (part.stated o').kind = .burnNonFungible := (part.kind_stated o').trans hkind
    have hnew : (part.stated o').newRows config ≤ 2 := NativeFeePart.newRows_le_two hkind'
    have hdeleted : 2 * part.instances.toNat ≤ (part.stated o').deletedRows := by
      obtain ⟨kind, params⟩ := part
      cases hkind
      have hsized' : (NativeFeePart.stated o' ⟨.burnNonFungible, params⟩).Sized := hsized
      exact NativeFeePart.two_mul_instances_le_deletedRows rfl hsized'
    rw [partsGrowth, growth, hbatch, grown, grown]
    simp only [List.map_cons, List.map_nil, List.sum_cons, List.sum_nil]
    omega

/-- The rows of a priced message that burns NFTs. -/
theorem Priced.sums_of_burn (h : Priced msg config o parts size models estimate)
    (hburn : .burnNonFungible ∈ parts.map NativeFeePart.kind) :
    (OperationModel.total models).newQuanta.toNat =
        min ((parts.map fun part => (part.stated o).newRows config).sum +
          ((o.infusions.getD []).map (InfusedAsset.newRows config)).sum) (2 ^ 32 - 1) ∧
      (OperationModel.total models).deletedQuanta.toNat =
        min ((parts.map fun part => (part.stated o).deletedRows).sum +
          ((o.infusions.getD []).map (InfusedAsset.deletedRows config)).sum) (2 ^ 32 - 1) := by
  obtain ⟨returned, hreturned, -, hnew, hdeleted⟩ := sums_of_mapM h.priced
  rw [returnedBy, if_pos hburn] at hreturned
  have hreturned := (NativeFeePart.returnedAssets_eq_ok.1 hreturned).2
  rw [OperationModel.toNat_newQuanta_total, OperationModel.toNat_deletedQuanta_total, hnew,
    hdeleted, hreturned.newQuanta, hreturned.deletedQuanta]
  exact ⟨rfl, rfl⟩

theorem Priced.toNat_net_of_burn (h : Priced msg config o parts size models estimate)
    (hburn : .burnNonFungible ∈ parts.map NativeFeePart.kind) :
    (OperationModel.total models).net.toNat = growth config o msg.batch := by
  obtain ⟨hnew, hdeleted⟩ := h.sums_of_burn hburn
  rw [OperationModel.net, toNat_satSub32, hnew, hdeleted, ← h.partsGrowth_eq hburn]
  rfl

/-- NFTs are burned and minted by their native types in different messages. -/
theorem no_native_mint (h : operations msg = .ok parts)
    (hburn : .burnNonFungible ∈ parts.map NativeFeePart.kind) :
    .mintNonFungible ∉ parts.map NativeFeePart.kind := by
  intro hmint
  rcases batch_or_singleton h with hcalls | ⟨-, part, rfl⟩
  · obtain ⟨part, hpart, hkind⟩ := List.mem_map.1 hmint
    obtain ⟨call, -, hcall⟩ := exists_of_forall₂_mem (forall₂_of_describeCalls hcalls).flip hpart
    replace hcall := kind_describedKind hcall
    rw [hkind] at hcall
    rcases describedKind_cases call with hscript | hname | ⟨-, -, hmem⟩
    · rw [hscript] at hcall
      cases hcall
    · rw [hname] at hcall
      cases hcall
    · rw [← hcall] at hmem
      exact (by decide : ∀ e ∈ tokenMethods, e.2 ≠ .mintNonFungible) _ hmem rfl
  · rw [List.map_singleton, List.mem_singleton] at hburn hmint
    rw [← hburn] at hmint
    cases hmint

end

end PhantasmaSdk
