import PhantasmaSdk.Carbon.IntX
import PhantasmaSdk.Carbon.Payload

/-!
# Module calls

The ids of the modules and of their methods, and the arguments of the calls the SDK
recognises: a record each, written and read like the payloads of the native
transaction types.
-/

namespace PhantasmaSdk

open Codec Codec.Decoder CarbonWriter CarbonReader

/-! ## Ids -/

namespace ModuleId

def governance : UInt32 := 0
def token : UInt32 := 1

end ModuleId

namespace TokenContractMethod

def transferFungible : UInt32 := 0
def transferNonFungible : UInt32 := 1
def createToken : UInt32 := 2
def mintFungible : UInt32 := 3
def burnFungible : UInt32 := 4
def createTokenSeries : UInt32 := 6
def burnNonFungible : UInt32 := 9
def mintPhantasmaNonFungible : UInt32 := 27

end TokenContractMethod

namespace GovernanceContractMethod

def registerName : UInt32 := 1

end GovernanceContractMethod

/-! The metadata keys of a token that change what its creation costs. -/

namespace StandardMeta

def tokenPreBurn : SmallString := ⟨"_brn"⟩
def tokenInflationPeriod : SmallString := ⟨"_ip"⟩
def tokenStakingOrgId : SmallString := ⟨"_soi"⟩
def tokenStakingRewardToken : SmallString := ⟨"_srt"⟩

end StandardMeta

/-! ## NFT addresses -/

/-- The token id and the instance id an NFT address is derived from. -/
def unpackNftAddress (address : Bytes32) : UInt64 × UInt64 :=
  (UInt64.ofNat (ofLE ((address.bytes.drop 16).take 8)), UInt64.ofNat (ofLE (address.bytes.drop 24)))

/-- Fifteen zero bytes, a one, and two ids that are not zero. -/
def isNftAddress (address : Bytes32) : Bool :=
  if address.get 15 ≠ 1 ∨ (address.bytes.take 15).any (· ≠ 0) then false
  else
    let (tokenId, instanceId) := unpackNftAddress address
    tokenId ≠ 0 && instanceId ≠ 0

/-! ## Arguments -/

structure RegisterNameArgs where
  address : Bytes32
  name : SmallString
  deriving DecidableEq, Repr

namespace RegisterNameArgs

instance : CarbonSerializable RegisterNameArgs where
  writeCarbon v := do
    let name ← writeCarbon v.name
    pure (write32 v.address ++ name)
  readCarbon := do
    let address ← read32
    let name ← readCarbon
    pure { address, name }

end RegisterNameArgs

structure TransferFungibleArgs where
  toAddress : Bytes32
  fromAddress : Bytes32
  tokenId : UInt64
  amount : IntX
  deriving DecidableEq, Repr

namespace TransferFungibleArgs

instance : CarbonSerializable TransferFungibleArgs where
  writeCarbon v := do
    let amount ← writeCarbon v.amount
    pure (write32 v.toAddress ++ write32 v.fromAddress ++ write8u v.tokenId ++ amount)
  readCarbon := do
    let toAddress ← read32
    let fromAddress ← read32
    let tokenId ← read8u
    let amount ← readCarbon
    pure { toAddress, fromAddress, tokenId, amount }

theorem lawful : Lawful (writeCarbon : TransferFungibleArgs → Result Bytes) readCarbon
    (fun v => v.amount.InRange) (fun _ => False) 73 :=
  (((lawful_write32.pair lawful_write32).pair lawful_write8u).pair IntX.lawful).iso
    (fun p => ⟨p.1.1.1, p.1.1.2, p.1.2, p.2⟩)
    (fun v => (((v.toAddress, v.fromAddress), v.tokenId), v.amount))
    (fun _ => rfl) (by simp [readCarbon]) (by simp) (by simp)

end TransferFungibleArgs

structure TransferNonFungibleArgs where
  toAddress : Bytes32
  fromAddress : Bytes32
  tokenId : UInt64
  instanceIds : List UInt64
  deriving DecidableEq, Repr

namespace TransferNonFungibleArgs

instance : CarbonSerializable TransferNonFungibleArgs where
  writeCarbon v := do
    let instanceIds ← writeU64Array v.instanceIds
    pure (write32 v.toAddress ++ write32 v.fromAddress ++ write8u v.tokenId ++ instanceIds)
  readCarbon := do
    let toAddress ← read32
    let fromAddress ← read32
    let tokenId ← read8u
    let instanceIds ← readU64Array
    pure { toAddress, fromAddress, tokenId, instanceIds }

theorem lawful : Lawful (writeCarbon : TransferNonFungibleArgs → Result Bytes) readCarbon
    (fun v => v.instanceIds.length < 2 ^ 31) (fun _ => True) 76 :=
  (((lawful_write32.pair lawful_write32).pair lawful_write8u).pair lawful_writeU64Array).iso
    (fun p => ⟨p.1.1.1, p.1.1.2, p.1.2, p.2⟩)
    (fun v => (((v.toAddress, v.fromAddress), v.tokenId), v.instanceIds))
    (fun _ => rfl) (by simp [readCarbon]) (by simp) (by simp)

/-- From `2 ^ 31` instances on, what is written is not read. -/
theorem deserialize_of_long {v : TransferNonFungibleArgs} {enc : Bytes}
    (hlong : 2 ^ 31 ≤ v.instanceIds.length) (hw : serialize v = .ok enc) :
    deserialize TransferNonFungibleArgs enc =
      .error (.error (.serialization "negative array length")) := by
  obtain ⟨ids, hids, hw⟩ := bind_eq_ok.1 hw
  have hrun : (readCarbon : Reader TransferNonFungibleArgs).run enc =
      .error (.error (.serialization "negative array length")) := by
    rw [← Except.ok.inj hw, List.append_assoc, List.append_assoc]
    refine (run_bind_of_ok (reads_read32 v.toAddress _)).trans ?_
    refine (run_bind_of_ok (reads_read32 v.fromAddress _)).trans ?_
    refine (run_bind_of_ok (reads_read8u v.tokenId _)).trans (run_bind_of_error ?_)
    exact List.append_nil ids ▸ run_array_of_long (by norm_num) hlong hids []
  exact deserializeWith_of_error hrun

end TransferNonFungibleArgs

structure MintFungibleArgs where
  tokenId : UInt64
  toAddress : Bytes32
  amount : IntX
  deriving DecidableEq, Repr

namespace MintFungibleArgs

instance : CarbonSerializable MintFungibleArgs where
  writeCarbon v := do
    let amount ← writeCarbon v.amount
    pure (write8u v.tokenId ++ write32 v.toAddress ++ amount)
  readCarbon := do
    let tokenId ← read8u
    let toAddress ← read32
    let amount ← readCarbon
    pure { tokenId, toAddress, amount }

theorem lawful : Lawful (writeCarbon : MintFungibleArgs → Result Bytes) readCarbon
    (fun v => v.amount.InRange) (fun _ => False) 41 :=
  ((lawful_write8u.pair lawful_write32).pair IntX.lawful).iso
    (fun p => ⟨p.1.1, p.1.2, p.2⟩) (fun v => ((v.tokenId, v.toAddress), v.amount))
    (fun _ => rfl) (by simp [readCarbon]) (by simp) (by simp)

end MintFungibleArgs

structure BurnFungibleArgs where
  tokenId : UInt64
  fromAddress : Bytes32
  amount : IntX
  deriving DecidableEq, Repr

namespace BurnFungibleArgs

instance : CarbonSerializable BurnFungibleArgs where
  writeCarbon v := do
    let amount ← writeCarbon v.amount
    pure (write8u v.tokenId ++ write32 v.fromAddress ++ amount)
  readCarbon := do
    let tokenId ← read8u
    let fromAddress ← read32
    let amount ← readCarbon
    pure { tokenId, fromAddress, amount }

theorem lawful : Lawful (writeCarbon : BurnFungibleArgs → Result Bytes) readCarbon
    (fun v => v.amount.InRange) (fun _ => False) 41 :=
  ((lawful_write8u.pair lawful_write32).pair IntX.lawful).iso
    (fun p => ⟨p.1.1, p.1.2, p.2⟩) (fun v => ((v.tokenId, v.fromAddress), v.amount))
    (fun _ => rfl) (by simp [readCarbon]) (by simp) (by simp)

end BurnFungibleArgs

structure BurnNonFungibleArgs where
  tokenId : UInt64
  fromAddress : Bytes32
  instanceIds : List UInt64
  deriving DecidableEq, Repr

namespace BurnNonFungibleArgs

instance : CarbonSerializable BurnNonFungibleArgs where
  writeCarbon v := do
    let instanceIds ← writeU64Array v.instanceIds
    pure (write8u v.tokenId ++ write32 v.fromAddress ++ instanceIds)
  readCarbon := do
    let tokenId ← read8u
    let fromAddress ← read32
    let instanceIds ← readU64Array
    pure { tokenId, fromAddress, instanceIds }

theorem lawful : Lawful (writeCarbon : BurnNonFungibleArgs → Result Bytes) readCarbon
    (fun v => v.instanceIds.length < 2 ^ 31) (fun _ => True) 44 :=
  ((lawful_write8u.pair lawful_write32).pair lawful_writeU64Array).iso
    (fun p => ⟨p.1.1, p.1.2, p.2⟩) (fun v => ((v.tokenId, v.fromAddress), v.instanceIds))
    (fun _ => rfl) (by simp [readCarbon]) (by simp) (by simp)

end BurnNonFungibleArgs

structure PhantasmaNFTMintInfo where
  phantasmaSeriesId : IntX
  rom : Bytes
  ram : Bytes
  deriving DecidableEq, Repr

namespace PhantasmaNFTMintInfo

instance : CarbonSerializable PhantasmaNFTMintInfo where
  writeCarbon v := do
    let phantasmaSeriesId ← writeCarbon v.phantasmaSeriesId
    let rom ← writeByteArray v.rom
    let ram ← writeByteArray v.ram
    pure (phantasmaSeriesId ++ rom ++ ram)
  readCarbon := do
    let phantasmaSeriesId ← readCarbon
    let rom ← readByteArray
    let ram ← readByteArray
    pure { phantasmaSeriesId, rom, ram }

end PhantasmaNFTMintInfo

structure MintPhantasmaNonFungibleArgs where
  tokenId : UInt64
  address : Bytes32
  tokens : List PhantasmaNFTMintInfo
  deriving DecidableEq, Repr

namespace MintPhantasmaNonFungibleArgs

instance : CarbonSerializable MintPhantasmaNonFungibleArgs where
  writeCarbon v := do
    let tokens ← writeCarbonArray v.tokens
    pure (write8u v.tokenId ++ write32 v.address ++ tokens)
  readCarbon := do
    let tokenId ← read8u
    let address ← read32
    let tokens ← readCarbonArray PhantasmaNFTMintInfo
    pure { tokenId, address, tokens }

end MintPhantasmaNonFungibleArgs

structure TokenFlags where
  bits : UInt8
  deriving DecidableEq, Repr

namespace TokenFlags

def none : TokenFlags := ⟨0⟩
def bigFungible : TokenFlags := ⟨1⟩
def nonFungible : TokenFlags := ⟨2⟩

def contains (flags other : TokenFlags) : Bool := flags.bits &&& other.bits == other.bits

end TokenFlags

structure TokenInfo where
  maxSupply : IntX
  flags : TokenFlags
  decimals : UInt8
  owner : Bytes32
  symbol : SmallString
  metadata : Bytes
  tokenSchemas : Bytes
  deriving DecidableEq, Repr

namespace TokenInfo

/-- The schemas are there for non-fungible tokens only. -/
instance : CarbonSerializable TokenInfo where
  writeCarbon v := do
    let maxSupply ← writeCarbon v.maxSupply
    let symbol ← writeCarbon v.symbol
    let metadata ← writeByteArray v.metadata
    let tokenSchemas ← (if v.flags.contains .nonFungible then writeByteArray v.tokenSchemas
      else pure [] : Result Bytes)
    pure (maxSupply ++ write1 v.flags.bits ++ write1 v.decimals ++ write32 v.owner ++ symbol ++
      metadata ++ tokenSchemas)
  readCarbon := do
    let maxSupply ← readCarbon
    let bits ← read1
    let flags : TokenFlags := ⟨bits⟩
    let decimals ← read1
    let owner ← read32
    let symbol ← readCarbon
    let metadata ← readByteArray
    let tokenSchemas ← (if flags.contains .nonFungible then readByteArray else pure [] :
      Reader Bytes)
    pure { maxSupply, flags, decimals, owner, symbol, metadata, tokenSchemas }

end TokenInfo

end PhantasmaSdk
