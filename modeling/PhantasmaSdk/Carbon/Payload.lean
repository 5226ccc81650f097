import PhantasmaSdk.Carbon.IntX

/-!
# Transaction payloads

The payloads of the native transaction types: a record each, with the layout its
fields are written and read in. `lawful` says of each record that it is read
back, and that what is read is written again; the payload that holds an `IntX`
is not exact, as an amount has more than one encoding.
-/

namespace PhantasmaSdk

open Codec Codec.Decoder CarbonWriter CarbonReader

/-! ## Text -/

/-- A text of at most 255 UTF-8 bytes, by its writer only. -/
structure SmallString where
  value : String
  deriving DecidableEq, Repr

namespace SmallString

instance : CarbonSerializable SmallString where
  writeCarbon s :=
    let raw := utf8 s.value
    if raw.length < 256 then pure (write1 (UInt8.ofNat raw.length) ++ raw)
    else serialization "SmallString exceeds 255 UTF-8 bytes"
  readCarbon := do
    let len ← read1
    let raw ← read len.toNat
    let value ← textOf raw
    pure ⟨value⟩

theorem writeCarbon_eq_ok {s : SmallString} {enc : Bytes} : writeCarbon s = .ok enc ↔
    (utf8 s.value).length < 256 ∧
      enc = write1 (UInt8.ofNat (utf8 s.value).length) ++ utf8 s.value := by
  change (if (utf8 s.value).length < 256 then _ else _) = _ ↔ _
  split
  next h => exact ⟨fun hw => ⟨h, (Except.ok.inj hw).symm⟩, fun hw => congrArg Except.ok hw.2.symm⟩
  next h =>
    constructor
    · intro hw
      cases hw
    · exact fun hw => absurd hw.1 h

theorem lawful : Lawful (writeCarbon : SmallString → Result Bytes) readCarbon (fun _ => True)
    (fun _ => True) 1 where
  reads s enc _ hw := by
    obtain ⟨hl, rfl⟩ := writeCarbon_eq_ok.1 hw
    refine (reads_read1 _).bind ?_
    refine Reads.congr ((reads_read ?_).bind ((reads_textOf s.value).map SmallString.mk))
      (List.append_nil _).symm rfl
    rw [UInt8.toNat_ofNat_of_lt' hl]
  yields := by
    change Decoder.Yields (read1 >>= _) _
    refine yields_read1.bind fun len used h => (yields_read len.toNat).bind fun raw used' h' =>
      (yields_textOf raw).bind fun value used'' h'' => yields_pure ⟨trivial, ?_⟩
    obtain rfl := h
    obtain ⟨rfl, hl⟩ := h'
    obtain ⟨rfl, rfl⟩ := h''
    have hlt := len.toNat_lt
    exact ⟨_, writeCarbon_eq_ok.2 ⟨by simpa only [hl] using hlt, rfl⟩, fun _ => by simp [hl]⟩
  length_le s enc hw := by
    obtain ⟨_, rfl⟩ := writeCarbon_eq_ok.1 hw
    simp [write1]

theorem safe_readCarbon {input : Bytes} : (readCarbon : Reader SmallString).Safe input :=
  safeOn_bind.2 ⟨safe_read1, fun _ _ _ => safeOn_bind.2 ⟨safe_read _, fun _ _ _ =>
    safeOn_bind.2 ⟨safe_textOf _, fun _ _ _ => safeOn_pure _ _⟩⟩⟩

end SmallString

/-! ## Transfers -/

structure TxMsgTransferFungible where
  toAddress : Bytes32
  tokenId : UInt64
  amount : UInt64
  deriving DecidableEq, Repr

namespace TxMsgTransferFungible

instance : CarbonSerializable TxMsgTransferFungible where
  writeCarbon v := pure (write32 v.toAddress ++ write8u v.tokenId ++ write8u v.amount)
  readCarbon := do
    let toAddress ← read32
    let tokenId ← read8u
    let amount ← read8u
    pure { toAddress, tokenId, amount }

theorem lawful : Lawful (writeCarbon : TxMsgTransferFungible → Result Bytes) readCarbon
    (fun _ => True) (fun _ => True) 48 :=
  ((lawful_write32.pair lawful_write8u).pair lawful_write8u).iso
    (fun p => ⟨p.1.1, p.1.2, p.2⟩) (fun v => ((v.toAddress, v.tokenId), v.amount))
    (fun _ => rfl) (by simp [readCarbon]) (by simp) (by simp)

theorem safe_readCarbon {input : Bytes} : (readCarbon : Reader TxMsgTransferFungible).Safe input :=
  safe_read32.bind fun _ => safe_read8u.bind fun _ => safe_read8u.bind fun _ => safeOn_pure _ _

end TxMsgTransferFungible

structure TxMsgTransferFungibleGasPayer where
  toAddress : Bytes32
  fromAddress : Bytes32
  tokenId : UInt64
  amount : UInt64
  deriving DecidableEq, Repr

namespace TxMsgTransferFungibleGasPayer

instance : CarbonSerializable TxMsgTransferFungibleGasPayer where
  writeCarbon v := pure (write32 v.toAddress ++ write32 v.fromAddress ++ write8u v.tokenId ++ write8u v.amount)
  readCarbon := do
    let toAddress ← read32
    let fromAddress ← read32
    let tokenId ← read8u
    let amount ← read8u
    pure { toAddress, fromAddress, tokenId, amount }

theorem lawful : Lawful (writeCarbon : TxMsgTransferFungibleGasPayer → Result Bytes) readCarbon
    (fun _ => True) (fun _ => True) 80 :=
  (((lawful_write32.pair lawful_write32).pair lawful_write8u).pair lawful_write8u).iso
    (fun p => ⟨p.1.1.1, p.1.1.2, p.1.2, p.2⟩) (fun v => (((v.toAddress, v.fromAddress), v.tokenId), v.amount))
    (fun _ => rfl) (by simp [readCarbon]) (by simp) (by simp)

theorem safe_readCarbon {input : Bytes} : (readCarbon : Reader TxMsgTransferFungibleGasPayer).Safe input :=
  safe_read32.bind fun _ => safe_read32.bind fun _ => safe_read8u.bind fun _ => safe_read8u.bind fun _ => safeOn_pure _ _

end TxMsgTransferFungibleGasPayer

structure TxMsgTransferNonFungibleSingle where
  toAddress : Bytes32
  tokenId : UInt64
  instanceId : UInt64
  deriving DecidableEq, Repr

namespace TxMsgTransferNonFungibleSingle

instance : CarbonSerializable TxMsgTransferNonFungibleSingle where
  writeCarbon v := pure (write32 v.toAddress ++ write8u v.tokenId ++ write8u v.instanceId)
  readCarbon := do
    let toAddress ← read32
    let tokenId ← read8u
    let instanceId ← read8u
    pure { toAddress, tokenId, instanceId }

theorem lawful : Lawful (writeCarbon : TxMsgTransferNonFungibleSingle → Result Bytes) readCarbon
    (fun _ => True) (fun _ => True) 48 :=
  ((lawful_write32.pair lawful_write8u).pair lawful_write8u).iso
    (fun p => ⟨p.1.1, p.1.2, p.2⟩) (fun v => ((v.toAddress, v.tokenId), v.instanceId))
    (fun _ => rfl) (by simp [readCarbon]) (by simp) (by simp)

theorem safe_readCarbon {input : Bytes} : (readCarbon : Reader TxMsgTransferNonFungibleSingle).Safe input :=
  safe_read32.bind fun _ => safe_read8u.bind fun _ => safe_read8u.bind fun _ => safeOn_pure _ _

end TxMsgTransferNonFungibleSingle

structure TxMsgTransferNonFungibleSingleGasPayer where
  toAddress : Bytes32
  fromAddress : Bytes32
  tokenId : UInt64
  instanceId : UInt64
  deriving DecidableEq, Repr

namespace TxMsgTransferNonFungibleSingleGasPayer

instance : CarbonSerializable TxMsgTransferNonFungibleSingleGasPayer where
  writeCarbon v := pure (write32 v.toAddress ++ write32 v.fromAddress ++ write8u v.tokenId ++ write8u v.instanceId)
  readCarbon := do
    let toAddress ← read32
    let fromAddress ← read32
    let tokenId ← read8u
    let instanceId ← read8u
    pure { toAddress, fromAddress, tokenId, instanceId }

theorem lawful : Lawful (writeCarbon : TxMsgTransferNonFungibleSingleGasPayer → Result Bytes) readCarbon
    (fun _ => True) (fun _ => True) 80 :=
  (((lawful_write32.pair lawful_write32).pair lawful_write8u).pair lawful_write8u).iso
    (fun p => ⟨p.1.1.1, p.1.1.2, p.1.2, p.2⟩) (fun v => (((v.toAddress, v.fromAddress), v.tokenId), v.instanceId))
    (fun _ => rfl) (by simp [readCarbon]) (by simp) (by simp)

theorem safe_readCarbon {input : Bytes} : (readCarbon : Reader TxMsgTransferNonFungibleSingleGasPayer).Safe input :=
  safe_read32.bind fun _ => safe_read32.bind fun _ => safe_read8u.bind fun _ => safe_read8u.bind fun _ => safeOn_pure _ _

end TxMsgTransferNonFungibleSingleGasPayer

structure TxMsgTransferNonFungibleMulti where
  toAddress : Bytes32
  tokenId : UInt64
  instanceIds : List UInt64
  deriving DecidableEq, Repr

namespace TxMsgTransferNonFungibleMulti

instance : CarbonSerializable TxMsgTransferNonFungibleMulti where
  writeCarbon v := do
    let instanceIds ← writeU64Array v.instanceIds
    pure (write32 v.toAddress ++ write8u v.tokenId ++ instanceIds)
  readCarbon := do
    let toAddress ← read32
    let tokenId ← read8u
    let instanceIds ← readU64Array
    pure { toAddress, tokenId, instanceIds }

theorem lawful : Lawful (writeCarbon : TxMsgTransferNonFungibleMulti → Result Bytes) readCarbon
    (fun v => v.instanceIds.length < 2 ^ 31) (fun _ => True) 44 :=
  ((lawful_write32.pair lawful_write8u).pair lawful_writeU64Array).iso
    (fun p => ⟨p.1.1, p.1.2, p.2⟩) (fun v => ((v.toAddress, v.tokenId), v.instanceIds))
    (fun _ => rfl) (by simp [readCarbon]) (by simp) (by simp)

theorem safe_readCarbon {input : Bytes} : (readCarbon : Reader TxMsgTransferNonFungibleMulti).Safe input :=
  safe_read32.bind fun _ => safe_read8u.bind fun _ => safe_readU64Array.bind fun _ => safeOn_pure _ _

end TxMsgTransferNonFungibleMulti

structure TxMsgTransferNonFungibleMultiGasPayer where
  toAddress : Bytes32
  fromAddress : Bytes32
  tokenId : UInt64
  instanceIds : List UInt64
  deriving DecidableEq, Repr

namespace TxMsgTransferNonFungibleMultiGasPayer

instance : CarbonSerializable TxMsgTransferNonFungibleMultiGasPayer where
  writeCarbon v := do
    let instanceIds ← writeU64Array v.instanceIds
    pure (write32 v.toAddress ++ write32 v.fromAddress ++ write8u v.tokenId ++ instanceIds)
  readCarbon := do
    let toAddress ← read32
    let fromAddress ← read32
    let tokenId ← read8u
    let instanceIds ← readU64Array
    pure { toAddress, fromAddress, tokenId, instanceIds }

theorem lawful : Lawful (writeCarbon : TxMsgTransferNonFungibleMultiGasPayer → Result Bytes) readCarbon
    (fun v => v.instanceIds.length < 2 ^ 31) (fun _ => True) 76 :=
  (((lawful_write32.pair lawful_write32).pair lawful_write8u).pair lawful_writeU64Array).iso
    (fun p => ⟨p.1.1.1, p.1.1.2, p.1.2, p.2⟩) (fun v => (((v.toAddress, v.fromAddress), v.tokenId), v.instanceIds))
    (fun _ => rfl) (by simp [readCarbon]) (by simp) (by simp)

theorem safe_readCarbon {input : Bytes} : (readCarbon : Reader TxMsgTransferNonFungibleMultiGasPayer).Safe input :=
  safe_read32.bind fun _ => safe_read32.bind fun _ => safe_read8u.bind fun _ => safe_readU64Array.bind fun _ => safeOn_pure _ _

end TxMsgTransferNonFungibleMultiGasPayer

/-! ## Mints and burns -/

structure TxMsgMintFungible where
  tokenId : UInt64
  toAddress : Bytes32
  amount : IntX
  deriving DecidableEq, Repr

namespace TxMsgMintFungible

instance : CarbonSerializable TxMsgMintFungible where
  writeCarbon v := do
    let amount ← writeCarbon v.amount
    pure (write8u v.tokenId ++ write32 v.toAddress ++ amount)
  readCarbon := do
    let tokenId ← read8u
    let toAddress ← read32
    let amount ← readCarbon
    pure { tokenId, toAddress, amount }

theorem lawful : Lawful (writeCarbon : TxMsgMintFungible → Result Bytes) readCarbon
    (fun v => v.amount.InRange) (fun _ => False) 41 :=
  ((lawful_write8u.pair lawful_write32).pair IntX.lawful).iso
    (fun p => ⟨p.1.1, p.1.2, p.2⟩) (fun v => ((v.tokenId, v.toAddress), v.amount))
    (fun _ => rfl) (by simp [readCarbon]) (by simp) (by simp)

theorem safe_readCarbon {input : Bytes} : (readCarbon : Reader TxMsgMintFungible).Safe input :=
  safe_read8u.bind fun _ => safe_read32.bind fun _ => IntX.safe_readCarbon.bind fun _ => safeOn_pure _ _

end TxMsgMintFungible

structure TxMsgBurnFungible where
  tokenId : UInt64
  amount : IntX
  deriving DecidableEq, Repr

namespace TxMsgBurnFungible

instance : CarbonSerializable TxMsgBurnFungible where
  writeCarbon v := do
    let amount ← writeCarbon v.amount
    pure (write8u v.tokenId ++ amount)
  readCarbon := do
    let tokenId ← read8u
    let amount ← readCarbon
    pure { tokenId, amount }

theorem lawful : Lawful (writeCarbon : TxMsgBurnFungible → Result Bytes) readCarbon
    (fun v => v.amount.InRange) (fun _ => False) 9 :=
  (lawful_write8u.pair IntX.lawful).iso
    (fun p => ⟨p.1, p.2⟩) (fun v => (v.tokenId, v.amount))
    (fun _ => rfl) (by simp [readCarbon]) (by simp) (by simp)

theorem safe_readCarbon {input : Bytes} : (readCarbon : Reader TxMsgBurnFungible).Safe input :=
  safe_read8u.bind fun _ => IntX.safe_readCarbon.bind fun _ => safeOn_pure _ _

end TxMsgBurnFungible

structure TxMsgBurnFungibleGasPayer where
  tokenId : UInt64
  fromAddress : Bytes32
  amount : IntX
  deriving DecidableEq, Repr

namespace TxMsgBurnFungibleGasPayer

instance : CarbonSerializable TxMsgBurnFungibleGasPayer where
  writeCarbon v := do
    let amount ← writeCarbon v.amount
    pure (write8u v.tokenId ++ write32 v.fromAddress ++ amount)
  readCarbon := do
    let tokenId ← read8u
    let fromAddress ← read32
    let amount ← readCarbon
    pure { tokenId, fromAddress, amount }

theorem lawful : Lawful (writeCarbon : TxMsgBurnFungibleGasPayer → Result Bytes) readCarbon
    (fun v => v.amount.InRange) (fun _ => False) 41 :=
  ((lawful_write8u.pair lawful_write32).pair IntX.lawful).iso
    (fun p => ⟨p.1.1, p.1.2, p.2⟩) (fun v => ((v.tokenId, v.fromAddress), v.amount))
    (fun _ => rfl) (by simp [readCarbon]) (by simp) (by simp)

theorem safe_readCarbon {input : Bytes} : (readCarbon : Reader TxMsgBurnFungibleGasPayer).Safe input :=
  safe_read8u.bind fun _ => safe_read32.bind fun _ => IntX.safe_readCarbon.bind fun _ => safeOn_pure _ _

end TxMsgBurnFungibleGasPayer

structure TxMsgMintNonFungible where
  tokenId : UInt64
  toAddress : Bytes32
  seriesId : UInt32
  rom : Bytes
  ram : Bytes
  deriving DecidableEq, Repr

namespace TxMsgMintNonFungible

instance : CarbonSerializable TxMsgMintNonFungible where
  writeCarbon v := do
    let rom ← writeByteArray v.rom
    let ram ← writeByteArray v.ram
    pure (write8u v.tokenId ++ write32 v.toAddress ++ write4u v.seriesId ++ rom ++ ram)
  readCarbon := do
    let tokenId ← read8u
    let toAddress ← read32
    let seriesId ← read4u
    let rom ← readByteArray
    let ram ← readByteArray
    pure { tokenId, toAddress, seriesId, rom, ram }

theorem lawful : Lawful (writeCarbon : TxMsgMintNonFungible → Result Bytes) readCarbon
    (fun v => v.rom.length < 2 ^ 31 ∧ v.ram.length < 2 ^ 31) (fun _ => True) 52 :=
  ((((lawful_write8u.pair lawful_write32).pair lawful_write4u).pair lawful_writeByteArray).pair lawful_writeByteArray).iso
    (fun p => ⟨p.1.1.1.1, p.1.1.1.2, p.1.1.2, p.1.2, p.2⟩) (fun v => ((((v.tokenId, v.toAddress), v.seriesId), v.rom), v.ram))
    (fun _ => by simp [writeCarbon, -List.append_assoc]) (by simp [readCarbon]) (by simp) (by simp)

theorem safe_readCarbon {input : Bytes} : (readCarbon : Reader TxMsgMintNonFungible).Safe input :=
  safe_read8u.bind fun _ => safe_read32.bind fun _ => safe_read4u.bind fun _ => safe_readByteArray.bind fun _ => safe_readByteArray.bind fun _ => safeOn_pure _ _

end TxMsgMintNonFungible

structure TxMsgBurnNonFungible where
  tokenId : UInt64
  instanceId : UInt64
  deriving DecidableEq, Repr

namespace TxMsgBurnNonFungible

instance : CarbonSerializable TxMsgBurnNonFungible where
  writeCarbon v := pure (write8u v.tokenId ++ write8u v.instanceId)
  readCarbon := do
    let tokenId ← read8u
    let instanceId ← read8u
    pure { tokenId, instanceId }

theorem lawful : Lawful (writeCarbon : TxMsgBurnNonFungible → Result Bytes) readCarbon
    (fun _ => True) (fun _ => True) 16 :=
  (lawful_write8u.pair lawful_write8u).iso
    (fun p => ⟨p.1, p.2⟩) (fun v => (v.tokenId, v.instanceId))
    (fun _ => rfl) (by simp [readCarbon]) (by simp) (by simp)

theorem safe_readCarbon {input : Bytes} : (readCarbon : Reader TxMsgBurnNonFungible).Safe input :=
  safe_read8u.bind fun _ => safe_read8u.bind fun _ => safeOn_pure _ _

end TxMsgBurnNonFungible

structure TxMsgBurnNonFungibleGasPayer where
  tokenId : UInt64
  fromAddress : Bytes32
  instanceId : UInt64
  deriving DecidableEq, Repr

namespace TxMsgBurnNonFungibleGasPayer

instance : CarbonSerializable TxMsgBurnNonFungibleGasPayer where
  writeCarbon v := pure (write8u v.tokenId ++ write32 v.fromAddress ++ write8u v.instanceId)
  readCarbon := do
    let tokenId ← read8u
    let fromAddress ← read32
    let instanceId ← read8u
    pure { tokenId, fromAddress, instanceId }

theorem lawful : Lawful (writeCarbon : TxMsgBurnNonFungibleGasPayer → Result Bytes) readCarbon
    (fun _ => True) (fun _ => True) 48 :=
  ((lawful_write8u.pair lawful_write32).pair lawful_write8u).iso
    (fun p => ⟨p.1.1, p.1.2, p.2⟩) (fun v => ((v.tokenId, v.fromAddress), v.instanceId))
    (fun _ => rfl) (by simp [readCarbon]) (by simp) (by simp)

theorem safe_readCarbon {input : Bytes} : (readCarbon : Reader TxMsgBurnNonFungibleGasPayer).Safe input :=
  safe_read8u.bind fun _ => safe_read32.bind fun _ => safe_read8u.bind fun _ => safeOn_pure _ _

end TxMsgBurnNonFungibleGasPayer

/-! ## Trades -/

structure TxMsgTrade where
  transferF : List TxMsgTransferFungibleGasPayer
  transferN : List TxMsgTransferNonFungibleSingleGasPayer
  mintF : List TxMsgMintFungible
  burnF : List TxMsgBurnFungibleGasPayer
  mintN : List TxMsgMintNonFungible
  burnN : List TxMsgBurnNonFungibleGasPayer
  deriving DecidableEq, Repr

namespace TxMsgTrade

instance : CarbonSerializable TxMsgTrade where
  writeCarbon v := do
    let transferF ← writeCarbonArray v.transferF
    let transferN ← writeCarbonArray v.transferN
    let mintF ← writeCarbonArray v.mintF
    let burnF ← writeCarbonArray v.burnF
    let mintN ← writeCarbonArray v.mintN
    let burnN ← writeCarbonArray v.burnN
    pure (transferF ++ transferN ++ mintF ++ burnF ++ mintN ++ burnN)
  readCarbon := do
    let transferF ← readCarbonArray TxMsgTransferFungibleGasPayer
    let transferN ← readCarbonArray TxMsgTransferNonFungibleSingleGasPayer
    let mintF ← readCarbonArray TxMsgMintFungible
    let burnF ← readCarbonArray TxMsgBurnFungibleGasPayer
    let mintN ← readCarbonArray TxMsgMintNonFungible
    let burnN ← readCarbonArray TxMsgBurnNonFungibleGasPayer
    pure { transferF, transferN, mintF, burnF, mintN, burnN }

/-- The lengths of a trade's arrays fit an `i32`, and what is in them fits. -/
structure Fits (v : TxMsgTrade) : Prop where
  transferF : v.transferF.length < 2 ^ 31
  transferN : v.transferN.length < 2 ^ 31
  mintF : v.mintF.length < 2 ^ 31 ∧ ∀ m ∈ v.mintF, m.amount.InRange
  burnF : v.burnF.length < 2 ^ 31 ∧ ∀ b ∈ v.burnF, b.amount.InRange
  mintN : v.mintN.length < 2 ^ 31 ∧
    ∀ m ∈ v.mintN, m.rom.length < 2 ^ 31 ∧ m.ram.length < 2 ^ 31
  burnN : v.burnN.length < 2 ^ 31

theorem lawful : Lawful (writeCarbon : TxMsgTrade → Result Bytes) readCarbon Fits
    (fun v => v.mintF = [] ∧ v.burnF = []) 24 :=
  ((((((lawful_writeCarbonArray TxMsgTransferFungibleGasPayer.lawful (by norm_num)).pair
    (lawful_writeCarbonArray TxMsgTransferNonFungibleSingleGasPayer.lawful (by norm_num))).pair
    (lawful_writeCarbonArray TxMsgMintFungible.lawful (by norm_num))).pair
    (lawful_writeCarbonArray TxMsgBurnFungibleGasPayer.lawful (by norm_num))).pair
    (lawful_writeCarbonArray TxMsgMintNonFungible.lawful (by norm_num))).pair
    (lawful_writeCarbonArray TxMsgBurnNonFungibleGasPayer.lawful (by norm_num))).iso
    (fun p => ⟨p.1.1.1.1.1, p.1.1.1.1.2, p.1.1.1.2, p.1.1.2, p.1.2, p.2⟩)
    (fun v => (((((v.transferF, v.transferN), v.mintF), v.burnF), v.mintN), v.burnN))
    (fun _ => by simp [writeCarbon, -List.append_assoc]) (by simp [readCarbon])
    (fun v => by
      constructor
      · rintro ⟨h₁, h₂, h₃, h₄, h₅, h₆⟩
        exact ⟨⟨⟨⟨⟨⟨h₁, fun _ _ => trivial⟩, ⟨h₂, fun _ _ => trivial⟩⟩, h₃⟩, h₄⟩, h₅⟩,
          ⟨h₆, fun _ _ => trivial⟩⟩
      · rintro ⟨⟨⟨⟨⟨h₁, h₂⟩, h₃⟩, h₄⟩, h₅⟩, h₆⟩
        exact ⟨h₁.1, h₂.1, h₃, h₄, h₅, h₆.1⟩)
    (fun v => by simp [List.eq_nil_iff_forall_not_mem])

theorem safe_readCarbon {input : Bytes} : (readCarbon : Reader TxMsgTrade).Safe input :=
  (safe_readCarbonArray TxMsgTransferFungibleGasPayer.safe_readCarbon).bind fun _ =>
    (safe_readCarbonArray TxMsgTransferNonFungibleSingleGasPayer.safe_readCarbon).bind fun _ =>
    (safe_readCarbonArray TxMsgMintFungible.safe_readCarbon).bind fun _ =>
    (safe_readCarbonArray TxMsgBurnFungibleGasPayer.safe_readCarbon).bind fun _ =>
    (safe_readCarbonArray TxMsgMintNonFungible.safe_readCarbon).bind fun _ =>
    (safe_readCarbonArray TxMsgBurnNonFungibleGasPayer.safe_readCarbon).bind fun _ =>
    safeOn_pure _ _

end TxMsgTrade

/-! ## Scripts -/

structure TxMsgPhantasma where
  nexus : SmallString
  chain : SmallString
  script : Bytes
  deriving DecidableEq, Repr

namespace TxMsgPhantasma

instance : CarbonSerializable TxMsgPhantasma where
  writeCarbon v := do
    let nexus ← writeCarbon v.nexus
    let chain ← writeCarbon v.chain
    let script ← writeByteArray v.script
    pure (nexus ++ chain ++ script)
  readCarbon := do
    let nexus ← readCarbon
    let chain ← readCarbon
    let script ← readByteArray
    pure { nexus, chain, script }

theorem lawful : Lawful (writeCarbon : TxMsgPhantasma → Result Bytes) readCarbon
    (fun v => v.script.length < 2 ^ 31) (fun _ => True) 6 :=
  ((SmallString.lawful.pair SmallString.lawful).pair lawful_writeByteArray).iso
    (fun p => ⟨p.1.1, p.1.2, p.2⟩) (fun v => ((v.nexus, v.chain), v.script))
    (fun _ => by simp [writeCarbon, -List.append_assoc]) (by simp [readCarbon]) (by simp) (by simp)

theorem safe_readCarbon {input : Bytes} : (readCarbon : Reader TxMsgPhantasma).Safe input :=
  SmallString.safe_readCarbon.bind fun _ => SmallString.safe_readCarbon.bind fun _ => safe_readByteArray.bind fun _ => safeOn_pure _ _

end TxMsgPhantasma

structure TxMsgPhantasmaRaw where
  transaction : Bytes
  deriving DecidableEq, Repr

namespace TxMsgPhantasmaRaw

instance : CarbonSerializable TxMsgPhantasmaRaw where
  writeCarbon v := writeByteArray v.transaction
  readCarbon := do
    let transaction ← readByteArray
    pure { transaction }

theorem lawful : Lawful (writeCarbon : TxMsgPhantasmaRaw → Result Bytes) readCarbon
    (fun v => v.transaction.length < 2 ^ 31) (fun _ => True) 4 :=
  (lawful_writeByteArray).iso
    (fun p => ⟨p⟩) (fun v => v.transaction)
    (fun _ => rfl) (by simp [readCarbon]) (by simp) (by simp)

theorem safe_readCarbon {input : Bytes} : (readCarbon : Reader TxMsgPhantasmaRaw).Safe input :=
  safe_readByteArray.bind fun _ => safeOn_pure _ _

end TxMsgPhantasmaRaw

end PhantasmaSdk
