import PhantasmaSdk.Carbon.TokenArgs

/-!
# NFT addresses

Every minted instance of a token has an address of its own, made of the two ids. They
are read back from it, and the addresses so made, of ids that are not zero, are those
that are taken for addresses of an NFT (`isNftAddress_iff`).
-/

namespace PhantasmaSdk

open Codec

/-- What an NFT address begins with. -/
def nftPrefix : Bytes := List.replicate 15 0 ++ [1]

def getNftAddress (carbonTokenId instanceId : UInt64) : Bytes32 where
  bytes := nftPrefix ++ (toLE 8 carbonTokenId.toNat ++ toLE 8 instanceId.toNat)
  length_eq := by simp [nftPrefix]

theorem unpackNftAddress_getNftAddress (tokenId instanceId : UInt64) :
    unpackNftAddress (getNftAddress tokenId instanceId) = (tokenId, instanceId) := by
  have hlength : nftPrefix.length = 16 := rfl
  have htoken : ((getNftAddress tokenId instanceId).bytes.drop 16).take 8 =
      toLE 8 tokenId.toNat := by
    rw [getNftAddress, ← hlength, List.drop_left, List.take_left' (length_toLE 8 _)]
  have hinstance : (getNftAddress tokenId instanceId).bytes.drop 24 = toLE 8 instanceId.toNat := by
    refine (congrArg _ (List.append_assoc _ _ _).symm).trans (List.drop_left' ?_)
    rw [List.length_append, length_toLE, hlength]
  rw [unpackNftAddress, htoken, hinstance, ofLE_toLE_of_lt tokenId.toNat_lt,
    ofLE_toLE_of_lt instanceId.toNat_lt, UInt64.ofNat_toNat, UInt64.ofNat_toNat]

theorem getNftAddress_injective : Function.Injective (Function.uncurry getNftAddress) :=
  Function.LeftInverse.injective (g := unpackNftAddress) fun ids =>
    unpackNftAddress_getNftAddress ids.1 ids.2

/-- The first sixteen bytes are tested to be the prefix. -/
theorem take_eq_nftPrefix_iff {address : Bytes32} : address.bytes.take 16 = nftPrefix ↔
    address.get 15 = 1 ∧ (address.bytes.take 15).any (· ≠ 0) = false := by
  have hlength : (address.bytes.take 15).length = 15 := by
    rw [List.length_take, address.length_eq]
    rfl
  have hget : address.bytes[15]? = some (address.get 15) :=
    List.getElem?_eq_getElem (by rw [address.length_eq]; decide)
  have hzeros : (address.bytes.take 15).any (· ≠ 0) = false ↔
      address.bytes.take 15 = List.replicate 15 0 := by
    simp only [List.eq_replicate_iff, hlength, true_and, List.any_eq_false, decide_eq_true_eq,
      not_not]
  rw [List.take_add_one, hget, Option.toList_some, nftPrefix, hzeros, and_comm]
  constructor
  · intro h
    obtain ⟨htake, hlast⟩ := List.append_inj h (hlength.trans List.length_replicate.symm)
    exact ⟨htake, List.singleton_injective hlast⟩
  · rintro ⟨htake, hlast⟩
    rw [htake, hlast]

theorem isNftAddress_eq_true {address : Bytes32} : isNftAddress address = true ↔
    address.bytes.take 16 = nftPrefix ∧ (unpackNftAddress address).1 ≠ 0 ∧
      (unpackNftAddress address).2 ≠ 0 := by
  rw [isNftAddress, take_eq_nftPrefix_iff]
  split
  next h =>
    refine iff_of_false Bool.false_ne_true ?_
    rintro ⟨⟨hget, hany⟩, -⟩
    exact h.elim (· hget) fun hany' => nomatch hany.symm.trans hany'
  next h =>
    obtain ⟨hget, hany⟩ := not_or.1 h
    rw [and_iff_right ⟨not_not.1 hget, Bool.eq_false_of_not_eq_true hany⟩]
    simp

/-- An address that begins as one of an NFT does is made of the ids read from it. -/
theorem getNftAddress_unpackNftAddress {address : Bytes32}
    (h : address.bytes.take 16 = nftPrefix) :
    getNftAddress (unpackNftAddress address).1 (unpackNftAddress address).2 = address := by
  have hid : ∀ bs : Bytes, bs.length = 8 → toLE 8 (UInt64.ofNat (ofLE bs)).toNat = bs := by
    intro bs hbs
    have hlt := ofLE_lt bs
    rw [hbs] at hlt
    rw [UInt64.toNat_ofNat_of_lt' hlt, toLE_ofLE hbs]
  have htoken := hid ((address.bytes.drop 16).take 8) (by simp [address.length_eq])
  have hinstance := hid (address.bytes.drop 24) (by simp [address.length_eq])
  refine FixedBytes.ext ?_
  change nftPrefix ++ (toLE 8 (UInt64.ofNat _).toNat ++ toLE 8 (UInt64.ofNat _).toNat) = _
  rw [htoken, hinstance, ← h, show 24 = 16 + 8 from rfl, ← List.drop_drop, List.take_append_drop,
    List.take_append_drop]

/-- Taken for the address of an NFT is just what is made of two ids that are not zero;
    the ids are read back from it, and no others make the same address. -/
theorem isNftAddress_iff :
    (∀ address, isNftAddress address = true ↔
      ∃ tokenId instanceId, tokenId ≠ 0 ∧ instanceId ≠ 0 ∧
        address = getNftAddress tokenId instanceId) ∧
    (∀ tokenId instanceId,
      unpackNftAddress (getNftAddress tokenId instanceId) = (tokenId, instanceId)) ∧
    Function.Injective (Function.uncurry getNftAddress) := by
  refine ⟨fun address => ?_, unpackNftAddress_getNftAddress, getNftAddress_injective⟩
  rw [isNftAddress_eq_true]
  constructor
  · rintro ⟨htake, htoken, hinstance⟩
    exact ⟨_, _, htoken, hinstance, (getNftAddress_unpackNftAddress htake).symm⟩
  · rintro ⟨tokenId, instanceId, htoken, hinstance, rfl⟩
    rw [unpackNftAddress_getNftAddress]
    exact ⟨List.take_left' rfl, htoken, hinstance⟩

end PhantasmaSdk
