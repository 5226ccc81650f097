import Mathlib.Data.Nat.Bitwise
import PhantasmaSdk.Basic

/-!
# The difficulty of a hash

The difficulty of a hash is found by a scan over its bits, from the lowest bit of
its first byte: it is what the position after the last bit set leaves of 256. As a
little-endian number, a hash is the smaller the more difficult it is
(`Hash.difficulty_spec`).
-/

namespace PhantasmaSdk.Crypto

open Codec

structure Hash where
  data : Bytes32
  deriving DecidableEq, Repr

namespace Hash

def scanBit (byteIndex : ℕ) (byte : UInt8) (lastSetBit bitIndex : ℕ) : ℕ :=
  if byte &&& (1 <<< UInt8.ofNat bitIndex) ≠ 0 then 1 + byteIndex <<< 3 + bitIndex
  else lastSetBit

def scanByte (lastSetBit : ℕ) (byte : UInt8 × ℕ) : ℕ :=
  (List.range 8).foldl (scanBit byte.2 byte.1) lastSetBit

def lastSetBit (hash : Hash) : ℕ := hash.data.bytes.zipIdx.foldl scanByte 0

def difficulty (hash : Hash) : ℕ := 256 - hash.lastSetBit

/-! ## The scan -/

theorem and_shiftLeft_ne_zero_iff (byte : UInt8) {i : ℕ} (hi : i < 8) :
    byte &&& (1 <<< UInt8.ofNat i) ≠ 0 ↔ byte.toNat.testBit i = true := by
  have hbit : (1 <<< UInt8.ofNat i : UInt8).toNat = 2 ^ i := by
    interval_cases i <;> rfl
  rw [← UInt8.toNat_inj.ne, UInt8.toNat_and, hbit, Nat.and_two_pow]
  cases byte.toNat.testBit i <;> simp

/-- What has been scanned of a number says how long it is so far. -/
theorem foldl_scanBit {n byteIndex : ℕ} {byte : UInt8}
    (h : ∀ i < 8, n.testBit (8 * byteIndex + i) = byte.toNat.testBit i) {j : ℕ} (hj : j ≤ 8) :
    (List.range j).foldl (scanBit byteIndex byte) (bitLength (n % 2 ^ (8 * byteIndex))) =
      bitLength (n % 2 ^ (8 * byteIndex + j)) := by
  induction j with
  | zero => rfl
  | succ j ih =>
    rw [List.range_succ, List.foldl_append, ih (Nat.le_of_succ_le hj), List.foldl_cons,
      List.foldl_nil, scanBit, ← add_assoc, bitLength_mod_two_pow_succ, h j hj, Nat.shiftLeft_eq]
    refine ite_congr (propext (and_shiftLeft_ne_zero_iff byte hj)) (fun _ => ?_) fun _ => rfl
    omega

/-- After some of its bytes, the scan is as far as their number is long. -/
theorem foldl_scanByte (bs cs : Bytes) :
    (cs.zipIdx bs.length).foldl scanByte (bitLength (ofLE (bs ++ cs) % 2 ^ (8 * bs.length))) =
      bitLength (ofLE (bs ++ cs)) := by
  induction cs generalizing bs with
  | nil =>
    have hlt := ofLE_lt bs
    rw [show (256 : ℕ) = 2 ^ 8 from rfl, ← pow_mul] at hlt
    rw [List.append_nil, Nat.mod_eq_of_lt hlt]
    rfl
  | cons b cs ih =>
    have hbits (i : ℕ) (hi : i < 8) :
        (ofLE (bs ++ b :: cs)).testBit (8 * bs.length + i) = b.toNat.testBit i :=
      testBit_ofLE_append hi
    have hstep := foldl_scanBit hbits le_rfl
    have hrest := ih (bs ++ [b])
    rw [List.append_assoc, List.singleton_append, List.length_append, List.length_singleton,
      mul_add, mul_one] at hrest
    rw [List.zipIdx_cons, List.foldl_cons, scanByte, hstep, hrest]

theorem lastSetBit_eq (hash : Hash) : hash.lastSetBit = bitLength (ofLE hash.data.bytes) := by
  have h := foldl_scanByte [] hash.data.bytes
  rwa [List.length_nil, mul_zero, pow_zero, Nat.mod_one] at h

theorem lastSetBit_le (hash : Hash) : hash.lastSetBit ≤ 256 := by
  have hlt := ofLE_lt hash.data.bytes
  rw [hash.data.length_eq] at hlt
  rw [lastSetBit_eq, bitLength_le_iff]
  exact hlt.trans_eq (by norm_num)

theorem difficulty_le (hash : Hash) : hash.difficulty ≤ 256 := Nat.sub_le _ _

/-- The difficulty of a hash and its length as a little-endian number add up to 256:
    a hash is at least as difficult as `d` when the number has at most `256 - d` bits. -/
theorem difficulty_spec (hash : Hash) :
    hash.difficulty + bitLength (ofLE hash.data.bytes) = 256 ∧
      ∀ d ≤ 256, d ≤ hash.difficulty ↔ ofLE hash.data.bytes < 2 ^ (256 - d) := by
  have hle := hash.lastSetBit_le
  rw [difficulty]
  refine ⟨by rw [← lastSetBit_eq]; omega, fun d hd => ?_⟩
  rw [← bitLength_le_iff, ← lastSetBit_eq]
  omega

end Hash

end PhantasmaSdk.Crypto
