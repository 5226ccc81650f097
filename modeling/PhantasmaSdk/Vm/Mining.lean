import PhantasmaSdk.Crypto.Difficulty
import PhantasmaSdk.Machine.Loop
import PhantasmaSdk.Vm.Transaction

/-!
# Mining

A transaction is mined by trying nonces as its payload, one after the other, until
its hash is difficult enough. A nonce wraps around, and nothing else ends the search:
if no nonce is good enough they are all tried again, and again. So mining does what
it is for just when some nonce is good enough, or the transaction is to begin with
(`Transaction.mined_iff`).

The hash of bytes is taken from elsewhere.
-/

namespace PhantasmaSdk.Vm

open Machine BinaryWriter Crypto

namespace Transaction

variable (sha256 : Bytes → Hash)

def hash (tx : Transaction) : Hash := sha256 (tx.toBytes false)

/-- The transaction with a nonce for its payload. -/
def withNonce (tx : Transaction) (nonce : UInt32) : Transaction :=
  { tx with
    payload := writeU32LE nonce
    inMemory := ⟨tx.inMemory.1, tx.inMemory.2.1, tx.inMemory.2.2.1,
      by simp [writeU32LE, maxVecLength], tx.inMemory.2.2.2.2⟩ }

structure MineState where
  nonce : UInt32
  tx : Transaction

def mineTest (difficulty : UInt32) (s : MineState) : Bool :=
  (s.tx.hash sha256).difficulty < difficulty.toNat

def mineRound (s : MineState) : MineState :=
  { nonce := s.nonce + 1, tx := s.tx.withNonce (s.nonce + 1) }

/-- The transaction as it is mined, if it is within the given number of tests. -/
def mine (difficulty : UInt32) (fuel : ℕ) (tx : Transaction) : Option Transaction :=
  if difficulty = 0 then some tx
  else (whileLoop (mineTest sha256 difficulty) mineRound fuel { nonce := 0, tx }).map (·.tx)

/-- The nonces put into the payload, from a state on, within a number of rounds. -/
def noncesFrom (difficulty : UInt32) : ℕ → MineState → List UInt32
  | 0, _ => []
  | fuel + 1, s =>
    if mineTest sha256 difficulty s then
      (mineRound s).nonce :: noncesFrom difficulty fuel (mineRound s)
    else []

def minedNonces (difficulty : UInt32) (fuel : ℕ) (tx : Transaction) : List UInt32 :=
  if difficulty = 0 then [] else noncesFrom sha256 difficulty fuel { nonce := 0, tx }

/-! ## What mining is for -/

/-- The transactions differ in their payload at most. -/
def SameButPayload (tx tx' : Transaction) : Prop :=
  tx'.nexusName = tx.nexusName ∧ tx'.chainName = tx.chainName ∧ tx'.script = tx.script ∧
    tx'.expiration = tx.expiration ∧ tx'.signatures = tx.signatures

/-- Mining ends with a hash that is difficult enough, having changed nothing but the
    payload, and tries no nonce twice. (It reports nothing, so it never reports that
    it cannot be done.) -/
structure Mined (difficulty : UInt32) (tx : Transaction) : Prop where
  ends : ∃ fuel tx', tx.mine sha256 difficulty fuel = some tx' ∧
    difficulty.toNat ≤ (tx'.hash sha256).difficulty ∧ SameButPayload tx tx'
  once : ∀ fuel, (minedNonces sha256 difficulty fuel tx).Nodup

/-- The transaction is difficult enough as it is, or with some nonce. -/
def Minable (difficulty : UInt32) (tx : Transaction) : Prop :=
  difficulty.toNat ≤ (tx.hash sha256).difficulty ∨
    ∃ nonce, difficulty.toNat ≤ ((tx.withNonce nonce).hash sha256).difficulty

/-! ## Rounds -/

variable {sha256} {difficulty : UInt32} {fuel : ℕ} {tx : Transaction} {s : MineState}

theorem mineTest_eq_false :
    mineTest sha256 difficulty s = false ↔ difficulty.toNat ≤ (s.tx.hash sha256).difficulty := by
  rw [mineTest, decide_eq_false_iff_not, not_lt]

/-- After some rounds, the payload is as many nonces further. -/
theorem iterate_mineRound (s : MineState) (n : ℕ) :
    mineRound^[n + 1] s =
      { nonce := s.nonce + UInt32.ofNat (n + 1)
        tx := s.tx.withNonce (s.nonce + UInt32.ofNat (n + 1)) } := by
  induction n with
  | zero => rfl
  | succ n ih =>
    rw [Function.iterate_succ_apply', ih, UInt32.ofNat_add (n + 1) 1, ← UInt32.add_assoc]
    rfl

/-- A search that ends after `n` rounds has tried at most the next `n` nonces. -/
theorem noncesFrom_eq {n : ℕ} (h : mineTest sha256 difficulty (mineRound^[n] s) = false)
    (fuel : ℕ) : ∃ m ≤ n, noncesFrom sha256 difficulty fuel s =
      (List.range m).map fun i => s.nonce + UInt32.ofNat (i + 1) := by
  induction fuel generalizing s n with
  | zero => exact ⟨0, n.zero_le, rfl⟩
  | succ fuel ih =>
    rw [noncesFrom]
    split
    next htest =>
      cases n with
      | zero => exact nomatch htest.symm.trans h
      | succ n =>
        obtain ⟨m, hm, heq⟩ := ih (s := mineRound s) (n := n) h
        refine ⟨m + 1, Nat.succ_le_succ hm, ?_⟩
        rw [heq, List.range_succ_eq_map, List.map_cons, List.map_map]
        refine congrArg _ (List.map_congr_left fun i _ => ?_)
        rw [Function.comp_apply, UInt32.ofNat_add (i + 1) 1]
        exact (UInt32.add_assoc _ _ _).trans (congrArg _ (UInt32.add_comm _ _))
    next => exact ⟨0, n.zero_le, rfl⟩

/-- Not more nonces than there are come without one that came before. -/
theorem nodup_nonces (nonce : UInt32) {m : ℕ} (hm : m ≤ 2 ^ 32) :
    ((List.range m).map fun i => nonce + UInt32.ofNat (i + 1)).Nodup := by
  refine List.Nodup.map_on (fun i hi j hj h => ?_) List.nodup_range
  have h := congrArg UInt32.toNat ((UInt32.add_right_inj nonce).1 h)
  rw [List.mem_range] at hi hj
  rw [UInt32.toNat_ofNat', UInt32.toNat_ofNat'] at h
  omega

/-- Some of the first `2 ^ 32` rounds leads to a transaction that is difficult enough,
    if any nonce does. -/
theorem exists_mineRound (h : Minable sha256 difficulty tx) : ∃ n ≤ 2 ^ 32,
    mineTest sha256 difficulty (mineRound^[n] { nonce := 0, tx }) = false := by
  obtain h | ⟨nonce, h⟩ := h
  · exact ⟨0, Nat.zero_le _, mineTest_eq_false.2 h⟩
  · -- The nonce zero comes last, when the nonces wrap around.
    have hlt := nonce.toNat_lt
    obtain ⟨n, hn, hnonce⟩ : ∃ n < 2 ^ 32, UInt32.ofNat (n + 1) = nonce := by
      by_cases hzero : nonce.toNat = 0
      · exact ⟨2 ^ 32 - 1, by norm_num, UInt32.toNat_inj.1 (hzero ▸ rfl)⟩
      · refine ⟨nonce.toNat - 1, by omega, ?_⟩
        rw [Nat.sub_add_cancel (Nat.pos_of_ne_zero hzero), UInt32.ofNat_toNat]
    refine ⟨n + 1, hn, mineTest_eq_false.2 ?_⟩
    rw [iterate_mineRound, hnonce, show (0 : UInt32) + nonce = nonce from UInt32.zero_add nonce]
    exact h

/-- Where a search ends, the transaction is the one it began with or has a nonce. -/
theorem tx_iterate_mineRound (tx : Transaction) (n : ℕ) :
    (mineRound^[n] { nonce := 0, tx }).tx = tx ∨
      ∃ nonce, (mineRound^[n] { nonce := 0, tx }).tx = tx.withNonce nonce := by
  cases n with
  | zero => exact .inl rfl
  | succ n => exact .inr ⟨_, congrArg MineState.tx (iterate_mineRound _ n)⟩

theorem sameButPayload_iterate (tx : Transaction) (n : ℕ) :
    SameButPayload tx (mineRound^[n] { nonce := 0, tx }).tx := by
  obtain h | ⟨nonce, h⟩ := tx_iterate_mineRound tx n <;> rw [h]
  · exact ⟨rfl, rfl, rfl, rfl, rfl⟩
  · exact ⟨rfl, rfl, rfl, rfl, rfl⟩

/-! ## Where it ends -/

theorem Mined.minable (h : Mined sha256 difficulty tx) : Minable sha256 difficulty tx := by
  obtain ⟨fuel, tx', hmine, hhard, -⟩ := h.ends
  rw [mine] at hmine
  split at hmine
  next => exact .inl (Option.some.inj hmine ▸ hhard)
  next =>
    obtain ⟨s, hs, rfl⟩ := Option.map_eq_some_iff.1 hmine
    obtain ⟨n, -, rfl, -⟩ := whileLoop_eq_some_iff.1 hs
    obtain htx | ⟨nonce, htx⟩ := tx_iterate_mineRound tx n
    · exact .inl (htx ▸ hhard)
    · exact .inr ⟨nonce, htx ▸ hhard⟩

/-- Mining ends with a hash that is difficult enough, without trying a nonce twice,
    iff there is a nonce to be found or none is needed. -/
theorem mined_iff (sha256 : Bytes → Hash) (difficulty : UInt32) (tx : Transaction) :
    Mined sha256 difficulty tx ↔ Minable sha256 difficulty tx := by
  refine ⟨Mined.minable, fun h => ?_⟩
  by_cases hzero : difficulty = 0
  · subst hzero
    refine ⟨⟨0, tx, rfl, Nat.zero_le _, rfl, rfl, rfl, rfl, rfl⟩, fun fuel => ?_⟩
    rw [minedNonces, if_pos rfl]
    exact List.nodup_nil
  · obtain ⟨n, hn, htest⟩ := exists_mineRound h
    constructor
    · obtain ⟨fuel, s, hs⟩ := exists_whileLoop_iff.2 ⟨n, htest⟩
      obtain ⟨k, -, rfl, hend, -⟩ := whileLoop_eq_some_iff.1 hs
      refine ⟨fuel, _, ?_, mineTest_eq_false.1 hend, sameButPayload_iterate tx k⟩
      rw [mine, if_neg hzero, hs, Option.map_some]
    · intro fuel
      obtain ⟨m, hm, hnonces⟩ := noncesFrom_eq htest fuel
      rw [minedNonces, if_neg hzero, hnonces]
      exact nodup_nonces _ (hm.trans hn)

/-- No hash is more than 256 bits of difficulty: mining for more goes on for ever. -/
theorem not_mined_257 : ¬∃ sha256, Mined sha256 257 signedExample := by
  rintro ⟨sha256, h⟩
  obtain ⟨fuel, tx', -, hhard, -⟩ := h.ends
  exact absurd (hhard.trans (Hash.difficulty_le _)) (by decide)

end Transaction

end PhantasmaSdk.Vm
