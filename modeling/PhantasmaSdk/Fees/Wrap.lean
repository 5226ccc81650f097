import Mathlib.Data.List.TakeWhile
import PhantasmaSdk.Fees.Budget
import PhantasmaSdk.Fees.Scaling

/-!
# Where the calculator leaves its words

Gas saturates, but rows and bytes are added up plainly. An estimate is either refused or
made of exact sums, each clamped to its type (`EstimateExact`), unless a sum of rows or
bytes of one operation leaves its word before anything is refused
(`estimate_exact_iff`): a transfer of too many instances, sizes next to the greatest
word, too many returned instances (`NativeFeePart.Overflows`).
-/

namespace PhantasmaSdk

open Machine

/-! ## Panics -/

section

variable {α β : Type}

/-- The computation panics. -/
def Panics (x : Result α) : Prop := ∃ p, x = .error (.panic p)

theorem not_panics_ok (a : α) : ¬Panics (.ok a : Result α) := nofun

theorem not_panics_pure (a : α) : ¬Panics (pure a : Result α) := nofun

theorem not_panics_builder (message : String) : ¬Panics (builder message : Result α) := nofun

/-- A sequence panics in its first part, or in its second where there is one. -/
theorem panics_bind {x : Result α} {f : α → Result β} :
    Panics (x >>= f) ↔ Panics x ∨ ∃ a, x = .ok a ∧ Panics (f a) := by
  cases x with
  | error e =>
    rw [error_bind]
    constructor
    · rintro ⟨p, h⟩
      exact Or.inl ⟨p, congrArg Except.error (Except.error.inj h)⟩
    · rintro (⟨p, h⟩ | ⟨a, h, -⟩)
      · exact ⟨p, congrArg Except.error (Except.error.inj h)⟩
      · cases h
  | ok a =>
    rw [ok_bind]
    constructor
    · exact fun h => Or.inr ⟨a, rfl, h⟩
    · rintro (h | ⟨_, h, hf⟩)
      · exact absurd h (not_panics_ok a)
      · exact Except.ok.inj h ▸ hf

/-- The computation refuses nothing: it panics, or gives a value. -/
def Checked (x : Result α) : Prop := ∀ e, x ≠ .error (.error e)

theorem Checked.panics_iff {x : Result α} (h : Checked x) : Panics x ↔ ¬∃ a, x = .ok a := by
  match x, h with
  | .ok a, _ => exact iff_of_false (not_panics_ok a) (not_not.2 ⟨a, rfl⟩)
  | .error (.panic p), _ => exact iff_of_true ⟨p, rfl⟩ nofun
  | .error (.error e), h => exact absurd rfl (h e)

theorem checked_pure (a : α) : Checked (pure a : Result α) := nofun

theorem Checked.bind {x : Result α} {f : α → Result β} (h : Checked x) (hf : ∀ a, Checked (f a)) :
    Checked (x >>= f) := by
  cases x with
  | error e => exact fun e' h' => h e' (congrArg Except.error (Except.error.inj h'))
  | ok a => exact hf a

theorem Checked.ite {c : Prop} [Decidable c] {x y : Result α} (h : Checked x) (h' : Checked y) :
    Checked (if c then x else y) := by
  split
  · exact h
  · exact h'

theorem Checked.mapM {f : α → Result β} (h : ∀ a, Checked (f a)) (as : List α) :
    Checked (as.mapM f) := by
  induction as with
  | nil => exact checked_pure []
  | cons a as ih =>
    rw [List.mapM_cons]
    exact (h a).bind fun b => ih.bind fun bs => checked_pure (b :: bs)

theorem checked_u32 (n : ℕ) : Checked (u32 n) := by
  rw [u32, Checked]
  rcases word32 n with - | word
  · rintro e ⟨⟩
  · rintro e ⟨⟩

theorem checked_sumU32 (values : List UInt32) : Checked (sumU32 values) := by
  rw [sumU32]
  generalize (0 : UInt32) = start
  induction values generalizing start with
  | nil => exact checked_pure start
  | cons value values ih =>
    rw [List.foldlM_cons]
    exact (checked_u32 _).bind ih

theorem panics_u32 {n : ℕ} : Panics (u32 n) ↔ 2 ^ 32 ≤ n := by
  rw [(checked_u32 n).panics_iff, ← not_lt, not_iff_not]
  simp only [u32_eq_ok]
  constructor
  · rintro ⟨c, rfl⟩
    exact c.toNat_lt
  · intro h
    obtain ⟨c, -, hc⟩ := exists_word32 h
    exact ⟨c, hc⟩

theorem panics_sumU32 {values : List UInt32} :
    Panics (sumU32 values) ↔ 2 ^ 32 ≤ (values.map UInt32.toNat).sum := by
  rw [(checked_sumU32 values).panics_iff, ← not_lt, not_iff_not]
  simp only [sumU32_eq_ok]
  constructor
  · rintro ⟨c, hc⟩
    exact hc ▸ c.toNat_lt
  · intro h
    obtain ⟨c, -, hc⟩ := exists_word32 h
    exact ⟨c, hc⟩

end

/-! ## Checks that refuse -/

theorem not_panics_perInstance (values : List UInt32) (count : UInt32) (name : String) :
    ¬Panics (perInstance values count name) := by
  unfold perInstance
  split
  · exact not_panics_pure _
  · exact not_panics_pure _
  · split
    · exact not_panics_pure _
    · exact not_panics_builder _

/-- One size per instance is had, or refused. -/
theorem panics_perInstance_bind {α : Type} {values : List UInt32} {count : UInt32}
    {name : String} {f : List UInt32 → Result α} :
    Panics (perInstance values count name >>= f) ↔
      SizedFor values count ∧ Panics (f (sizesFor values count)) := by
  rw [panics_bind, or_iff_right (not_panics_perInstance values count name)]
  simp only [perInstance_eq_ok, and_assoc, exists_and_left, exists_eq_left]

theorem not_panics_symbolShift (length : UInt32) (maxLength : UInt8) (name : String) :
    ¬Panics (symbolShift length maxLength name) := by
  rw [symbolShift]
  split
  · exact not_panics_pure _
  · dsimp only
    split
    · exact not_panics_builder _
    · split
      · exact not_panics_builder _
      · exact not_panics_pure _

theorem not_panics_distinctSeries (params : NativeFeeParams) (count : UInt32) :
    ¬Panics (distinctSeries params count) := by
  unfold distinctSeries
  dsimp only
  split
  · exact not_panics_builder _
  · exact not_panics_pure _

theorem checked_instanceRows (stored ram metaId : UInt32) :
    Checked (instanceRows stored ram metaId) :=
  (checked_u32 _).bind fun _ => ((((checked_u32 _).bind fun _ => checked_pure _)).ite
    (checked_pure _)).bind fun _ => checked_sumU32 _

theorem checked_phantasmaCanonicalRomBytes (rom : UInt32) :
    Checked (phantasmaCanonicalRomBytes rom) :=
  (checked_u32 _).bind fun _ => checked_u32 _

/-! ## Clamping -/

@[simp] theorem clamp64_toNat (a : UInt64) : clamp64 a.toNat = a := by
  have := a.toNat_lt
  refine UInt64.toNat_inj.1 ?_
  rw [toNat_clamp64]
  omega

/-- Numbers that are clamped before they are added or after are clamped alike. -/
theorem satAdd64_clamp64 (m n : ℕ) : satAdd64 (clamp64 m) (clamp64 n) = clamp64 (m + n) := by
  refine UInt64.toNat_inj.1 ?_
  rw [toNat_satAdd64, toNat_clamp64, toNat_clamp64, toNat_clamp64]
  omega

/-- A saturating sum is the sum of the numbers, clamped. -/
theorem satAdd64_eq (a b : UInt64) : satAdd64 a b = clamp64 (a.toNat + b.toNat) := rfl

theorem satMul64_eq (a b : UInt64) : satMul64 a b = clamp64 (a.toNat * b.toNat) := rfl

theorem clamp64_add_left (m n : ℕ) : clamp64 ((clamp64 m).toNat + n) = clamp64 (m + n) := by
  refine UInt64.toNat_inj.1 ?_
  rw [toNat_clamp64, toNat_clamp64, toNat_clamp64]
  omega

theorem clamp64_add_right (m n : ℕ) : clamp64 (m + (clamp64 n).toNat) = clamp64 (m + n) := by
  rw [Nat.add_comm, clamp64_add_left, Nat.add_comm]

theorem clamp64_mul_left (m n : ℕ) : clamp64 ((clamp64 m).toNat * n) = clamp64 (m * n) := by
  refine UInt64.toNat_inj.1 ?_
  rw [toNat_clamp64, toNat_clamp64, toNat_clamp64]
  rcases Nat.eq_zero_or_pos n with rfl | hn
  · rw [Nat.mul_zero, Nat.mul_zero]
  rcases le_total m (2 ^ 64 - 1) with hm | hm
  · rw [min_eq_left hm]
  · rw [min_eq_right hm, min_eq_right (Nat.le_mul_of_pos_right _ hn),
      min_eq_right (hm.trans (Nat.le_mul_of_pos_right m hn))]

/-! ## Returned assets -/

namespace InfusedAsset

def instances (asset : InfusedAsset) : UInt32 := asset.instanceCount.getD 1

/-- The calculator refuses NFTs of no instance. -/
def Refused (asset : InfusedAsset) : Prop := asset.nonFungible ∧ asset.instances = 0

instance : DecidablePred Refused := fun _ => inferInstanceAs (Decidable (_ ∧ _))

variable (config : GasConfig) (asset : InfusedAsset)

def newRows : ℕ :=
  factRow asset.burnerHoldsToken (config.freeRows asset.tokenId) +
    if asset.nonFungible then asset.instances.toNat else 0

def deletedRows : ℕ :=
  if asset.nonFungible then 1 + asset.instances.toNat
  else (!config.freeRows asset.tokenId).toNat

def work : ℕ :=
  if asset.nonFungible then
    config.gasFeeQuery.toNat * 2 + config.gasFeeTransfer.toNat * asset.instances.toNat
  else config.gasFeeTransfer.toNat + config.gasFeeQuery.toNat

end InfusedAsset

section

variable {config : GasConfig} {model model' : OperationModel} {asset : InfusedAsset}
  {assets : List InfusedAsset}

/-- Sums of rows that are created and deleted. -/
theorem sumU32_rows_eq_ok {news deleteds : List UInt32} {work policy : UInt64}
    {result : UInt32} :
    (do let new ← sumU32 news
        let deleted ← sumU32 deleteds
        pure ⟨work, policy, result, new, deleted⟩ : Result OperationModel) = .ok model ↔
      model.Is work policy result.toNat (news.map UInt32.toNat).sum
        (deleteds.map UInt32.toNat).sum := by
  simp only [bind_eq_ok, pure_model_eq_ok, sumU32_eq_ok]
  constructor
  · rintro ⟨new, hnew, deleted, hdeleted, h⟩
    rwa [hnew, hdeleted] at h
  · intro h
    exact ⟨_, h.newQuanta, _, h.deletedQuanta, { h with newQuanta := rfl, deletedQuanta := rfl }⟩

theorem panics_sumU32_rows {news deleteds : List UInt32} {f : UInt32 → UInt32 → OperationModel} :
    Panics (do let new ← sumU32 news
               let deleted ← sumU32 deleteds
               pure (f new deleted) : Result OperationModel) ↔
      2 ^ 32 ≤ (news.map UInt32.toNat).sum ∨ 2 ^ 32 ≤ (deleteds.map UInt32.toNat).sum := by
  simp only [panics_bind, panics_sumU32, not_panics_pure, and_false, exists_false, or_false]
  refine ⟨Or.imp_right fun ⟨_, _, h⟩ => h, fun h => ?_⟩
  by_cases hnew : 2 ^ 32 ≤ (news.map UInt32.toNat).sum
  · exact Or.inl hnew
  · obtain ⟨new, -, hsum⟩ := exists_word32 (not_le.1 hnew)
    exact Or.inr ⟨new, sumU32_eq_ok.2 hsum, h.resolve_left hnew⟩

theorem sum_triple (a b c : UInt32) :
    ([a, b, c].map UInt32.toNat).sum = a.toNat + (b.toNat + c.toNat) := by
  simp only [List.map_cons, List.map_nil, List.sum_cons, List.sum_nil, Nat.add_zero]

/-- One returned asset, on top of the others: the work saturates, the rows are added up. -/
theorem returnedAsset_eq (config : GasConfig) (model : OperationModel) (asset : InfusedAsset)
    (h : ¬asset.Refused) : ∃ news deleteds, (news.map UInt32.toNat).sum =
      model.newQuanta.toNat + asset.newRows config ∧
    (deleteds.map UInt32.toNat).sum = model.deletedQuanta.toNat + asset.deletedRows config ∧
    returnedAsset config model asset = (do
      let newQuanta ← sumU32 news
      let deletedQuanta ← sumU32 deleteds
      pure ⟨satAdd64 model.workUnits (clamp64 (asset.work config)), model.policyFee,
        model.resultBytes, newQuanta, deletedQuanta⟩ : Result OperationModel) := by
  rw [returnedAsset, InfusedAsset.newRows, InfusedAsset.deletedRows, InfusedAsset.work, factRow]
  rw [InfusedAsset.Refused] at h
  by_cases hnft : asset.nonFungible = true
  · -- An NFT that is not refused: a row for each instance, and one for the balance.
    have h0 : ¬asset.instanceCount.getD 1 = 0 := fun h0 => h ⟨hnft, h0⟩
    have hwork : satAdd64 (satMul64 config.gasFeeQuery 2)
        (satMul64 config.gasFeeTransfer (asset.instanceCount.getD 1).toUInt64) =
        clamp64 (config.gasFeeQuery.toNat * 2 +
          config.gasFeeTransfer.toNat * (asset.instanceCount.getD 1).toNat) := by
      rw [satMul64_eq, satMul64_eq, satAdd64_clamp64, UInt32.toNat_toUInt64]
      rfl
    simp only [hnft, if_true, InfusedAsset.instances, if_neg h0, hwork]
    refine ⟨[model.newQuanta, quantum (!asset.burnerHoldsToken && !config.freeRows asset.tokenId),
      asset.instanceCount.getD 1], [model.deletedQuanta, 1, asset.instanceCount.getD 1], ?_, ?_, rfl⟩
    · rw [sum_triple, toNat_quantum]
    · rw [sum_triple, UInt32.toNat_one]
  · -- A fungible asset has the row of its balance only.
    rw [Bool.not_eq_true] at hnft
    simp only [hnft]
    refine ⟨_, _, ?_, ?_, rfl⟩
    · rw [sum_pair, toNat_quantum, if_neg Bool.false_ne_true, Nat.add_zero]
    · rw [sum_pair, toNat_quantum, if_neg Bool.false_ne_true]

theorem returnedAsset_of_refused (config : GasConfig) (model : OperationModel)
    {asset : InfusedAsset} (h : asset.Refused) :
    ∃ message, returnedAsset config model asset = builder message := by
  obtain ⟨hnft, h0⟩ := h
  rw [InfusedAsset.instances] at h0
  exact ⟨_, (if_pos hnft).trans (if_pos h0)⟩

theorem returnedAsset_eq_ok : returnedAsset config model asset = .ok model' ↔
    ¬asset.Refused ∧ model'.Is (satAdd64 model.workUnits (clamp64 (asset.work config)))
      model.policyFee model.resultBytes.toNat (model.newQuanta.toNat + asset.newRows config)
      (model.deletedQuanta.toNat + asset.deletedRows config) := by
  by_cases h : asset.Refused
  · obtain ⟨message, hrefused⟩ := returnedAsset_of_refused config model h
    rw [hrefused]
    exact ⟨nofun, fun h' => absurd h h'.1⟩
  · obtain ⟨news, deleteds, hnew, hdeleted, heq⟩ := returnedAsset_eq config model asset h
    rw [heq, sumU32_rows_eq_ok, hnew, hdeleted, and_iff_right h]

theorem panics_returnedAsset : Panics (returnedAsset config model asset) ↔ ¬asset.Refused ∧
    (2 ^ 32 ≤ model.newQuanta.toNat + asset.newRows config ∨
      2 ^ 32 ≤ model.deletedQuanta.toNat + asset.deletedRows config) := by
  by_cases h : asset.Refused
  · obtain ⟨message, hrefused⟩ := returnedAsset_of_refused config model h
    rw [hrefused]
    exact iff_of_false (not_panics_builder _) fun h' => h'.1 h
  · obtain ⟨news, deleteds, hnew, hdeleted, heq⟩ := returnedAsset_eq config model asset h
    rw [heq, panics_sumU32_rows, hnew, hdeleted, and_iff_right h]

/-- The assets before the first one that is refused. -/
def heldBefore (assets : List InfusedAsset) : List InfusedAsset :=
  assets.takeWhile fun asset => ¬asset.Refused

theorem foldlM_returnedAsset_eq_ok : assets.foldlM (returnedAsset config) model = .ok model' ↔
    (∀ asset ∈ assets, ¬asset.Refused) ∧ model'.Is
      (satAdd64 model.workUnits (clamp64 (assets.map (InfusedAsset.work config)).sum))
      model.policyFee model.resultBytes.toNat
      (model.newQuanta.toNat + (assets.map (InfusedAsset.newRows config)).sum)
      (model.deletedQuanta.toNat + (assets.map (InfusedAsset.deletedRows config)).sum) := by
  induction assets generalizing model with
  | nil =>
    have hzero : clamp64 0 = 0 := rfl
    simp only [List.foldlM_nil, List.map_nil, List.sum_nil, Nat.add_zero, hzero, satAdd64_zero,
      List.not_mem_nil, false_implies, implies_true, true_and]
    exact pure_model_eq_ok
  | cons asset assets ih =>
    rw [List.foldlM_cons, bind_eq_ok]
    simp only [returnedAsset_eq_ok, ih, List.forall_mem_cons, List.map_cons, List.sum_cons]
    constructor
    · rintro ⟨mid, ⟨hasset, hmid⟩, hassets, h⟩
      refine ⟨⟨hasset, hassets⟩, (OperationModel.is_congr ?_ hmid.policyFee hmid.resultBytes ?_ ?_).1 h⟩
      · -- Saturating twice is saturating once.
        rw [hmid.workUnits, ← clamp64_toNat model.workUnits, satAdd64_clamp64, satAdd64_clamp64,
          satAdd64_clamp64, Nat.add_assoc]
      · rw [hmid.newQuanta, Nat.add_assoc]
      · rw [hmid.deletedQuanta, Nat.add_assoc]
    · rintro ⟨⟨hasset, hassets⟩, h⟩
      have hnew := model'.newQuanta.toNat_lt
      have hdeleted := model'.deletedQuanta.toNat_lt
      rw [h.newQuanta] at hnew
      rw [h.deletedQuanta] at hdeleted
      -- The rows up to here fit, as those up to the end do.
      obtain ⟨new, -, hnew⟩ := exists_word32 (n := model.newQuanta.toNat + asset.newRows config)
        (by omega)
      obtain ⟨deleted, -, hdeleted⟩ := exists_word32
        (n := model.deletedQuanta.toNat + asset.deletedRows config) (by omega)
      refine ⟨⟨satAdd64 model.workUnits (clamp64 (asset.work config)), model.policyFee,
        model.resultBytes, new, deleted⟩, ⟨hasset, rfl, rfl, rfl, hnew, hdeleted⟩, hassets,
        (OperationModel.is_congr ?_ rfl rfl ?_ ?_).1 h⟩
      · rw [← clamp64_toNat model.workUnits, satAdd64_clamp64, satAdd64_clamp64, satAdd64_clamp64,
          Nat.add_assoc]
      · rw [hnew, Nat.add_assoc]
      · rw [hdeleted, Nat.add_assoc]

theorem heldBefore_cons_of_not {asset : InfusedAsset} (h : ¬asset.Refused)
    (assets : List InfusedAsset) : heldBefore (asset :: assets) = asset :: heldBefore assets :=
  List.takeWhile_cons_of_pos (by simpa using h)

/-- The sum of what is returned leaves its word before an asset is refused. -/
theorem panics_foldlM_returnedAsset : Panics (assets.foldlM (returnedAsset config) model) ↔
    2 ^ 32 ≤ model.newQuanta.toNat + ((heldBefore assets).map (InfusedAsset.newRows config)).sum ∨
      2 ^ 32 ≤ model.deletedQuanta.toNat +
        ((heldBefore assets).map (InfusedAsset.deletedRows config)).sum := by
  induction assets generalizing model with
  | nil =>
    have hnew := model.newQuanta.toNat_lt
    have hdeleted := model.deletedQuanta.toNat_lt
    refine iff_of_false (not_panics_pure _) ?_
    rw [heldBefore, List.takeWhile_nil, List.map_nil, List.sum_nil, List.map_nil, List.sum_nil]
    omega
  | cons asset assets ih =>
    rw [List.foldlM_cons, panics_bind, panics_returnedAsset]
    by_cases h : asset.Refused
    · have hnew := model.newQuanta.toNat_lt
      have hdeleted := model.deletedQuanta.toNat_lt
      -- The asset is refused before anything is added.
      have hnil : heldBefore (asset :: assets) = [] := List.takeWhile_cons_of_neg (by simpa using h)
      simp only [returnedAsset_eq_ok, hnil, h, not_true_eq_false, false_and, exists_false, or_false,
        List.map_nil, List.sum_nil, Nat.add_zero, false_iff]
      omega
    · simp only [returnedAsset_eq_ok, heldBefore_cons_of_not h, h, not_false_eq_true, true_and,
        List.map_cons, List.sum_cons, ← Nat.add_assoc]
      constructor
      · rintro (hover | ⟨mid, hmid, hrest⟩)
        · omega
        · rwa [ih, hmid.newQuanta, hmid.deletedQuanta] at hrest
      · intro hover
        -- Either this asset leaves a word, or one after it does.
        by_cases hone : 2 ^ 32 ≤ model.newQuanta.toNat + asset.newRows config ∨
            2 ^ 32 ≤ model.deletedQuanta.toNat + asset.deletedRows config
        · exact Or.inl hone
        · rw [not_or, not_le, not_le] at hone
          obtain ⟨new, -, hnew⟩ := exists_word32 hone.1
          obtain ⟨deleted, -, hdeleted⟩ := exists_word32 hone.2
          refine Or.inr ⟨⟨_, _, model.resultBytes, new, deleted⟩, ⟨rfl, rfl, rfl, hnew, hdeleted⟩, ?_⟩
          rwa [ih, hnew, hdeleted]

end

/-! ## Operations -/

/-- Rows that are added up leave their word where one of them cannot be had, or where their
    sum does, or after. -/
theorem panics_sum_mapM {α β : Type} {f : α → Result UInt32} {p : α → Prop} {g : α → ℕ}
    (h : ∀ {as : List α} {words : List UInt32}, as.mapM f = .ok words ↔
      (∀ a ∈ as, p a) ∧ words.map UInt32.toNat = as.map g) (hf : ∀ a, Checked (f a))
    {as : List α} (before : List UInt32) {next : UInt32 → Result β} :
    Panics (do let words ← as.mapM f
               let sum ← sumU32 (before ++ words)
               next sum) ↔
      (¬∀ a ∈ as, p a) ∨ 2 ^ 32 ≤ (before.map UInt32.toNat).sum + (as.map g).sum ∨
        (∀ a ∈ as, p a) ∧ ∃ sum : UInt32,
          sum.toNat = (before.map UInt32.toNat).sum + (as.map g).sum ∧ Panics (next sum) := by
  have hsum {words : List UInt32} (hwords : words.map UInt32.toNat = as.map g) :
      ((before ++ words).map UInt32.toNat).sum =
        (before.map UInt32.toNat).sum + (as.map g).sum := by
    rw [List.map_append, List.sum_append, hwords]
  rw [panics_bind, (Checked.mapM hf as).panics_iff]
  by_cases hp : ∀ a ∈ as, p a
  · have hwords_iff (words : List UInt32) : as.mapM f = .ok words ↔
        words.map UInt32.toNat = as.map g := h.trans (and_iff_right hp)
    simp only [hwords_iff]
    rw [or_iff_right (not_not.2 hp), and_iff_right hp]
    by_cases hlt : 2 ^ 32 ≤ (before.map UInt32.toNat).sum + (as.map g).sum
    · refine iff_of_true ?_ (Or.inl hlt)
      -- The rows panic themselves, or are there and their sum panics.
      by_cases hwords : ∃ words : List UInt32, words.map UInt32.toNat = as.map g
      · obtain ⟨words, hwords⟩ := hwords
        exact Or.inr ⟨words, hwords, panics_bind.2 (Or.inl (panics_sumU32.2 (hsum hwords ▸ hlt)))⟩
      · exact Or.inl hwords
    · have hfit (n : ℕ) (hn : n ∈ as.map g) : n < 2 ^ 32 := by
        have := List.le_sum_of_mem hn
        omega
      obtain ⟨words, hwords⟩ := exists_words hfit
      rw [or_iff_right (not_not.2 ⟨words, hwords⟩), or_iff_right hlt]
      constructor
      · rintro ⟨words', hwords', hpanics⟩
        rw [panics_bind, panics_sumU32, hsum hwords', or_iff_right hlt] at hpanics
        obtain ⟨sum, hsum', hpanics⟩ := hpanics
        exact ⟨sum, (sumU32_eq_ok.1 hsum').trans (hsum hwords'), hpanics⟩
      · rintro ⟨sum, hsum', hpanics⟩
        exact ⟨words, hwords, panics_bind.2 (Or.inr ⟨sum, sumU32_eq_ok.2 (hsum'.trans
          (hsum hwords).symm), hpanics⟩)⟩
  · refine iff_of_true (Or.inl ?_) (Or.inl hp)
    rintro ⟨words, hwords⟩
    exact hp (h.1 hwords).1

/-- What leaves its word after a sum does so whether the sum is had or not. -/
theorem or_exists_sum_iff {p q : Prop} {n : ℕ} :
    (¬p ∨ 2 ^ 32 ≤ n ∨ p ∧ ∃ sum : UInt32, sum.toNat = n ∧ q) ↔ ¬p ∨ 2 ^ 32 ≤ n ∨ q := by
  by_cases hp : p
  · by_cases hn : 2 ^ 32 ≤ n
    · exact iff_of_true (Or.inr (Or.inl hn)) (Or.inr (Or.inl hn))
    · obtain ⟨sum, -, hsum⟩ := exists_word32 (not_le.1 hn)
      rw [or_iff_right hn, or_iff_right hn, and_iff_right hp]
      exact or_congr_right ⟨fun ⟨_, _, hq⟩ => hq, fun hq => ⟨sum, hsum, hq⟩⟩
  · exact iff_of_true (Or.inl hp) (Or.inl hp)

namespace NativeFeePart

variable (config : GasConfig) (part : NativeFeePart)

/-- The assets the operation returns. -/
def assets : List InfusedAsset :=
  if part.kind = .burnNonFungible then part.params.infusions.getD [] else []

/-- The rows the operation creates, those of returned assets included. -/
def totalNewRows : ℕ :=
  part.newRows config + (part.assets.map (InfusedAsset.newRows config)).sum

/-- The rows the operation deletes, those of returned assets included. -/
def totalDeletedRows : ℕ :=
  part.deletedRows + (part.assets.map (InfusedAsset.deletedRows config)).sum

/-- The sizes of the instances are such as the calculator takes. -/
def Sized : Prop :=
  SizedFor part.params.romBytes part.instances ∧ SizedFor part.params.ramBytes part.instances

/-- A row of an instance is of more bytes than a word counts, where the ROM is stored
    in so many. -/
def RowOverflows (stored : ℕ → ℕ) : Prop :=
  ∃ sizes ∈ part.instanceSizes, 2 ^ 32 ≤ stored sizes.1.toNat ∨ 2 ^ 32 ≤ 17 + sizes.2.toNat

/-- A sum of rows or bytes leaves its word before the operation is refused. -/
def Overflows : Prop :=
  part.instances ≠ 0 ∧
  match part.kind with
  | .transferNonFungible => 2 ^ 32 ≤ part.newRows config
  | .mintNonFungible => part.Sized ∧ (part.RowOverflows (62 + ·) ∨ 2 ^ 32 ≤ part.newRows config ∨
      2 ^ 32 ≤ part.resultSize)
  | .mintPhantasmaNonFungible => part.Sized ∧ (part.RowOverflows (98 + 2 * ·) ∨
      2 ^ 32 ≤ part.newRows config ∨
      ((part.params.duplicatedSeries.getD true → 1 ≤ part.params.distinctSeriesCount.getD 1 ∧
        part.params.distinctSeriesCount.getD 1 ≤ part.instances) ∧ 2 ^ 32 ≤ part.resultSize))
  | .burnNonFungible => part.Sized ∧ (part.RowOverflows (62 + ·) ∨ 2 ^ 32 ≤ part.deletedRows ∨
      2 ^ 32 ≤ ((heldBefore part.assets).map (InfusedAsset.newRows config)).sum ∨
      2 ^ 32 ≤ ((heldBefore part.assets).map (InfusedAsset.deletedRows config)).sum ∨
      ((∀ asset ∈ part.assets, ¬asset.Refused) ∧
        (2 ^ 32 ≤ part.totalNewRows config ∨ 2 ^ 32 ≤ part.totalDeletedRows config)))
  | .createToken => LengthAdmitted part.params.symbolLength config.maxTokenSymbolLength ∧
      2 ^ 32 ≤ 9 + part.params.tokenInfoBytes.toNat
  | .createTokenSeries => 2 ^ 32 ≤ 13 + part.params.seriesInfoBytes.toNat
  | _ => False

variable {config part}

theorem rowOverflows_iff {stored : ℕ → ℕ} : part.RowOverflows stored ↔
    ¬∀ sizes ∈ part.instanceSizes, stored sizes.1.toNat < 2 ^ 32 ∧
      (sizes.2.toNat ≠ 0 → 17 + sizes.2.toNat < 2 ^ 32) := by
  rw [RowOverflows]
  push Not
  refine exists_congr fun sizes => and_congr_right fun _ => ?_
  omega

theorem panics_transferNonFungible (hkind : part.kind = .transferNonFungible) :
    Panics (operationModel part.kind config part.params part.instances) ↔
      2 ^ 32 ≤ part.newRows config := by
  obtain ⟨kind, params⟩ := part
  cases hkind
  rw [operationModel, panics_bind, panics_sumU32, sum_pair, toNat_quantum]
  simp only [not_panics_pure, and_false, exists_false, or_false]
  rfl

/-- The rows of instances, on top of those of the token. -/
theorem newRows_sum (rows : List ℕ) (recipient burnt : Bool) :
    ([quantum recipient, quantum burnt].map UInt32.toNat).sum + rows.sum =
      recipient.toNat + burnt.toNat + rows.sum := by
  rw [sum_pair, toNat_quantum, toNat_quantum]

theorem panics_mintNonFungible (hkind : part.kind = .mintNonFungible) :
    Panics (operationModel part.kind config part.params part.instances) ↔ part.Sized ∧
      (part.RowOverflows (62 + ·) ∨ 2 ^ 32 ≤ part.newRows config ∨
        2 ^ 32 ≤ part.resultSize) := by
  rw [rowOverflows_iff]
  obtain ⟨kind, params⟩ := part
  cases hkind
  rw [operationModel, panics_perInstance_bind, panics_perInstance_bind, ← and_assoc]
  refine and_congr_right fun _ =>
    (panics_sum_mapM instanceRows_mapM_eq_ok (fun _ => checked_instanceRows _ _ _) [_, _]).trans ?_
  simp only [panics_bind, panics_u32, not_panics_pure, and_false, exists_false, or_false]
  rw [newRows_sum, or_exists_sum_iff]
  rfl

theorem panics_mintPhantasmaNonFungible (hkind : part.kind = .mintPhantasmaNonFungible) :
    Panics (operationModel part.kind config part.params part.instances) ↔ part.Sized ∧
      (part.RowOverflows (98 + 2 * ·) ∨ 2 ^ 32 ≤ part.newRows config ∨
        ((part.params.duplicatedSeries.getD true → 1 ≤ part.params.distinctSeriesCount.getD 1 ∧
          part.params.distinctSeriesCount.getD 1 ≤ part.instances) ∧
            2 ^ 32 ≤ part.resultSize)) := by
  rw [rowOverflows_iff]
  obtain ⟨kind, params⟩ := part
  cases hkind
  have hqueries : ¬Panics (if params.duplicatedSeries.getD true = true then (do
      let distinct ← distinctSeries params (params.count.getD 1)
      pure distinct.toUInt64) else pure 0 : Result UInt64) := by
    split
    · rw [panics_bind, or_iff_right (not_panics_distinctSeries _ _)]
      exact fun ⟨_, _, h⟩ => not_panics_pure _ h
    · exact not_panics_pure _
  rw [operationModel, panics_perInstance_bind, panics_perInstance_bind, ← and_assoc]
  refine and_congr_right fun _ =>
    (panics_sum_mapM phantasmaRows_mapM_eq_ok (fun _ =>
      (checked_phantasmaCanonicalRomBytes _).bind fun _ => checked_instanceRows _ _ _) [_, _]).trans ?_
  -- What follows the rows: the series, which may be refused, then the bytes.
  have hrest (f : UInt64 → UInt32 → OperationModel) :
      Panics (do
        let queries ← (if params.duplicatedSeries.getD true = true then (do
          let distinct ← distinctSeries params (params.count.getD 1)
          pure distinct.toUInt64) else pure 0 : Result UInt64)
        let result ← u32 (4 + 40 * (params.count.getD 1).toNat)
        pure (f queries result) : Result OperationModel) ↔
      (params.duplicatedSeries.getD true → 1 ≤ params.distinctSeriesCount.getD 1 ∧
        params.distinctSeriesCount.getD 1 ≤ params.count.getD 1) ∧
          2 ^ 32 ≤ 4 + 40 * (params.count.getD 1).toNat := by
    rw [panics_bind, or_iff_right hqueries]
    simp only [seriesQueries_eq_ok, panics_bind, panics_u32, not_panics_pure, and_false,
      exists_false, or_false, and_assoc, exists_and_left, exists_eq_left]
  refine (or_congr_right (or_congr_right (and_congr_right fun _ =>
    exists_congr fun sum => and_congr_right fun _ => hrest _))).trans ?_
  rw [newRows_sum, or_exists_sum_iff]
  rfl

theorem panics_returnedAssets (params : NativeFeeParams) :
    Panics (returnedAssets params config) ↔
      2 ^ 32 ≤ ((heldBefore (params.infusions.getD [])).map (InfusedAsset.newRows config)).sum ∨
        2 ^ 32 ≤
          ((heldBefore (params.infusions.getD [])).map (InfusedAsset.deletedRows config)).sum := by
  rw [returnedAssets, panics_foldlM_returnedAsset, UInt32.toNat_zero, Nat.zero_add, Nat.zero_add]

theorem returnedAssets_eq_ok {params : NativeFeeParams} {returned : OperationModel} :
    returnedAssets params config = .ok returned ↔
      (∀ asset ∈ params.infusions.getD [], ¬asset.Refused) ∧ returned.Is
        (clamp64 ((params.infusions.getD []).map (InfusedAsset.work config)).sum) 0 0
        ((params.infusions.getD []).map (InfusedAsset.newRows config)).sum
        ((params.infusions.getD []).map (InfusedAsset.deletedRows config)).sum := by
  rw [returnedAssets, foldlM_returnedAsset_eq_ok, UInt32.toNat_zero, Nat.zero_add, Nat.zero_add,
    zero_satAdd64]

theorem heldBefore_eq_self {assets : List InfusedAsset} (h : ∀ asset ∈ assets, ¬asset.Refused) :
    heldBefore assets = assets :=
  List.takeWhile_eq_self_iff.2 fun asset hmem => by simpa using h asset hmem

/-- What follows the rows of a burn: the returned assets, and the sums with them. -/
theorem panics_returned (params : NativeFeeParams) (burnt supply : Bool) (sum : UInt32)
    (f : OperationModel → UInt32 → UInt32 → OperationModel) :
    Panics (do let returned ← returnedAssets params config
               let new ← sumU32 [quantum burnt, quantum supply, returned.newQuanta]
               let deleted ← sumU32 [sum, returned.deletedQuanta]
               pure (f returned new deleted) : Result OperationModel) ↔
      2 ^ 32 ≤ ((heldBefore (params.infusions.getD [])).map (InfusedAsset.newRows config)).sum ∨
        2 ^ 32 ≤
          ((heldBefore (params.infusions.getD [])).map (InfusedAsset.deletedRows config)).sum ∨
        ((∀ asset ∈ params.infusions.getD [], ¬asset.Refused) ∧
          (2 ^ 32 ≤ burnt.toNat + supply.toNat +
              ((params.infusions.getD []).map (InfusedAsset.newRows config)).sum ∨
            2 ^ 32 ≤ sum.toNat +
              ((params.infusions.getD []).map (InfusedAsset.deletedRows config)).sum)) := by
  rw [panics_bind, panics_returnedAssets, or_assoc]
  simp only [panics_sumU32_rows, returnedAssets_eq_ok, sum_triple, sum_pair, toNat_quantum,
    ← Nat.add_assoc]
  refine or_congr_right' fun hnew => or_congr_right' fun hdeleted => ?_
  constructor
  · rintro ⟨returned, ⟨hall, hreturned⟩, hover⟩
    rw [hreturned.newQuanta, hreturned.deletedQuanta] at hover
    exact ⟨hall, hover⟩
  · rintro ⟨hall, hover⟩
    rw [heldBefore_eq_self hall, not_le] at hnew hdeleted
    obtain ⟨new, -, hnew⟩ := exists_word32 hnew
    obtain ⟨deleted, -, hdeleted⟩ := exists_word32 hdeleted
    refine ⟨⟨_, _, 0, new, deleted⟩, ⟨hall, rfl, rfl, rfl, hnew, hdeleted⟩, ?_⟩
    rwa [hnew, hdeleted]

theorem panics_burnNonFungible (hkind : part.kind = .burnNonFungible) :
    Panics (operationModel part.kind config part.params part.instances) ↔ part.Sized ∧
      (part.RowOverflows (62 + ·) ∨ 2 ^ 32 ≤ part.deletedRows ∨
        2 ^ 32 ≤ ((heldBefore part.assets).map (InfusedAsset.newRows config)).sum ∨
        2 ^ 32 ≤ ((heldBefore part.assets).map (InfusedAsset.deletedRows config)).sum ∨
        ((∀ asset ∈ part.assets, ¬asset.Refused) ∧
          (2 ^ 32 ≤ part.totalNewRows config ∨ 2 ^ 32 ≤ part.totalDeletedRows config))) := by
  rw [rowOverflows_iff]
  obtain ⟨kind, params⟩ := part
  cases hkind
  rw [operationModel, panics_perInstance_bind, panics_perInstance_bind, ← and_assoc]
  refine and_congr_right fun _ =>
    (panics_sum_mapM instanceRows_mapM_eq_ok (fun _ => checked_instanceRows _ _ _) []).trans ?_
  simp only [List.map_nil, List.sum_nil, Nat.zero_add]
  refine (or_congr_right (or_congr_right (and_congr_right fun _ => exists_congr fun sum =>
    and_congr_right fun hsum => (panics_returned params _ _ sum _).trans ?_))).trans or_exists_sum_iff
  rw [hsum]
  rfl

theorem panics_createToken (hkind : part.kind = .createToken) :
    Panics (operationModel part.kind config part.params part.instances) ↔
      LengthAdmitted part.params.symbolLength config.maxTokenSymbolLength ∧
        2 ^ 32 ≤ 9 + part.params.tokenInfoBytes.toNat := by
  obtain ⟨kind, params⟩ := part
  cases hkind
  have hkey : tokenInfoKeyBytes.toNat = 9 := rfl
  have hqueries : ([quantum params.hasStakingOrganisation,
      quantum params.hasStakingRewardToken].map UInt32.toNat).sum < 2 ^ 32 := by
    have := Bool.toNat_le params.hasStakingOrganisation
    have := Bool.toNat_le params.hasStakingRewardToken
    rw [sum_pair, toNat_quantum, toNat_quantum]
    omega
  simp only [operationModel, panics_bind, not_panics_symbolShift, symbolShift_eq_ok, false_or,
    panics_u32, u32_eq_ok, panics_sumU32, not_panics_pure, and_false, exists_false, or_false,
    not_le.2 hqueries, createToken_sum, toNat_storageQuantaFor, hkey, and_assoc, exists_and_left,
    exists_eq_left]
  refine and_congr_right fun _ => or_iff_left ?_
  rintro ⟨infoRow, -, hover⟩
  have hlt := infoRow.toNat_lt
  have := Bool.toNat_le (decide (0 < params.symbolLength))
  have := Bool.toNat_le params.nonFungible
  have := Bool.toNat_le params.hasPreBurn
  have := Bool.toNat_le params.hasInflationSchedule
  rw [rowQuanta] at hover
  omega

theorem panics_createTokenSeries (hkind : part.kind = .createTokenSeries) :
    Panics (operationModel part.kind config part.params part.instances) ↔
      2 ^ 32 ≤ 13 + part.params.seriesInfoBytes.toNat := by
  obtain ⟨kind, params⟩ := part
  cases hkind
  have hkey : seriesInfoKeyBytes.toNat = 13 := rfl
  simp only [operationModel, panics_bind, panics_u32, u32_eq_ok, panics_sumU32, not_panics_pure,
    and_false, exists_false, or_false, createTokenSeries_sum, toNat_storageQuantaFor, hkey]
  refine or_iff_left ?_
  rintro ⟨infoRow, -, hover⟩
  have hlt := infoRow.toNat_lt
  have := Bool.toNat_le (params.seriesHasMetaId.getD true)
  rw [rowQuanta] at hover
  omega

theorem not_panics_quanta (a b : Bool) (f : UInt32 → OperationModel) :
    ¬Panics (do let new ← sumU32 [quantum a, quantum b]
                pure (f new) : Result OperationModel) := by
  have := Bool.toNat_le a
  have := Bool.toNat_le b
  rw [panics_bind, panics_sumU32, sum_pair, toNat_quantum, toNat_quantum,
    or_iff_right (not_le.2 (by omega))]
  exact fun ⟨_, _, h⟩ => not_panics_pure _ h

/-- Where the calculator leaves a word over one operation. -/
theorem panics_partModel : Panics (partModel config part) ↔ part.Overflows config := by
  rw [Overflows]
  by_cases h0 : part.instances = 0
  · have hrefused : partModel config part =
        builder "estimate_native_fee: count must be a positive integer" := if_pos h0
    rw [hrefused]
    exact iff_of_false (not_panics_builder _) fun h => h.1 h0
  have hmodel : partModel config part =
      operationModel part.kind config part.params part.instances := if_neg h0
  rw [hmodel, and_iff_right h0]
  obtain ⟨kind, params⟩ := part
  cases kind with
  | transferNonFungible => exact panics_transferNonFungible rfl
  | mintNonFungible => exact panics_mintNonFungible rfl
  | mintPhantasmaNonFungible => exact panics_mintPhantasmaNonFungible rfl
  | burnNonFungible => exact panics_burnNonFungible rfl
  | createToken => exact panics_createToken rfl
  | createTokenSeries => exact panics_createTokenSeries rfl
  | transferFungible | script => exact iff_of_false (not_panics_pure _) id
  | mintFungible | burnFungible => exact iff_of_false (not_panics_quanta _ _ _) id
  | registerName =>
    rw [operationModel]
    refine iff_of_false ?_ id
    split
    · exact not_panics_builder _
    · rw [panics_bind, or_iff_right (not_panics_symbolShift _ _ _)]
      rintro ⟨_, _, h⟩
      exact not_panics_pure _ h

/-! ## Exact costs -/

variable (config part)

/-- The fee of a token, for its symbol and apart from it. -/
def exactTokenFee : ℕ :=
  let v2 := config.hasGasModelV2
  (if v2 then config.policyFeeCreateTokenBase else config.gasFeeCreateTokenBase).toNat +
    if 0 < part.params.symbolLength then
      (if v2 then config.policyFeeCreateTokenSymbol else config.gasFeeCreateTokenSymbol).toNat >>>
        (shiftFor part.params.symbolLength).toNat
    else 0

/-- The work of the operation, that of returning assets included. -/
def exactWork : ℕ :=
  let infusionQuery := if part.params.toIsNftAddress then config.gasFeeQuery.toNat else 0
  let transfer := config.gasFeeTransfer.toNat
  let query := config.gasFeeQuery.toNat
  let count := part.instances.toNat
  match part.kind with
  | .transferFungible | .mintFungible => transfer + infusionQuery
  | .transferNonFungible | .mintNonFungible => transfer * count + infusionQuery
  | .burnFungible => transfer
  | .mintPhantasmaNonFungible =>
    let duplicatedSeries := part.params.duplicatedSeries.getD true
    (transfer + query * if duplicatedSeries then 3 else 2) * count +
      query * (if duplicatedSeries then (part.params.distinctSeriesCount.getD 1).toNat else 0) +
      infusionQuery
  | .burnNonFungible =>
    (transfer + query * 2) * count + (part.assets.map (InfusedAsset.work config)).sum
  | .createToken =>
    let queries := query * (part.params.hasStakingOrganisation.toNat +
      part.params.hasStakingRewardToken.toNat)
    if config.hasGasModelV2 then queries else part.exactTokenFee config + queries
  | .createTokenSeries =>
    if config.hasGasModelV2 then 0 else config.gasFeeCreateTokenSeries.toNat
  | .registerName => if config.hasGasModelV2 then 0
      else config.gasFeeRegisterName.toNat >>> (shiftFor part.params.nameLength).toNat
  | .script => (part.params.scriptUnitsAllowance.getD defaultScriptUnitsAllowance).toNat

/-- The policy fee of the operation. -/
def exactPolicy : ℕ :=
  match part.kind with
  | .createToken => if config.hasGasModelV2 then part.exactTokenFee config else 0
  | .createTokenSeries =>
    if config.hasGasModelV2 then config.policyFeeCreateTokenSeries.toNat else 0
  | .registerName => if config.hasGasModelV2 then
      config.policyFeeRegisterName.toNat >>> (shiftFor part.params.nameLength).toNat else 0
  | _ => 0

variable {config part}

/-- A price that is halved by the length of a name the chain admits. -/
theorem shiftRight_shiftFor {length : UInt32} {maxLength : UInt8}
    (h : LengthAdmitted length maxLength) (price : UInt64) :
    (price >>> (shiftFor length).toUInt64).toNat = price.toNat >>> (shiftFor length).toNat := by
  have hlong := UInt32.le_iff_toNat_le.1 (le_of_lengthAdmitted h)
  have hmax : maxPriceableLength.toNat = 64 := rfl
  have hshift : (shiftFor length).toNat < 64 := by
    rw [shiftFor]
    split
    · decide
    next h0 =>
      have hpos : length.toNat ≠ 0 := fun h => h0 (UInt32.toNat_inj.1 h)
      have hone : (1 : UInt32).toNat = 1 := rfl
      have hle : (1 : UInt32) ≤ length := UInt32.le_iff_toNat_le.2 (by omega)
      rw [UInt32.toNat_sub_of_le _ _ hle]
      omega
  rw [UInt64.toNat_shiftRight, UInt32.toNat_toUInt64, Nat.mod_eq_of_lt hshift]

theorem tokenFee_eq (h : LengthAdmitted part.params.symbolLength config.maxTokenSymbolLength) :
    part.tokenFee config = clamp64 (part.exactTokenFee config) := by
  simp only [tokenFee, exactTokenFee, satAdd64_eq, decide_eq_true_eq]
  rw [apply_ite UInt64.toNat (0 < part.params.symbolLength), shiftRight_shiftFor h]
  rfl

/-- What an operation that is not refused costs, clamped. -/
theorem work_eq (h : part.Admitted config) {returned : OperationModel}
    (hreturned : returned.workUnits = clamp64 (part.assets.map (InfusedAsset.work config)).sum) :
    part.work config returned = clamp64 (part.exactWork config) := by
  obtain ⟨-, h⟩ := h
  have hzero : clamp64 0 = 0 := rfl
  have hinfusion : (if part.params.toIsNftAddress then config.gasFeeQuery else 0).toNat =
      if part.params.toIsNftAddress then config.gasFeeQuery.toNat else 0 := apply_ite _ _ _ _
  obtain ⟨kind, params⟩ := part
  cases kind with
  | transferFungible | mintFungible =>
    simp only [work, exactWork, satAdd64_eq, hinfusion]
  | transferNonFungible | mintNonFungible =>
    simp only [work, exactWork, satAdd64_eq, satMul64_eq, clamp64_add_left, hinfusion,
      UInt32.toNat_toUInt64]
  | burnFungible => simp only [work, exactWork, clamp64_toNat]
  | mintPhantasmaNonFungible =>
    simp only [work, exactWork, satAdd64_eq, satMul64_eq, clamp64_add_left, clamp64_add_right,
      clamp64_mul_left, hinfusion, UInt32.toNat_toUInt64]
    split <;> rfl
  | burnNonFungible =>
    have htwo : (2 : UInt64).toNat = 2 := rfl
    simp only [work, exactWork, satAdd64_eq, satMul64_eq, hreturned, clamp64_add_left,
      clamp64_add_right, clamp64_mul_left, htwo, UInt32.toNat_toUInt64]
  | createToken =>
    have hqueries : (quantum params.hasStakingOrganisation +
        quantum params.hasStakingRewardToken).toUInt64.toNat =
        params.hasStakingOrganisation.toNat + params.hasStakingRewardToken.toNat := by
      cases params.hasStakingOrganisation <;> cases params.hasStakingRewardToken <;> rfl
    simp only [work, exactWork, tokenFee_eq h.1, satMul64_eq, satAdd64_clamp64, hqueries]
    split <;> rfl
  | createTokenSeries =>
    simp only [work, exactWork]
    split
    · exact hzero.symm
    · rw [clamp64_toNat]
  | registerName =>
    simp only [work, exactWork]
    split
    · exact hzero.symm
    · rw [← shiftRight_shiftFor h.2, clamp64_toNat]
  | script => simp only [work, exactWork, clamp64_toNat]

theorem policy_eq (h : part.Admitted config) :
    part.policy config = clamp64 (part.exactPolicy config) := by
  obtain ⟨-, h⟩ := h
  have hzero : clamp64 0 = 0 := rfl
  obtain ⟨kind, params⟩ := part
  cases kind with
  | createToken =>
    simp only [policy, exactPolicy]
    split
    · exact tokenFee_eq h.1
    · exact hzero.symm
  | createTokenSeries =>
    simp only [policy, exactPolicy]
    split
    · rw [clamp64_toNat]
    · exact hzero.symm
  | registerName =>
    simp only [policy, exactPolicy]
    split
    · rw [← shiftRight_shiftFor h.2, clamp64_toNat]
    · exact hzero.symm
  | _ => exact hzero.symm

theorem returned_eq_ok {returned : OperationModel} : part.returned config = .ok returned ↔
    (∀ asset ∈ part.assets, ¬asset.Refused) ∧ returned.Is
      (clamp64 (part.assets.map (InfusedAsset.work config)).sum) 0 0
      (part.assets.map (InfusedAsset.newRows config)).sum
      (part.assets.map (InfusedAsset.deletedRows config)).sum := by
  rw [NativeFeePart.returned, assets]
  split
  · exact returnedAssets_eq_ok
  · exact pure_model_eq_ok.trans (and_iff_right (by simp)).symm

variable (config part) in
/-- The calculator prices the operation. -/
structure Fits : Prop where
  admitted : part.Admitted config
  assets : ∀ asset ∈ part.assets, ¬asset.Refused
  newRows : part.totalNewRows config < 2 ^ 32
  deletedRows : part.totalDeletedRows config < 2 ^ 32
  resultSize : part.resultSize < 2 ^ 32

/-- An operation that is priced costs what it does exactly, its gas clamped. -/
theorem partModel_eq_ok_exact {model : OperationModel} : partModel config part = .ok model ↔
    part.Admitted config ∧ (∀ asset ∈ part.assets, ¬asset.Refused) ∧
      model.Is (clamp64 (part.exactWork config)) (clamp64 (part.exactPolicy config))
        part.resultSize (part.totalNewRows config) (part.totalDeletedRows config) := by
  rw [partModel_eq_ok]
  refine and_congr_right fun hadmitted => ?_
  simp only [returned_eq_ok]
  constructor
  · rintro ⟨returned, ⟨hassets, hreturned⟩, h⟩
    rw [work_eq hadmitted hreturned.workUnits, policy_eq hadmitted, hreturned.newQuanta,
      hreturned.deletedQuanta] at h
    exact ⟨hassets, h⟩
  · rintro ⟨hassets, h⟩
    have hnewlt := model.newQuanta.toNat_lt
    have hdeletedlt := model.deletedQuanta.toNat_lt
    rw [h.newQuanta, totalNewRows] at hnewlt
    rw [h.deletedQuanta, totalDeletedRows] at hdeletedlt
    obtain ⟨new, -, hnew⟩ := exists_word32
      (n := (part.assets.map (InfusedAsset.newRows config)).sum) (by omega)
    obtain ⟨deleted, -, hdeleted⟩ := exists_word32
      (n := (part.assets.map (InfusedAsset.deletedRows config)).sum) (by omega)
    refine ⟨⟨_, _, 0, new, deleted⟩, ⟨hassets, rfl, rfl, rfl, hnew, hdeleted⟩, ?_⟩
    rw [work_eq hadmitted rfl, policy_eq hadmitted, hnew, hdeleted]
    exact h

theorem exists_partModel_iff_fits :
    (∃ model, partModel config part = .ok model) ↔ part.Fits config := by
  simp only [partModel_eq_ok_exact]
  constructor
  · rintro ⟨model, hadmitted, hassets, h⟩
    exact ⟨hadmitted, hassets, h.newQuanta ▸ model.newQuanta.toNat_lt,
      h.deletedQuanta ▸ model.deletedQuanta.toNat_lt, h.resultBytes ▸ model.resultBytes.toNat_lt⟩
  · rintro ⟨hadmitted, hassets, hnew, hdeleted, hresult⟩
    obtain ⟨new, -, hnew⟩ := exists_word32 hnew
    obtain ⟨deleted, -, hdeleted⟩ := exists_word32 hdeleted
    obtain ⟨result, -, hresult⟩ := exists_word32 hresult
    exact ⟨⟨_, _, result, new, deleted⟩, hadmitted, hassets, rfl, rfl, hresult, hnew, hdeleted⟩

end NativeFeePart

/-! ## Batches -/

/-- A list is not had where one of its elements panics after all before it are had. -/
theorem panics_mapM {α β : Type} {f : α → Result β} {as : List α} : Panics (as.mapM f) ↔
    ∃ before a after, as = before ++ a :: after ∧ (∀ a' ∈ before, ∃ b, f a' = .ok b) ∧
      Panics (f a) := by
  induction as with
  | nil =>
    refine iff_of_false (not_panics_pure _) ?_
    rintro ⟨before, a, after, h, -⟩
    simp at h
  | cons a as ih =>
    rw [List.mapM_cons, panics_bind]
    constructor
    · rintro (h | ⟨b, hb, h⟩)
      · exact ⟨[], a, as, rfl, by simp, h⟩
      · rw [panics_bind] at h
        obtain ⟨before, a', after, rfl, hbefore, ha'⟩ :=
          ih.1 (h.resolve_right fun ⟨_, _, h⟩ => not_panics_pure _ h)
        exact ⟨a :: before, a', after, rfl, List.forall_mem_cons.2 ⟨⟨b, hb⟩, hbefore⟩, ha'⟩
    · rintro ⟨before, a', after, h, hbefore, ha'⟩
      cases before with
      | nil =>
        obtain ⟨rfl, -⟩ := List.cons_eq_cons.1 h
        exact Or.inl ha'
      | cons a'' before =>
        obtain ⟨rfl, rfl⟩ := List.cons_eq_cons.1 h
        obtain ⟨⟨b, hb⟩, hbefore⟩ := List.forall_mem_cons.1 hbefore
        exact Or.inr ⟨b, hb, panics_bind.2 (Or.inl (ih.2 ⟨before, a', after, rfl, hbefore, ha'⟩))⟩

/-- A sum of rows or bytes leaves its word before an operation is refused. -/
def Overflowing (config : GasConfig) (parts : List NativeFeePart) : Prop :=
  ∃ before part after, parts = before ++ part :: after ∧ (∀ part' ∈ before, part'.Fits config) ∧
    part.Overflows config

/-- The exact costs of some operations. -/
structure ExactCosts where
  work : ℕ
  policy : ℕ
  result : ℕ
  new : ℕ
  deleted : ℕ

/-- The sums of what the operations cost, each clamped to its type. -/
def exactCosts (config : GasConfig) (parts : List NativeFeePart) : ExactCosts where
  work := min (parts.map (NativeFeePart.exactWork config)).sum (2 ^ 64 - 1)
  policy := min (parts.map (NativeFeePart.exactPolicy config)).sum (2 ^ 64 - 1)
  result := min (parts.map NativeFeePart.resultSize).sum (2 ^ 32 - 1)
  new := min (parts.map (NativeFeePart.totalNewRows config)).sum (2 ^ 32 - 1)
  deleted := min (parts.map (NativeFeePart.totalDeletedRows config)).sum (2 ^ 32 - 1)

/-- Gas, scaled as the chain does. -/
def exactScaled (config : GasConfig) (value : ℕ) : ℕ :=
  if 64 ≤ config.feeShift then 0
  else min (value * config.feeMultiplier.toNat / 2 ^ config.feeShift.toNat) (2 ^ 64 - 1)

/-- The bill and the offer, as numbers that keep to their type. -/
def exactBill (config : GasConfig) (transaction : NativeFeeTransactionParams)
    (costs : ExactCosts) : ℕ × ℕ :=
  let net := costs.new - costs.deleted
  if config.hasGasModelV2 then
    let bytes := transaction.envelopeBytes.toNat + net + costs.result
    let charged := exactScaled config (min (costs.work + bytes * 25) (2 ^ 64 - 1))
    let expected := max (min (charged + costs.policy) (2 ^ 64 - 1)) config.minimumGasBill.toNat
    (expected, max expected config.minimumGasOffer.toNat)
  else
    let bytes := transaction.payloadBytes.toNat + costs.result + net
    let charged := exactScaled config costs.work
    (min (charged + bytes * config.gasFeePerByte.toNat) (2 ^ 64 - 1),
      min (config.minimumGasOffer.toNat * 2 + charged +
        max bytes 1024 * config.gasFeePerByte.toNat) (2 ^ 64 - 1))

/-- The estimate is what the exact costs come to. -/
structure NativeFeeEstimate.IsExact (estimate : NativeFeeEstimate) (config : GasConfig)
    (transaction : NativeFeeTransactionParams) (costs : ExactCosts) : Prop where
  expectedGasBill : estimate.expectedGasBill.toNat = (exactBill config transaction costs).1
  maxGas : estimate.maxGas.toNat = (exactBill config transaction costs).2
  maxData : estimate.maxData.toNat =
    min (costs.new * config.dataEscrowPerRow.toNat) (2 ^ 64 - 1)
  newStorageQuanta : estimate.newStorageQuanta.toNat = costs.new
  deletedStorageQuanta : estimate.deletedStorageQuanta.toNat = costs.deleted

theorem toNat_mulShift_eq (config : GasConfig) (value : UInt64) :
    (mulShift value config.feeMultiplier config.feeShift).toNat =
      exactScaled config value.toNat := by
  rw [mulShift, exactScaled]
  split
  · rfl
  · rw [toNat_clamp64, Nat.shiftRight_eq_div_pow]

/-- The total is made of these costs. -/
structure OperationModel.Costs (total : OperationModel) (costs : ExactCosts) : Prop where
  work : total.workUnits.toNat = costs.work
  policy : total.policyFee.toNat = costs.policy
  result : total.resultBytes.toNat = costs.result
  new : total.newQuanta.toNat = costs.new
  deleted : total.deletedQuanta.toNat = costs.deleted

section

variable {total : OperationModel} {config : GasConfig} {costs : ExactCosts}

theorem settleV2_exact (h : total.Costs costs) (hv : config.hasGasModelV2 = true)
    {transaction : NativeFeeTransactionParams} {bill : UInt64 × UInt64}
    (hbill : settleV2 total config transaction.envelopeBytes = .ok bill) :
    (bill.1.toNat, bill.2.toNat) = exactBill config transaction costs := by
  rcases ite_eq_iff.1 hbill with ⟨-, hbill⟩ | ⟨-, hbill⟩
  · cases hbill
  have hunits : gasModelV2UnitsPerBlockDataByte.toNat = 25 := rfl
  have hsum (work bytes : ℕ) : min (work + min (bytes * 25) (2 ^ 64 - 1)) (2 ^ 64 - 1) =
      min (work + bytes * 25) (2 ^ 64 - 1) := by omega
  rw [← Except.ok.inj hbill, exactBill, if_pos hv]
  simp only [toNat_max64, toNat_satAdd64, toNat_satMul64, toNat_mulShift_eq, toNat_sum_toUInt64,
    toNat_satSub32, hunits, hsum, h.work, h.policy, h.result, h.new, h.deleted]

theorem settleV1_exact (h : total.Costs costs) (hv : ¬config.hasGasModelV2 = true)
    (transaction : NativeFeeTransactionParams) :
    ((settleV1 total config transaction.payloadBytes).1.toNat,
      (settleV1 total config transaction.payloadBytes).2.toNat) =
        exactBill config transaction costs := by
  have hthousand : (1024 : UInt64).toNat = 1024 := rfl
  have htwo : (2 : UInt64).toNat = 2 := rfl
  have hsum (a b : ℕ) : min (a + min b (2 ^ 64 - 1)) (2 ^ 64 - 1) = min (a + b) (2 ^ 64 - 1) := by
    omega
  have hsums (a b c : ℕ) : min (min (min a (2 ^ 64 - 1) + b) (2 ^ 64 - 1) + c) (2 ^ 64 - 1) =
      min (a + b + c) (2 ^ 64 - 1) := by omega
  rw [exactBill, if_neg hv]
  simp only [settleV1, toNat_max64, toNat_satAdd64, toNat_satMul64, toNat_mulShift_eq,
    toNat_sum_toUInt64, toNat_satSub32, hthousand, htwo, hsum, hsums, h.work, h.result, h.new,
    h.deleted]

/-- A batch is settled by what it costs. -/
theorem settle_exact {models : List OperationModel} {transaction : NativeFeeTransactionParams}
    {estimate : NativeFeeEstimate} (h : (OperationModel.total models).Costs costs)
    (hsettle : settle models config transaction = .ok estimate) :
    estimate.IsExact config transaction costs := by
  obtain ⟨bill, hbill, hsettle⟩ := bind_eq_ok.1 hsettle
  have hexact : (bill.1.toNat, bill.2.toNat) = exactBill config transaction costs := by
    rcases ite_eq_iff.1 hbill with ⟨hv, hbill⟩ | ⟨hv, hbill⟩
    · exact settleV2_exact h hv hbill
    · rw [← Except.ok.inj hbill]
      exact settleV1_exact h hv transaction
  rw [← Except.ok.inj hsettle]
  refine ⟨congrArg Prod.fst hexact, congrArg Prod.snd hexact, ?_, h.new, h.deleted⟩
  rw [toNat_satMul64, UInt32.toNat_toUInt64]
  exact h.new ▸ rfl

theorem not_panics_settle (models : List OperationModel) (config : GasConfig)
    (transaction : NativeFeeTransactionParams) : ¬Panics (settle models config transaction) := by
  rw [settle, panics_bind]
  rintro (h | ⟨_, _, h⟩)
  · split at h
    · rw [settleV2] at h
      split at h
      · exact not_panics_builder _ h
      · exact not_panics_pure _ h
    · exact not_panics_pure _ h
  · exact not_panics_pure _ h

/-- Words that are each made of a number, clamped, add up to the sum of these, clamped. -/
theorem min_sum_eq {α β : Type} {f : α → ℕ} {g : β → ℕ} {as : List α} {bs : List β} {k : ℕ}
    (h : List.Forall₂ (fun a b => g b = min (f a) k) as bs) :
    min (bs.map g).sum k = min (as.map f).sum k := by
  rw [sum_eq_of_forall₂ h, ← min_sum_min (as.map f), List.map_map]
  rfl

theorem costs_total {parts : List NativeFeePart} {models : List OperationModel}
    (h : parts.mapM (partModel config) = .ok models) :
    (OperationModel.total models).Costs (exactCosts config parts) := by
  have hall := (mapM_eq_ok.1 h).imp fun _ _ hmodel =>
    (NativeFeePart.partModel_eq_ok_exact.1 hmodel).2.2
  constructor
  · rw [OperationModel.toNat_workUnits_total]
    exact min_sum_eq (hall.imp fun _ _ h => by rw [h.workUnits, toNat_clamp64])
  · rw [OperationModel.toNat_policyFee_total]
    exact min_sum_eq (hall.imp fun _ _ h => by rw [h.policyFee, toNat_clamp64])
  · rw [OperationModel.toNat_resultBytes_total,
      sum_eq_of_forall₂ (hall.imp fun _ _ h => h.resultBytes)]
    rfl
  · rw [OperationModel.toNat_newQuanta_total,
      sum_eq_of_forall₂ (hall.imp fun _ _ h => h.newQuanta)]
    rfl
  · rw [OperationModel.toNat_deletedQuanta_total,
      sum_eq_of_forall₂ (hall.imp fun _ _ h => h.deletedQuanta)]
    rfl

/-- An estimate is refused, or what the exact costs come to. -/
def EstimateExact (config : GasConfig) (parts : List NativeFeePart)
    (transaction : NativeFeeTransactionParams) (result : Result NativeFeeEstimate) : Prop :=
  (∃ e, result = .error (.error e)) ∨
    ∃ estimate, result = .ok estimate ∧
      estimate.IsExact config transaction (exactCosts config parts)

theorem estimateExact_of_not_panics {parts : List NativeFeePart}
    {transaction : NativeFeeTransactionParams}
    (h : ¬Panics (estimateNativeFeeBatch parts config transaction)) :
    EstimateExact config parts transaction (estimateNativeFeeBatch parts config transaction) := by
  cases hresult : estimateNativeFeeBatch parts config transaction with
  | error e =>
    cases e with
    | error e => exact Or.inl ⟨e, rfl⟩
    | panic p => exact absurd ⟨p, hresult⟩ h
  | ok estimate =>
    obtain ⟨models, hmodels, hsettle⟩ := bind_eq_ok.1 hresult
    exact Or.inr ⟨estimate, rfl, settle_exact (costs_total hmodels) hsettle⟩

theorem panics_estimate_iff {parts : List NativeFeePart}
    {transaction : NativeFeeTransactionParams} :
    Panics (estimateNativeFeeBatch parts config transaction) ↔ Overflowing config parts := by
  rw [estimateNativeFeeBatch, panics_bind,
    or_iff_left fun ⟨models, _, h⟩ => not_panics_settle models config transaction h, panics_mapM]
  simp only [NativeFeePart.exists_partModel_iff_fits, NativeFeePart.panics_partModel]
  rfl

/-- Where no sum of rows or bytes leaves its word, an estimate is refused or exact. -/
theorem estimate_exact_iff (config : GasConfig) :
    (∀ parts transaction, EstimateExact config parts transaction
      (estimateNativeFeeBatch parts config transaction) ↔ ¬Overflowing config parts) ∧
    ∀ kind params, EstimateExact config [⟨kind, params⟩] ⟨params.envelopeBytes, params.payloadBytes⟩
      (estimateNativeFee kind config params) ↔ ¬Overflowing config [⟨kind, params⟩] := by
  have hbatch (parts : List NativeFeePart) (transaction : NativeFeeTransactionParams) :
      EstimateExact config parts transaction
        (estimateNativeFeeBatch parts config transaction) ↔ ¬Overflowing config parts := by
    have hpanics : Panics (estimateNativeFeeBatch parts config transaction) ↔
        Overflowing config parts := panics_estimate_iff
    rw [← hpanics]
    refine ⟨?_, estimateExact_of_not_panics⟩
    rintro (⟨e, he⟩ | ⟨estimate, hestimate, -⟩) ⟨p, hp⟩
    · rw [he] at hp
      cases hp
    · rw [hestimate] at hp
      cases hp
  exact ⟨hbatch, fun kind params => hbatch [⟨kind, params⟩] _⟩

/-- A transfer of as many NFTs as a word counts, to a recipient who holds none yet. -/
theorem not_estimate_exact : ¬∀ (config : GasConfig) (parts : List NativeFeePart)
    (transaction : NativeFeeTransactionParams), EstimateExact config parts transaction
      (estimateNativeFeeBatch parts config transaction) := by
  intro h
  have hpanics : estimateNativeFeeBatch [⟨.transferNonFungible, { count := some 4294967295 }⟩] {}
      ⟨0, 0⟩ = .error (.panic .overflow) := by decide
  rcases h {} [⟨.transferNonFungible, { count := some 4294967295 }⟩] ⟨0, 0⟩ with
    ⟨e, he⟩ | ⟨estimate, hestimate, -⟩
  · rw [hpanics] at he
    cases he
  · rw [hpanics] at hestimate
    cases hestimate

end

end PhantasmaSdk
