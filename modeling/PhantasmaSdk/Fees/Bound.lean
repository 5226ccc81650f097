import PhantasmaSdk.Fees.GrowthBill

/-!
# Unstated facts as an upper bound

A plan that leaves every fact at its costlier reading is meant to bound the plan with the
facts stated. A burn breaks this: it deletes a row of each instance whose ROM has a meta
id, and an open fact is read as if there were one. What is deleted offsets what the rest
of the message creates, so that stating that there is no meta id may grow the storage
more than leaving it open. The bound holds wherever it does not (`GrowsNoMore`), and
nowhere else, as far as the bill tells one unit from the next (`bounded_iff`).
-/

namespace PhantasmaSdk

open Machine

/-- The options agree in all but the facts of the chain's state. -/
structure FeePlanOptions.SameButFacts (o o' : FeePlanOptions) : Prop extends
    o.SameBudget o' where
  witnessCount : o'.witnessCount = o.witnessCount
  infusions : o'.infusions = o.infusions

/-- The bill, the offer and the ceiling of the one plan are no more than the other's. -/
structure FeePlan.Le (plan' plan : FeePlan) : Prop where
  expectedGasBill : plan'.expectedGasBill ≤ plan.expectedGasBill
  maxGas : plan'.maxGas ≤ plan.maxGas
  maxData : plan'.maxData ≤ plan.maxData

/-- The plan with the first options bounds the one with the second, if there are both. -/
def Bounded (msg : TxMsg) (config : GasConfig) (o o' : FeePlanOptions) : Prop :=
  ∀ plan plan' : FeePlan, planFees msg config o = .ok plan →
    planFees msg config o' = .ok plan' → plan'.Le plan

/-- The burned ROMs are not stated to have no meta ids, or nothing is burned, or growth is
    not charged for, or the batch grows the storage no more with what is stated than with
    all left open. -/
def GrowsNoMore (msg : TxMsg) (config : GasConfig) (o o' : FeePlanOptions) : Prop :=
  o'.romHasMetaId ≠ some false ∨ burnedInstances msg = [] ∨ config.GrowthFree ∨
    growth config o' msg.batch ≤ growth config o msg.batch

section

variable {msg : TxMsg} {config : GasConfig} {o o' : FeePlanOptions}

/-- A burn whose ROMs may have meta ids deletes as much as with the fact left open. -/
theorem partsGrowth_le (hcostlier : o.facts = .costlier) (hsame : o.SameButFacts o')
    (hrom : o'.romHasMetaId ≠ some false) (parts : List NativeFeePart) :
    partsGrowth config o' parts ≤ partsGrowth config o parts := by
  have hmeta : o'.romHasMetaId.getD true = true := by
    rcases h : o'.romHasMetaId with _ | _ | _ <;> simp_all
  refine grown_le_grown ?_ ?_ <;> rw [hsame.infusions]
  · exact Nat.add_le_add_right (List.sum_le_sum fun part _ => part.newRows_stated_le
      (hcostlier ▸ Facts.cheaper_costlier _) fun _ => hsame.toSameBudget) _
  · exact Nat.add_le_add_right (List.sum_le_sum fun part _ =>
      part.deletedRows_stated_le fun _ => hmeta) _

theorem bounded_of_growsNoMore (hcostlier : o.facts = .costlier) (hsame : o.SameButFacts o')
    (h : GrowsNoMore msg config o o') : Bounded msg config o o' := by
  intro plan plan' hplan hplan'
  obtain ⟨-, parts, size, models, estimate, exact, hpriced, -, rfl⟩ := planFees_eq_ok.1 hplan
  obtain ⟨-, parts', size', models', estimate', exact', hpriced', -, rfl⟩ :=
    planFees_eq_ok.1 hplan'
  obtain ⟨rfl, rfl⟩ := hpriced.unique hsame.witnessCount hpriced'
  have hcheaper : o'.facts.Cheaper o.facts := hcostlier ▸ Facts.cheaper_costlier _
  suffices hle : estimate'.Le estimate from ⟨hle.expectedGasBill, hle.maxGas, hle.maxData⟩
  by_cases hburn : .burnNonFungible ∈ parts'.map NativeFeePart.kind
  · have hnet : config.GrowthFree ∨
        (OperationModel.total models').net ≤ (OperationModel.total models).net := by
      rw [UInt32.le_iff_toNat_le, hpriced.toNat_net_of_burn hburn,
        hpriced'.toNat_net_of_burn hburn]
      rcases h with hrom | hnone | hfree | hgrowth
      · rw [← hpriced.partsGrowth_eq hburn, ← hpriced.partsGrowth_eq hburn]
        exact .inr (partsGrowth_le hcostlier hsame hrom parts')
      · exact absurd hnone ((listsAll_burnedInstances hpriced.operations).ne_nil_iff.2 hburn)
      · exact .inl hfree
      · exact .inr hgrowth
    have hnew := hpriced.newQuanta_le hpriced' hcheaper hsame.toSameBudget hburn
      (by rw [hsame.infusions])
    exact hpriced.le_of_net hpriced' hcheaper hsame.toSameBudget
      (by rw [SameWork, hsame.infusions]) (.inr hnew) hnet
  · exact hpriced.le hpriced' hcheaper hsame.toSameBudget hburn

/-- With more growth the bill is higher, if nothing else makes up for it. -/
theorem not_le_of_not_growsNoMore (hcostlier : o.facts = .costlier) (hsame : o.SameButFacts o')
    (h : ¬GrowsNoMore msg config o o') {plan plan' : FeePlan}
    (hplan : planFees msg config o = .ok plan) (hplan' : planFees msg config o' = .ok plan')
    (hbig : o'.bigFungible ≠ some false) (hdup : o'.duplicatedSeries ≠ some false)
    (hresolves : config.Resolves plan.expectedGasBill) : ¬plan'.Le plan := by
  obtain ⟨-, parts, size, models, estimate, exact, hpriced, -, rfl⟩ := planFees_eq_ok.1 hplan
  obtain ⟨-, parts', size', models', estimate', exact', hpriced', -, rfl⟩ :=
    planFees_eq_ok.1 hplan'
  obtain ⟨rfl, rfl⟩ := hpriced.unique hsame.witnessCount hpriced'
  simp only [GrowsNoMore, not_or, not_le] at h
  obtain ⟨-, hburned, -, hgrowth⟩ := h
  have hburn := (listsAll_burnedInstances hpriced.operations).ne_nil_iff.1 hburned
  rw [← hpriced.toNat_net_of_burn hburn, ← hpriced'.toNat_net_of_burn hburn,
    ← UInt32.lt_iff_toNat_lt] at hgrowth
  have hopen {b b' : Option Bool} (hb : b = none) (hb' : b' ≠ some false) :
      b'.getD true = b.getD true := by
    rcases b' with _ | _ | _ <;> simp_all
  have hlt := hpriced.lt_of_net hpriced' (hopen (congrArg Facts.duplicatedSeries hcostlier) hdup)
    (hopen (congrArg Facts.bigFungible hcostlier) hbig) hsame.toSameBudget
    (by rw [SameWork, hsame.infusions]) hgrowth hresolves
  exact fun hle => absurd hlt (UInt64.not_lt.2 hle.expectedGasBill)

end

/-- Leaving every fact open bounds stating any, unless the batch then grows the storage
    more; and then it does not, where the bill tells units apart and what is stated makes
    neither the work nor the result less. -/
theorem bounded_iff {msg : TxMsg} {config : GasConfig} {o o' : FeePlanOptions}
    (hcostlier : o.facts = .costlier) (hsame : o.SameButFacts o') :
    (GrowsNoMore msg config o o' → Bounded msg config o o') ∧
      ∀ plan plan' : FeePlan, planFees msg config o = .ok plan →
        planFees msg config o' = .ok plan' → o'.bigFungible ≠ some false →
        o'.duplicatedSeries ≠ some false → config.Resolves plan.expectedGasBill →
          (plan'.Le plan ↔ GrowsNoMore msg config o o') := by
  refine ⟨bounded_of_growsNoMore hcostlier hsame, fun plan plan' hplan hplan' hbig hdup hresolves =>
    ⟨fun hle => ?_, fun h => bounded_of_growsNoMore hcostlier hsame h plan plan' hplan hplan'⟩⟩
  by_contra h
  exact not_le_of_not_growsNoMore hcostlier hsame h hplan hplan' hbig hdup hresolves hle

/-- A batch that burns an NFT and calls a module that is not modelled. -/
def burnThenCall : TxMsg where
  txType := .callMulti
  expiry := 0
  maxGas := 0
  maxData := 0
  gasFrom := emptyBytes32
  payload := ⟨""⟩
  msg := .callMulti ⟨[
    { moduleId := ModuleId.token, methodId := TokenContractMethod.burnNonFungible,
      args := List.replicate 40 0 ++ [1, 0, 0, 0] ++ List.replicate 8 0, sections := none },
    { moduleId := 2, methodId := 0, args := [], sections := none }]⟩

/-- A unit for each unit of work and each byte, under the second gas model. -/
def perUnit : GasConfig := { version := 1, feeMultiplier := 1, gasTokenId := 1, dataTokenId := 2 }

/-- Every fact left open, nothing returned, and so many rows budgeted. -/
def openOptions (quanta : Option UInt32) : FeePlanOptions :=
  { witnessCount := some 1, infusions := some [], scriptStorageQuanta := quanta }

/-- The same, and the burned ROMs stated to have no meta ids. -/
def withoutMetaIds (quanta : Option UInt32) : FeePlanOptions :=
  { openOptions quanta with romHasMetaId := some false }

theorem openOptions_sameButFacts (quanta : Option UInt32) :
    (openOptions quanta).SameButFacts (withoutMetaIds quanta) := ⟨⟨rfl, rfl, rfl⟩, rfl, rfl⟩

theorem exists_planFees_open : ∃ plan, planFees burnThenCall perUnit (openOptions none) = .ok plan ∧
    plan.expectedGasBill = 23800 := exists_ok_of_map (by decide +kernel)

theorem exists_planFees_withoutMetaIds :
    ∃ plan, planFees burnThenCall perUnit (withoutMetaIds none) = .ok plan ∧
      plan.expectedGasBill = 23825 := exists_ok_of_map (by decide +kernel)

/-- With one row budgeted for the call, what the burn deletes covers all that is created.
    With four it does not, and without a meta id a row more is billed. -/
theorem bounded_iff_burnThenCall :
    Bounded burnThenCall perUnit (openOptions (some 1)) (withoutMetaIds (some 1)) ∧
      ∃ plan plan', planFees burnThenCall perUnit (openOptions none) = .ok plan ∧
        planFees burnThenCall perUnit (withoutMetaIds none) = .ok plan' ∧ ¬plan'.Le plan := by
  constructor
  · exact (bounded_iff rfl (openOptions_sameButFacts _)).1 (.inr (.inr (.inr (by decide +kernel))))
  · obtain ⟨plan, hplan, hbill⟩ := exists_planFees_open
    obtain ⟨plan', hplan', -⟩ := exists_planFees_withoutMetaIds
    have hresolves : perUnit.Resolves plan.expectedGasBill := by
      rw [hbill]
      exact ⟨by decide, by decide⟩
    refine ⟨plan, plan', hplan, hplan', fun hle => ?_⟩
    have hgrows := ((bounded_iff rfl (openOptions_sameButFacts none)).2 plan plan' hplan hplan'
      (by decide) (by decide) hresolves).1 hle
    rcases hgrows with hrom | hnone | hfree | hgrowth
    · exact hrom rfl
    · exact absurd hnone (by decide +kernel)
    · exact hresolves.not_growthFree hfree
    · exact absurd hgrowth (by decide +kernel)

/-- Stating that the burned ROM has no meta id costs 25 more than leaving it open. -/
theorem not_bounded : ¬∀ (msg : TxMsg) (config : GasConfig) (o o' : FeePlanOptions),
    o.facts = .costlier → o.SameButFacts o' → Bounded msg config o o' := by
  intro h
  obtain ⟨plan, hplan, hbill⟩ := exists_planFees_open
  obtain ⟨plan', hplan', hbill'⟩ := exists_planFees_withoutMetaIds
  have hle := (h burnThenCall perUnit (openOptions none) (withoutMetaIds none) rfl
    (openOptions_sameButFacts none) plan plan' hplan hplan').expectedGasBill
  rw [hbill, hbill'] at hle
  exact absurd hle (by decide)

end PhantasmaSdk
