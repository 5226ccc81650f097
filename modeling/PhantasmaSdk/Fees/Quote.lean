import PhantasmaSdk.Fees.Compare
import PhantasmaSdk.Rpc.Holdings
import PhantasmaSdk.Rpc.Response

/-!
# Quotes

What a transaction costs is quoted by the calculator, of a plan, or by a node, of a trial
run. Either way the amounts travel as text: a node writes them in digits, and a person is
shown them in units of the tokens. Nothing is lost. Two quotes are shown alike only if they
are one, what a node writes of a quote is read as this quote, and the offer shown is never
below the bill (`told_of_planFees`).
-/

namespace PhantasmaSdk

open Codec Machine

/-! ## Quoting -/

structure FeeQuote where
  maxGas : UInt64
  maxData : UInt64
  expectedGasBill : UInt64
  deriving DecidableEq, Repr

def FeePlan.quote (plan : FeePlan) : FeeQuote where
  maxGas := plan.maxGas
  maxData := plan.maxData
  expectedGasBill := plan.expectedGasBill

/-- A node's account of a trial run, as far as a quote is made of it. -/
structure EstimateTransactionResult where
  wouldAbort : Bool
  abortReason : String
  gasBillKcalBase : Option String
  recommendedMaxGas : Option String
  recommendedMaxData : Option String
  deriving DecidableEq, Repr

def parseEstimateU64 (value : Option String) (fieldName : String) : Result UInt64 :=
  match value.filter (· ≠ "") with
  | none => rpc none s!"estimateTransaction field {fieldName} is missing or empty"
  | some text =>
    match parseUnsigned 64 text with
    | .ok n => pure (UInt64.ofNat n)
    | .error err => rpc none s!"estimateTransaction field {fieldName}: {err}"

def EstimateTransactionResult.toFeeQuote (estimate : EstimateTransactionResult) :
    Result FeeQuote :=
  if estimate.wouldAbort then
    rpc none s!"estimateTransaction reported the transaction would abort: {estimate.abortReason}"
  else do
    let maxGas ← parseEstimateU64 estimate.recommendedMaxGas "recommendedMaxGas"
    let maxData ← parseEstimateU64 estimate.recommendedMaxData "recommendedMaxData"
    let expectedGasBill ← parseEstimateU64 estimate.gasBillKcalBase "gasBillKcalBase"
    pure { maxGas, maxData, expectedGasBill }

structure FeePlanSummary where
  gasBill : String
  gasOffer : String
  storageCeiling : String
  deriving DecidableEq, Repr

def summarizeFeePlanWithDecimals (plan : FeePlan) (gasDecimals dataDecimals : UInt32) :
    Result FeePlanSummary := do
  let gasBill ← convertDecimals plan.expectedGasBill.toNat.repr gasDecimals
  let gasOffer ← convertDecimals plan.maxGas.toNat.repr gasDecimals
  let storageCeiling ← convertDecimals plan.maxData.toNat.repr dataDecimals
  pure { gasBill, gasOffer, storageCeiling }

/-- In the tokens of the main network. -/
def summarizeFeePlan (plan : FeePlan) : Result FeePlanSummary :=
  summarizeFeePlanWithDecimals plan 10 8

/-! ## Texts -/

/-- The text is the amount, in units of which ten to the `decimals` make one. -/
def Shows (text : String) (amount : UInt64) (decimals : UInt32) : Prop :=
  if decimals = 0 then text = amount.toNat.repr
  else ∃ x : Decimal, x.Canonical ∧ x.value = amount.toNat / 10 ^ decimals.toNat ∧
    text.toList = x.text

theorem digits_toDigits (n : ℕ) : Digits (Nat.toDigits 10 n) := fun _ hc =>
  Nat.isDigit_of_mem_toDigits (by decide) (by decide) hc

/-- Any amount is shown, with any number of decimals. -/
theorem exists_shows (amount : UInt64) (decimals : UInt32) :
    ∃ text, convertDecimals amount.toNat.repr decimals = .ok text ∧ Shows text amount decimals := by
  by_cases hzero : decimals = 0
  · exact ⟨_, if_pos hzero, by rw [Shows, if_pos hzero]⟩
  have htext : IsIntegerText amount.toNat.repr.toList amount.toNat :=
    ⟨_, Nat.toDigits_ne_nil, digits_toDigits _, Or.inl ⟨Nat.toList_repr, by
      rw [digitsValue, Nat.ofDigitChars_ten_toDigits]⟩⟩
  -- The text of a natural number has no sign.
  have hsign : amount.toNat.repr.toList.head? ≠ some '-' := by
    intro h
    rw [Nat.toList_repr] at h
    exact absurd (digits_toDigits _ '-' (List.mem_of_head? h)) (by decide)
  obtain ⟨-, -, hvalue⟩ := trimmedDigits_of_isIntegerText htext
  rw [if_neg hsign, Nat.cast_inj] at hvalue
  obtain ⟨whole, fraction, hcanonical, hmagnitude, hresult⟩ :=
    exists_convertDecimals_eq htext hzero
  rw [if_neg fun h => hsign h.1] at hresult
  refine ⟨_, hresult, ?_⟩
  rw [Shows, if_neg hzero]
  refine ⟨_, hcanonical false (fun h => absurd h Bool.false_ne_true), ?_, String.toList_ofList⟩
  rw [Decimal.value, if_neg Bool.false_ne_true, hmagnitude, ← hvalue]

/-- What is shown tells the amount. -/
theorem Shows.eq_of_text {text : String} {amount amount' : UInt64} {decimals : UInt32}
    (h : Shows text amount decimals) (h' : Shows text amount' decimals) : amount = amount' := by
  rw [Shows] at h h'
  split at h
  next hzero =>
    rw [if_pos hzero, h] at h'
    exact UInt64.toNat_inj.1 (repr_injective h')
  next hzero =>
    rw [if_neg hzero] at h'
    obtain ⟨x, hx, hvalue, htext⟩ := h
    obtain ⟨y, hy, hvalue', htext'⟩ := h'
    obtain rfl := hx.eq_of_text_eq hy (htext.symm.trans htext')
    have hpow : (10 : ℚ) ^ decimals.toNat ≠ 0 := by positivity
    have hamount := (div_left_inj' hpow).1 (hvalue.symm.trans hvalue')
    exact UInt64.toNat_inj.1 (Nat.cast_injective hamount)

/-! ## Offers -/

section

variable {models : List OperationModel} {config : GasConfig}
  {transaction : NativeFeeTransactionParams} {estimate : NativeFeeEstimate}

theorem covers_settleV1 (total : OperationModel) (config : GasConfig) (payloadBytes : UInt32) :
    (settleV1 total config payloadBytes).1 ≤ (settleV1 total config payloadBytes).2 ∧
      config.minimumGasOffer ≤ (settleV1 total config payloadBytes).2 := by
  simp only [settleV1]
  generalize payloadBytes.toUInt64 + _ + _ = blockData
  generalize mulShift _ _ _ = work
  have hallowance : (satMul64 blockData config.gasFeePerByte) ≤
      satMul64 (max blockData 1024) config.gasFeePerByte := by
    refine satMul64_le_satMul64 ?_ (UInt64.le_refl _)
    rw [UInt64.le_iff_toNat_le, toNat_max64]
    exact le_max_left _ _
  have hoffer := config.minimumGasOffer.toNat_lt
  rw [UInt64.le_iff_toNat_le] at hallowance
  constructor
  · rw [UInt64.le_iff_toNat_le, toNat_satAdd64, toNat_satAdd64, toNat_satAdd64]
    omega
  · have htwo : (2 : UInt64).toNat = 2 := rfl
    rw [UInt64.le_iff_toNat_le, toNat_satAdd64, toNat_satAdd64, toNat_satMul64, htwo]
    omega

/-- Under either gas model what is offered covers the bill, and is no less than the chain
    asks for. -/
theorem covers_of_settle (h : settle models config transaction = .ok estimate) :
    estimate.expectedGasBill ≤ estimate.maxGas ∧ config.minimumGasOffer ≤ estimate.maxGas := by
  obtain ⟨bill, hbill, h⟩ := bind_eq_ok.1 h
  obtain rfl := Except.ok.inj h
  change bill.1 ≤ bill.2 ∧ config.minimumGasOffer ≤ bill.2
  rcases ite_eq_iff.1 hbill with ⟨-, hbill⟩ | ⟨-, hbill⟩
  · rcases ite_eq_iff.1 hbill with ⟨-, hbill⟩ | ⟨-, hbill⟩
    · cases hbill
    · rw [← Except.ok.inj hbill]
      simp only [UInt64.le_iff_toNat_le, toNat_max64]
      omega
  · rw [← Except.ok.inj hbill]
    exact covers_settleV1 _ config _

end

/-! ## What is told -/

theorem parseEstimateU64_eq_ok {value : Option String} {fieldName : String} {n : UInt64} :
    parseEstimateU64 value fieldName = .ok n ↔ ∃ text, value = some text ∧
      IsNumber 64 text n.toNat := by
  rw [parseEstimateU64]
  rcases value with _ | text
  · exact iff_of_false (fun h => by cases h) fun ⟨_, h, _⟩ => by cases h
  by_cases hempty : text = ""
  · subst hempty
    refine iff_of_false (fun h => by cases h) ?_
    rintro ⟨_, ⟨⟩, digits, htext, hne, -⟩
    rcases htext with h | h
    · exact hne h.symm
    · cases h
  have hsome : (some text).filter (· ≠ "") = some text := by simp [hempty]
  simp only [hsome, Option.some.injEq, exists_eq_left']
  rcases hparse : parseUnsigned 64 text with err | m
  · refine iff_of_false (fun h => by cases h) fun h => ?_
    rw [parseUnsigned_eq_ok.2 h] at hparse
    cases hparse
  · have hm := parseUnsigned_eq_ok.1 hparse
    obtain ⟨_, -, -, -, -, hlt⟩ := hm
    constructor
    · intro h
      obtain rfl := Except.ok.inj h
      rw [UInt64.toNat_ofNat_of_lt' hlt]
      exact parseUnsigned_eq_ok.1 hparse
    · intro h
      obtain rfl := Except.ok.inj (hparse.symm.trans (parseUnsigned_eq_ok.2 h))
      exact congrArg Except.ok UInt64.ofNat_toNat

/-- The node says that the transaction completes, and writes the amounts. -/
structure EstimateTransactionResult.Tells (estimate : EstimateTransactionResult)
    (quote : FeeQuote) : Prop where
  completes : estimate.wouldAbort = false
  maxGas : ∃ text, estimate.recommendedMaxGas = some text ∧ IsNumber 64 text quote.maxGas.toNat
  maxData : ∃ text, estimate.recommendedMaxData = some text ∧ IsNumber 64 text quote.maxData.toNat
  expectedGasBill : ∃ text, estimate.gasBillKcalBase = some text ∧
    IsNumber 64 text quote.expectedGasBill.toNat

theorem toFeeQuote_eq_ok {estimate : EstimateTransactionResult} {quote : FeeQuote} :
    estimate.toFeeQuote = .ok quote ↔ estimate.Tells quote := by
  rw [EstimateTransactionResult.toFeeQuote]
  by_cases habort : estimate.wouldAbort = true
  · rw [if_pos habort]
    refine iff_of_false (fun h => by cases h) fun h => ?_
    rw [h.completes] at habort
    cases habort
  rw [if_neg habort]
  constructor
  · intro h
    obtain ⟨maxGas, hgas, h⟩ := bind_eq_ok.1 h
    obtain ⟨maxData, hdata, h⟩ := bind_eq_ok.1 h
    obtain ⟨bill, hbill, h⟩ := bind_eq_ok.1 h
    obtain rfl := Except.ok.inj h
    exact ⟨Bool.eq_false_iff.2 habort, parseEstimateU64_eq_ok.1 hgas,
      parseEstimateU64_eq_ok.1 hdata, parseEstimateU64_eq_ok.1 hbill⟩
  · intro h
    rw [parseEstimateU64_eq_ok.2 h.maxGas, ok_bind, parseEstimateU64_eq_ok.2 h.maxData, ok_bind,
      parseEstimateU64_eq_ok.2 h.expectedGasBill, ok_bind]
    rfl

/-- The texts are those of the amounts of the quote. -/
structure FeePlanSummary.Tells (summary : FeePlanSummary) (quote : FeeQuote)
    (gasDecimals dataDecimals : UInt32) : Prop where
  gasBill : Shows summary.gasBill quote.expectedGasBill gasDecimals
  gasOffer : Shows summary.gasOffer quote.maxGas gasDecimals
  storageCeiling : Shows summary.storageCeiling quote.maxData dataDecimals

theorem FeePlanSummary.Tells.eq {summary : FeePlanSummary} {quote quote' : FeeQuote}
    {gasDecimals dataDecimals : UInt32} (h : summary.Tells quote gasDecimals dataDecimals)
    (h' : summary.Tells quote' gasDecimals dataDecimals) : quote = quote' := by
  obtain ⟨maxGas, maxData, bill⟩ := quote
  obtain ⟨maxGas', maxData', bill'⟩ := quote'
  obtain rfl : bill = bill' := h.gasBill.eq_of_text h'.gasBill
  obtain rfl : maxGas = maxGas' := h.gasOffer.eq_of_text h'.gasOffer
  obtain rfl : maxData = maxData' := h.storageCeiling.eq_of_text h'.storageCeiling
  rfl

theorem exists_summary (plan : FeePlan) (gasDecimals dataDecimals : UInt32) : ∃ summary,
    summarizeFeePlanWithDecimals plan gasDecimals dataDecimals = .ok summary ∧
      summary.Tells plan.quote gasDecimals dataDecimals := by
  obtain ⟨gasBill, hbill, hshowsBill⟩ := exists_shows plan.expectedGasBill gasDecimals
  obtain ⟨gasOffer, hoffer, hshowsOffer⟩ := exists_shows plan.maxGas gasDecimals
  obtain ⟨storageCeiling, hceiling, hshowsCeiling⟩ := exists_shows plan.maxData dataDecimals
  exact ⟨⟨gasBill, gasOffer, storageCeiling⟩, bind_eq_ok.2 ⟨_, hbill, bind_eq_ok.2 ⟨_, hoffer,
    bind_eq_ok.2 ⟨_, hceiling, rfl⟩⟩⟩, hshowsBill, hshowsOffer, hshowsCeiling⟩

/-- The quote of a plan is what is told of it: a person is shown it and no other quote, with
    an offer that covers the bill and what the chain asks for, and it is what is read of a
    node that writes its amounts, and of no other. -/
theorem told_of_planFees (msg : TxMsg) (config : GasConfig) (options : FeePlanOptions)
    (plan : FeePlan) (h : planFees msg config options = .ok plan) :
    plan.expectedGasBill ≤ plan.maxGas ∧ config.minimumGasOffer ≤ plan.maxGas ∧
    (∀ gasDecimals dataDecimals, ∃ summary,
      summarizeFeePlanWithDecimals plan gasDecimals dataDecimals = .ok summary ∧
      summary.Tells plan.quote gasDecimals dataDecimals ∧
      ∀ plan' : FeePlan, summarizeFeePlanWithDecimals plan' gasDecimals dataDecimals =
        .ok summary ↔ plan'.quote = plan.quote) ∧
    ∀ estimate : EstimateTransactionResult,
      estimate.toFeeQuote = .ok plan.quote ↔ estimate.Tells plan.quote := by
  obtain ⟨-, parts, size, models, estimate, exact, hpriced, -, rfl⟩ := planFees_eq_ok.1 h
  obtain ⟨hbill, hoffer⟩ := covers_of_settle hpriced.settled
  refine ⟨hbill, hoffer, fun gasDecimals dataDecimals => ?_, fun _ => toFeeQuote_eq_ok⟩
  obtain ⟨summary, hsummary, htells⟩ := exists_summary _ gasDecimals dataDecimals
  refine ⟨summary, hsummary, htells, fun plan' => ?_⟩
  constructor
  · intro h'
    obtain ⟨summary', hsummary', htells'⟩ := exists_summary plan' gasDecimals dataDecimals
    obtain rfl := Except.ok.inj (h'.symm.trans hsummary')
    exact htells'.eq htells
  · intro hquote
    obtain ⟨hmaxGas, hmaxData, hexpected⟩ := FeeQuote.mk.inj hquote
    rw [← hsummary, summarizeFeePlanWithDecimals, hmaxGas, hmaxData, hexpected]
    rfl

def smallTransfer : TxMsg where
  txType := .transferFungible
  expiry := 1
  maxGas := 0
  maxData := 0
  gasFrom := emptyBytes32
  payload := ⟨""⟩
  msg := .transferFungible ⟨emptyBytes32, 1, 5⟩

theorem told_of_planFees_smallTransfer : ∃ plan,
    planFees smallTransfer { minimumGasOffer := 7 } {} = .ok plan ∧ 7 ≤ plan.maxGas ∧
      ∃ summary, summarizeFeePlan plan = .ok summary ∧ summary.Tells plan.quote 10 8 := by
  obtain ⟨plan, hplan⟩ := exists_ok_of_isSome (x := planFees smallTransfer
    { minimumGasOffer := 7 } {}) (by decide +kernel)
  obtain ⟨-, hoffer, hshown, -⟩ := told_of_planFees _ _ _ plan hplan
  obtain ⟨summary, hsummary, htells, -⟩ := hshown 10 8
  exact ⟨plan, hplan, hoffer, summary, hsummary, htells⟩

end PhantasmaSdk
