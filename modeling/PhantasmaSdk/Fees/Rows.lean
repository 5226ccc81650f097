import PhantasmaSdk.Fees.Facts

/-!
# Rows, as numbers

What the calculator adds up in checked words is a number: the rows an operation creates
and deletes and the bytes it returns (`newRows`, `deletedRows`, `resultSize`), given what
the message says of it and what the caller states. `rows_of_partModel` says that these
are the numbers, where there are any, and `exists_partModel` where there are: a
model fails to exist for what the calculator refuses (`Admitted`) only.
-/

namespace PhantasmaSdk

open Machine

/-! ## Quanta -/

/-- The quanta of a row of so many bytes. -/
def rowQuanta (bytes : ℕ) : ℕ := (bytes + 1023) / 1024

/-- The quanta of an instance, i.e., of its row, of the owner's and the lookup, of the
    RAM if it has any, and of the meta id. -/
def instanceQuanta (stored ram metaId : ℕ) : ℕ :=
  rowQuanta (62 + stored) + 2 + (if ram = 0 then 0 else rowQuanta (17 + ram)) + metaId

/-- A row that is written unless it is known to be there or is free. -/
def factRow (known free : Bool) : ℕ := (!known && !free).toNat

theorem toNat_quantum (value : Bool) : (quantum value).toNat = value.toNat := by
  cases value <;> rfl

theorem toNat_storageQuantaFor (bytes : UInt32) :
    (storageQuantaFor bytes).toNat = rowQuanta bytes.toNat := by
  have hquantum : storageQuantumBytes.toNat = 1024 := rfl
  have hbytes := bytes.toNat_lt
  rw [storageQuantaFor, hquantum, UInt32.toNat_ofNat_of_lt' (by
    change _ < 2 ^ 32
    omega)]
  rfl

/-- The quanta of the RAM. -/
theorem ramRow_eq_ok {ram row : UInt32} :
    (if 0 < ram then (do
      let row ← u32 (nftRamRowOverhead.toNat + ram.toNat)
      pure (storageQuantaFor row)) else pure 0 : Result UInt32) = .ok row ↔
      (ram.toNat ≠ 0 → 17 + ram.toNat < 2 ^ 32) ∧
        row.toNat = if ram.toNat = 0 then 0 else rowQuanta (17 + ram.toNat) := by
  have hpos : 0 < ram ↔ ram.toNat ≠ 0 := by
    rw [UInt32.lt_iff_toNat_lt, UInt32.toNat_zero, Nat.pos_iff_ne_zero]
  have hoverhead : nftRamRowOverhead.toNat = 17 := rfl
  rw [hoverhead]
  by_cases h : ram.toNat = 0
  · rw [if_neg (fun h' => hpos.1 h' h), if_pos h, pure_eq_ok, Except.ok.injEq, eq_comm,
      ← UInt32.toNat_inj]
    simp [h]
  · rw [if_pos (hpos.2 h), if_neg h, bind_eq_ok]
    constructor
    · rintro ⟨bytes, hbytes, hrow⟩
      have hlt := bytes.toNat_lt
      rw [u32_eq_ok] at hbytes
      rw [← Except.ok.inj hrow, toNat_storageQuantaFor, hbytes]
      exact ⟨fun _ => by omega, rfl⟩
    · rintro ⟨hlt, hrow⟩
      obtain ⟨bytes, -, hbytes⟩ := exists_word32 (hlt h)
      refine ⟨bytes, u32_eq_ok.2 hbytes, congrArg Except.ok (UInt32.toNat_inj.1 ?_)⟩
      rw [toNat_storageQuantaFor, hbytes, hrow]

theorem instanceRows_eq_ok {stored ram metaId rows : UInt32} :
    instanceRows stored ram metaId = .ok rows ↔
      62 + stored.toNat < 2 ^ 32 ∧ (ram.toNat ≠ 0 → 17 + ram.toNat < 2 ^ 32) ∧
        rows.toNat = instanceQuanta stored.toNat ram.toNat metaId.toNat := by
  have hoverhead : nftInstanceRowOverhead.toNat = 62 := rfl
  have hsum {row ramRow : UInt32} (hrow : row.toNat = 62 + stored.toNat)
      (hram : ramRow.toNat = if ram.toNat = 0 then 0 else rowQuanta (17 + ram.toNat)) :
      ([storageQuantaFor row, 2, ramRow, metaId].map UInt32.toNat).sum =
        instanceQuanta stored.toNat ram.toNat metaId.toNat := by
    simp only [List.map_cons, List.map_nil, List.sum_cons, List.sum_nil, toNat_storageQuantaFor,
      hrow, hram, instanceQuanta, UInt32.reduceToNat]
    omega
  rw [instanceRows, bind_eq_ok, hoverhead]
  constructor
  · rintro ⟨row, hrow, h⟩
    obtain ⟨ramRow, hramRow, h⟩ := bind_eq_ok.1 h
    have hlt := row.toNat_lt
    rw [u32_eq_ok] at hrow
    obtain ⟨hram, hramRow⟩ := ramRow_eq_ok.1 hramRow
    exact ⟨by omega, hram, (sumU32_eq_ok.1 h).trans (hsum hrow hramRow)⟩
  · rintro ⟨hstored, hram, hrows⟩
    obtain ⟨row, -, hrow⟩ := exists_word32 hstored
    have hlt : (if ram.toNat = 0 then 0 else rowQuanta (17 + ram.toNat)) < 2 ^ 32 := by
      have := ram.toNat_lt
      rw [rowQuanta]
      split <;> omega
    obtain ⟨ramRow, -, hramRow⟩ := exists_word32 hlt
    exact ⟨row, u32_eq_ok.2 hrow, bind_eq_ok.2 ⟨ramRow, ramRow_eq_ok.2 ⟨hram, hramRow⟩,
      sumU32_eq_ok.2 (hrows.trans (hsum hrow hramRow).symm)⟩⟩

/-! ## Lists of checked words -/

/-- Words for numbers that fit. -/
theorem exists_words {ns : List ℕ} (h : ∀ n ∈ ns, n < 2 ^ 32) :
    ∃ words : List UInt32, words.map UInt32.toNat = ns := by
  refine ⟨ns.map UInt32.ofNat, ?_⟩
  rw [List.map_map]
  calc ns.map (UInt32.toNat ∘ UInt32.ofNat)
      = ns.map id := List.map_congr_left fun n hn => UInt32.toNat_ofNat_of_lt' (h n hn)
    _ = ns := List.map_id ns

/-- A list of words, each of which stands for a number or is refused. -/
theorem mapM_words_eq_ok {α : Type} {f : α → Result UInt32} {p : α → Prop} {g : α → ℕ}
    (h : ∀ a word, f a = .ok word ↔ p a ∧ word.toNat = g a) {as : List α} {words : List UInt32} :
    as.mapM f = .ok words ↔ (∀ a ∈ as, p a) ∧ words.map UInt32.toNat = as.map g := by
  rw [mapM_eq_ok]
  constructor
  · intro hall
    induction hall with
    | nil => simp
    | cons hword _ ih =>
      obtain ⟨hp, hword⟩ := (h _ _).1 hword
      simp [hp, hword, ih.2]
      exact ih.1
  · rintro ⟨hp, hwords⟩
    induction as generalizing words with
    | nil => rw [List.map_eq_nil_iff.1 hwords]; exact .nil
    | cons a as ih =>
      obtain ⟨word, rest, rfl, hword, hrest⟩ := List.map_eq_cons_iff.1 hwords
      exact .cons ((h _ _).2 ⟨hp a List.mem_cons_self, hword⟩)
        (ih (fun b hb => hp b (List.mem_cons_of_mem _ hb)) hrest)

/-! ## Parts -/

/-- One size per instance, where there are as many as there should be. -/
def sizesFor (values : List UInt32) (count : UInt32) : List UInt32 :=
  match values with
  | [] => List.replicate count.toNat 0
  | [value] => List.replicate count.toNat value
  | values => values

/-- As many sizes as instances, or one for all of them, or none. -/
def SizedFor (values : List UInt32) (count : UInt32) : Prop :=
  2 ≤ values.length → values.length = count.toNat

theorem perInstance_eq_ok {values sizes : List UInt32} {count : UInt32} {name : String} :
    perInstance values count name = .ok sizes ↔
      SizedFor values count ∧ sizes = sizesFor values count := by
  unfold perInstance sizesFor SizedFor
  match values with
  | [] | [value] => simp [pure_eq_ok, eq_comm]
  | first :: second :: rest =>
    by_cases h : (first :: second :: rest).length = count.toNat
    · simp [h, pure_eq_ok, eq_comm]
    · dsimp only
      rw [if_neg h]
      constructor
      · intro h'
        cases h'
      · rintro ⟨h', -⟩
        exact absurd (h' (by simp)) h

/-- A length that can be priced and that the chain admits. -/
def LengthAdmitted (length : UInt32) (maxLength : UInt8) : Prop :=
  length ≠ 0 → ¬(maxLength ≠ 0 ∧ maxLength.toNat ≤ (length - 1).toNat) ∧
    ¬maxPriceableLength < length

def shiftFor (length : UInt32) : UInt32 := if length = 0 then 0 else length - 1

theorem symbolShift_eq_ok {length shift : UInt32} {maxLength : UInt8} {name : String} :
    symbolShift length maxLength name = .ok shift ↔
      LengthAdmitted length maxLength ∧ shift = shiftFor length := by
  rw [symbolShift, LengthAdmitted, shiftFor]
  by_cases h0 : length = 0
  · simp [h0, pure_eq_ok, eq_comm]
  by_cases hmax : maxLength ≠ 0 ∧ maxLength.toNat ≤ (length - 1).toNat
  · simp only [if_neg h0, if_pos hmax, builder]
    simp [h0, hmax]
  by_cases hlong : maxPriceableLength < length
  · simp only [if_neg h0, if_neg hmax, if_pos hlong, builder]
    simp [h0, hlong]
  · simp only [if_neg h0, if_neg hmax, if_neg hlong, pure_eq_ok, Except.ok.injEq]
    exact ⟨fun h => ⟨fun _ => ⟨hmax, hlong⟩, h.symm⟩, fun h => h.2.symm⟩

theorem distinctSeries_eq_ok {params : NativeFeeParams} {count distinct : UInt32} :
    distinctSeries params count = .ok distinct ↔
      (1 ≤ params.distinctSeriesCount.getD 1 ∧ params.distinctSeriesCount.getD 1 ≤ count) ∧
        distinct = params.distinctSeriesCount.getD 1 := by
  unfold distinctSeries
  simp only []
  by_cases h : params.distinctSeriesCount.getD 1 < 1 ∨ count < params.distinctSeriesCount.getD 1
  · rw [if_pos h]
    constructor
    · intro h'
      cases h'
    · rintro ⟨⟨h1, h2⟩, -⟩
      rcases h with h | h
      · exact absurd h (UInt32.not_lt.2 h1)
      · exact absurd h (UInt32.not_lt.2 h2)
  · rw [if_neg h, pure_eq_ok, Except.ok.injEq, eq_comm]
    rw [not_or, UInt32.not_lt, UInt32.not_lt] at h
    exact ⟨fun h' => ⟨h, h'⟩, fun h' => h'.2⟩

namespace NativeFeePart

section

variable (config : GasConfig) (part : NativeFeePart)

def instances : UInt32 := part.params.count.getD 1

/-- The sizes of the ROM and the RAM of each instance. -/
def instanceSizes : List (UInt32 × UInt32) :=
  (sizesFor part.params.romBytes part.instances).zip (sizesFor part.params.ramBytes part.instances)

def recipientRow : ℕ :=
  factRow part.params.recipientHoldsToken (config.freeRows part.params.tokenId)

def burntRow : ℕ := factRow part.params.tokenBurnedBefore (config.freeRows part.params.tokenId)

def supplyRow : ℕ := factRow part.params.supplyRowExists (config.freeRows part.params.tokenId)

def metaIdRow : ℕ := (part.params.romHasMetaId.getD true).toNat

/-- The rows the operation creates, those of returned assets apart. -/
def newRows : ℕ :=
  match part.kind with
  | .transferFungible => part.recipientRow config
  | .transferNonFungible => part.instances.toNat + part.recipientRow config
  | .mintFungible => part.recipientRow config + part.supplyRow config
  | .burnFungible | .burnNonFungible => part.burntRow config + part.supplyRow config
  | .mintNonFungible => part.recipientRow config + part.supplyRow config +
      (part.instanceSizes.map fun (rom, ram) =>
        instanceQuanta rom.toNat ram.toNat part.metaIdRow).sum
  | .mintPhantasmaNonFungible => part.recipientRow config + part.supplyRow config +
      (part.instanceSizes.map fun (rom, ram) =>
        instanceQuanta (2 * rom.toNat + 36) ram.toNat 1).sum
  | .createToken => (decide (0 < part.params.symbolLength)).toNat +
      rowQuanta (9 + part.params.tokenInfoBytes.toNat) + 1 + part.params.nonFungible.toNat +
      part.params.hasPreBurn.toNat + part.params.hasInflationSchedule.toNat
  | .createTokenSeries => rowQuanta (13 + part.params.seriesInfoBytes.toNat) + 1 +
      (part.params.seriesHasMetaId.getD true).toNat
  | .registerName => 0
  | .script => (part.params.scriptStorageQuanta.getD defaultScriptStorageQuanta).toNat

/-- The rows the operation deletes, those of returned assets apart. -/
def deletedRows : ℕ :=
  match part.kind with
  | .transferNonFungible => part.instances.toNat
  | .burnNonFungible => (part.instanceSizes.map fun (rom, ram) =>
      instanceQuanta rom.toNat ram.toNat part.metaIdRow).sum
  | _ => 0

/-- The bytes the operation returns. -/
def resultSize : ℕ :=
  match part.kind with
  | .mintFungible | .burnFungible => if part.params.bigFungible.getD true then 33 else 9
  | .mintNonFungible => 4 + 8 * part.instances.toNat
  | .mintPhantasmaNonFungible => 4 + 40 * part.instances.toNat
  | .createToken => 8
  | .createTokenSeries => 4
  | .script => (part.params.scriptEventBytes.getD defaultScriptEventBytes).toNat
  | _ => 0

/-- The fee of a token, for its symbol and apart from it. -/
def tokenFee : UInt64 :=
  let v2 := config.hasGasModelV2
  let hasSymbol : Bool := 0 < part.params.symbolLength
  satAdd64 (if v2 then config.policyFeeCreateTokenBase else config.gasFeeCreateTokenBase)
    (if hasSymbol then
      (if v2 then config.policyFeeCreateTokenSymbol else config.gasFeeCreateTokenSymbol) >>>
        (shiftFor part.params.symbolLength).toUInt64 else 0)

/-- The work of the operation, that of returning assets included. -/
def work (returned : OperationModel) : UInt64 :=
  let infusionQuery := if part.params.toIsNftAddress then config.gasFeeQuery else 0
  let count := part.instances.toUInt64
  match part.kind with
  | .transferFungible | .mintFungible => satAdd64 config.gasFeeTransfer infusionQuery
  | .transferNonFungible | .mintNonFungible =>
    satAdd64 (satMul64 config.gasFeeTransfer count) infusionQuery
  | .burnFungible => config.gasFeeTransfer
  | .mintPhantasmaNonFungible =>
    let duplicatedSeries := part.params.duplicatedSeries.getD true
    satAdd64 (satAdd64
      (satMul64 (satAdd64 config.gasFeeTransfer
        (satMul64 config.gasFeeQuery (if duplicatedSeries then 3 else 2))) count)
      (satMul64 config.gasFeeQuery (if duplicatedSeries then
        (part.params.distinctSeriesCount.getD 1).toUInt64 else 0))) infusionQuery
  | .burnNonFungible =>
    satAdd64 (satMul64 (satAdd64 config.gasFeeTransfer (satMul64 config.gasFeeQuery 2)) count)
      returned.workUnits
  | .createToken =>
    let queries := satMul64 config.gasFeeQuery (quantum part.params.hasStakingOrganisation +
      quantum part.params.hasStakingRewardToken).toUInt64
    if config.hasGasModelV2 then queries else satAdd64 (part.tokenFee config) queries
  | .createTokenSeries => if config.hasGasModelV2 then 0 else config.gasFeeCreateTokenSeries
  | .registerName => if config.hasGasModelV2 then 0
      else config.gasFeeRegisterName >>> (shiftFor part.params.nameLength).toUInt64
  | .script => part.params.scriptUnitsAllowance.getD defaultScriptUnitsAllowance

/-- The policy fee of the operation. -/
def policy : UInt64 :=
  match part.kind with
  | .createToken => if config.hasGasModelV2 then part.tokenFee config else 0
  | .createTokenSeries => if config.hasGasModelV2 then config.policyFeeCreateTokenSeries else 0
  | .registerName => if config.hasGasModelV2 then
      config.policyFeeRegisterName >>> (shiftFor part.params.nameLength).toUInt64 else 0
  | _ => 0

/-- What the calculator does not refuse. -/
def Admitted : Prop :=
  part.instances ≠ 0 ∧
  match part.kind with
  | .mintNonFungible | .burnNonFungible =>
    SizedFor part.params.romBytes part.instances ∧ SizedFor part.params.ramBytes part.instances ∧
      ∀ sizes ∈ part.instanceSizes, 62 + sizes.1.toNat < 2 ^ 32 ∧
        (sizes.2.toNat ≠ 0 → 17 + sizes.2.toNat < 2 ^ 32)
  | .mintPhantasmaNonFungible =>
    SizedFor part.params.romBytes part.instances ∧ SizedFor part.params.ramBytes part.instances ∧
      (∀ sizes ∈ part.instanceSizes, 98 + 2 * sizes.1.toNat < 2 ^ 32 ∧
        (sizes.2.toNat ≠ 0 → 17 + sizes.2.toNat < 2 ^ 32)) ∧
      (part.params.duplicatedSeries.getD true → 1 ≤ part.params.distinctSeriesCount.getD 1 ∧
        part.params.distinctSeriesCount.getD 1 ≤ part.instances)
  | .createToken => LengthAdmitted part.params.symbolLength config.maxTokenSymbolLength ∧
      9 + part.params.tokenInfoBytes.toNat < 2 ^ 32
  | .createTokenSeries => 13 + part.params.seriesInfoBytes.toNat < 2 ^ 32
  | .registerName => part.params.nameLength ≠ 0 ∧
      LengthAdmitted part.params.nameLength config.maxNameLength
  | _ => True

/-- What the operation returns to the burner. -/
def returned : Result OperationModel :=
  if part.kind = .burnNonFungible then returnedAssets part.params config else pure {}

end

end NativeFeePart

/-! ## The calculator -/

/-- The model, by its fields. -/
structure OperationModel.Is (model : OperationModel) (work policy : UInt64)
    (result new deleted : ℕ) : Prop where
  workUnits : model.workUnits = work
  policyFee : model.policyFee = policy
  resultBytes : model.resultBytes.toNat = result
  newQuanta : model.newQuanta.toNat = new
  deletedQuanta : model.deletedQuanta.toNat = deleted

theorem pure_model_eq_ok {model : OperationModel} {work policy : UInt64}
    {result new deleted : UInt32} :
    (pure ⟨work, policy, result, new, deleted⟩ : Result OperationModel) = .ok model ↔
      model.Is work policy result.toNat new.toNat deleted.toNat := by
  rw [pure_eq_ok, Except.ok.injEq]
  constructor
  · rintro rfl
    exact ⟨rfl, rfl, rfl, rfl, rfl⟩
  · rintro ⟨rfl, rfl, hresult, hnew, hdeleted⟩
    rw [← UInt32.toNat_inj.1 hresult, ← UInt32.toNat_inj.1 hnew, ← UInt32.toNat_inj.1 hdeleted]

/-- A sum of rows that is created. -/
theorem sumU32_new_eq_ok {values : List UInt32} {model : OperationModel} {work policy : UInt64}
    {result deleted : UInt32} :
    (do let new ← sumU32 values
        pure ⟨work, policy, result, new, deleted⟩ : Result OperationModel) = .ok model ↔
      model.Is work policy result.toNat (values.map UInt32.toNat).sum deleted.toNat := by
  rw [bind_eq_ok]
  simp only [pure_model_eq_ok, sumU32_eq_ok]
  constructor
  · rintro ⟨new, hnew, h⟩
    rwa [hnew] at h
  · intro h
    exact ⟨model.newQuanta, h.newQuanta, { h with newQuanta := rfl }⟩

theorem OperationModel.is_congr {model : OperationModel} {work work' policy policy' : UInt64}
    {result result' new new' deleted deleted' : ℕ} (hw : work = work') (hp : policy = policy')
    (hr : result = result') (hn : new = new') (hd : deleted = deleted') :
    model.Is work policy result new deleted ↔ model.Is work' policy' result' new' deleted' := by
  subst hw hp hr hn hd
  rfl

section

variable {config : GasConfig} {params : NativeFeeParams} {model : OperationModel}

/-- The rows of instances, in words and as numbers. -/
theorem instanceRows_mapM_eq_ok {sizes : List (UInt32 × UInt32)} {metaId : Bool}
    {rows : List UInt32} :
    sizes.mapM (fun (rom, ram) => instanceRows rom ram (quantum metaId)) = .ok rows ↔
      (∀ size ∈ sizes, 62 + size.1.toNat < 2 ^ 32 ∧
        (size.2.toNat ≠ 0 → 17 + size.2.toNat < 2 ^ 32)) ∧
      rows.map UInt32.toNat = sizes.map fun (rom, ram) =>
        instanceQuanta rom.toNat ram.toNat metaId.toNat := by
  refine mapM_words_eq_ok (p := fun size : UInt32 × UInt32 => 62 + size.1.toNat < 2 ^ 32 ∧
    (size.2.toNat ≠ 0 → 17 + size.2.toNat < 2 ^ 32))
    (g := fun size => instanceQuanta size.1.toNat size.2.toNat metaId.toNat) fun size word => ?_
  rw [instanceRows_eq_ok, toNat_quantum, and_assoc]

theorem phantasmaRows_mapM_eq_ok {sizes : List (UInt32 × UInt32)} {rows : List UInt32} :
    sizes.mapM (fun (rom, ram) => do
      let stored ← phantasmaCanonicalRomBytes rom
      instanceRows stored ram 1) = .ok rows ↔
      (∀ size ∈ sizes, 98 + 2 * size.1.toNat < 2 ^ 32 ∧
        (size.2.toNat ≠ 0 → 17 + size.2.toNat < 2 ^ 32)) ∧
      rows.map UInt32.toNat = sizes.map fun (rom, ram) =>
        instanceQuanta (2 * rom.toNat + 36) ram.toNat 1 := by
  refine mapM_words_eq_ok (p := fun size : UInt32 × UInt32 => 98 + 2 * size.1.toNat < 2 ^ 32 ∧
    (size.2.toNat ≠ 0 → 17 + size.2.toNat < 2 ^ 32))
    (g := fun size => instanceQuanta (2 * size.1.toNat + 36) size.2.toNat 1) fun size word => ?_
  have hoverhead : phantasmaCanonicalRomOverhead.toNat = 36 := rfl
  have hcanonical (stored : UInt32) : phantasmaCanonicalRomBytes size.1 = .ok stored ↔
      stored.toNat = 2 * size.1.toNat + 36 := by
    rw [phantasmaCanonicalRomBytes, bind_eq_ok, hoverhead]
    constructor
    · rintro ⟨twice, htwice, h⟩
      rw [u32_eq_ok.1 h, u32_eq_ok.1 htwice, Nat.mul_comm]
    · intro h
      have hlt := stored.toNat_lt
      obtain ⟨twice, -, htwice⟩ := exists_word32 (n := size.1.toNat * 2) (by omega)
      exact ⟨twice, u32_eq_ok.2 htwice, u32_eq_ok.2 (by omega)⟩
  have hone : (1 : UInt32).toNat = 1 := rfl
  simp only [bind_eq_ok, hcanonical, instanceRows_eq_ok]
  constructor
  · rintro ⟨stored, hstored, hlt, hram, hword⟩
    rw [hstored] at hlt hword
    exact ⟨⟨by omega, hram⟩, hword⟩
  · rintro ⟨⟨hlt, hram⟩, hword⟩
    obtain ⟨stored, -, hstored⟩ := exists_word32 (n := 2 * size.1.toNat + 36) (by omega)
    exact ⟨stored, hstored, by omega, hram, by rw [hstored, hword, hone]⟩

/-- Checked words that are added up to further ones: their sum is all that is left of
    them. -/
theorem exists_sum_mapM_iff {α : Type} {f : α → Result UInt32} {p : α → Prop} {g : α → ℕ}
    (h : ∀ {as : List α} {words : List UInt32}, as.mapM f = .ok words ↔
      (∀ a ∈ as, p a) ∧ words.map UInt32.toNat = as.map g)
    {as : List α} (before : List UInt32) {q : UInt32 → Prop} :
    (∃ words, as.mapM f = .ok words ∧ ∃ sum, sumU32 (before ++ words) = .ok sum ∧ q sum) ↔
      (∀ a ∈ as, p a) ∧
        ∃ sum : UInt32, sum.toNat = (before.map UInt32.toNat).sum + (as.map g).sum ∧ q sum := by
  simp only [sumU32_eq_ok, List.map_append, List.sum_append]
  constructor
  · rintro ⟨words, hwords, sum, hsum, hq⟩
    obtain ⟨hp, hwords⟩ := h.1 hwords
    rw [hwords] at hsum
    exact ⟨hp, sum, hsum, hq⟩
  · rintro ⟨hp, sum, hsum, hq⟩
    have hlt := sum.toNat_lt
    have hfit (n : ℕ) (hn : n ∈ as.map g) : n < 2 ^ 32 := by
      have := List.le_sum_of_mem hn
      omega
    obtain ⟨words, hwords⟩ := exists_words hfit
    exact ⟨words, h.2 ⟨hp, hwords⟩, sum, by rw [hwords]; exact hsum, hq⟩

theorem mintNonFungible_eq_ok {part : NativeFeePart} (hkind : part.kind = .mintNonFungible) :
    operationModel part.kind config part.params part.instances = .ok model ↔
      (SizedFor part.params.romBytes part.instances ∧ SizedFor part.params.ramBytes part.instances ∧
        ∀ size ∈ part.instanceSizes, 62 + size.1.toNat < 2 ^ 32 ∧
          (size.2.toNat ≠ 0 → 17 + size.2.toNat < 2 ^ 32)) ∧
      model.Is (part.work config {}) (part.policy config) part.resultSize (part.newRows config)
        part.deletedRows := by
  obtain ⟨kind, params⟩ := part
  cases hkind
  simp only [operationModel, bind_eq_ok, perInstance_eq_ok, u32_eq_ok, pure_model_eq_ok]
  constructor
  · rintro ⟨roms, ⟨hroms, rfl⟩, rams, ⟨hrams, rfl⟩, h⟩
    obtain ⟨hfit, new, hnew, result, hresult, h⟩ :=
      (exists_sum_mapM_iff instanceRows_mapM_eq_ok [_, _]).1 h
    refine ⟨⟨hroms, hrams, hfit⟩, (OperationModel.is_congr rfl rfl hresult ?_ rfl).1 h⟩
    simp only [hnew, List.map_cons, List.map_nil, List.sum_cons, List.sum_nil, toNat_quantum]
    rfl
  · rintro ⟨⟨hroms, hrams, hfit⟩, h⟩
    refine ⟨_, ⟨hroms, rfl⟩, _, ⟨hrams, rfl⟩,
      (exists_sum_mapM_iff instanceRows_mapM_eq_ok [_, _]).2 ⟨hfit,
      model.newQuanta, ?_, model.resultBytes, h.resultBytes,
      { h with newQuanta := rfl, resultBytes := rfl }⟩⟩
    simp only [h.newQuanta, List.map_cons, List.map_nil, List.sum_cons, List.sum_nil, toNat_quantum]
    rfl

theorem seriesQueries_eq_ok {count : UInt32} {queries : UInt64} :
    (if params.duplicatedSeries.getD true = true then (do
      let distinct ← distinctSeries params count
      pure distinct.toUInt64) else pure 0 : Result UInt64) = .ok queries ↔
    (params.duplicatedSeries.getD true → 1 ≤ params.distinctSeriesCount.getD 1 ∧
      params.distinctSeriesCount.getD 1 ≤ count) ∧
    queries = if params.duplicatedSeries.getD true then
      (params.distinctSeriesCount.getD 1).toUInt64 else 0 := by
  by_cases h : params.duplicatedSeries.getD true = true
  · rw [if_pos h, if_pos h, bind_eq_ok]
    simp only [h, forall_const, distinctSeries_eq_ok, pure_eq_ok, Except.ok.injEq]
    constructor
    · rintro ⟨_, ⟨hle, rfl⟩, rfl⟩
      exact ⟨hle, rfl⟩
    · rintro ⟨hle, rfl⟩
      exact ⟨_, ⟨hle, rfl⟩, rfl⟩
  · rw [if_neg h, if_neg h, pure_eq_ok, Except.ok.injEq, eq_comm]
    exact ⟨fun hq => ⟨fun h' => absurd h' h, hq⟩, fun hq => hq.2⟩

theorem mintPhantasmaNonFungible_eq_ok {part : NativeFeePart}
    (hkind : part.kind = .mintPhantasmaNonFungible) :
    operationModel part.kind config part.params part.instances = .ok model ↔
      (SizedFor part.params.romBytes part.instances ∧ SizedFor part.params.ramBytes part.instances ∧
        (∀ size ∈ part.instanceSizes, 98 + 2 * size.1.toNat < 2 ^ 32 ∧
          (size.2.toNat ≠ 0 → 17 + size.2.toNat < 2 ^ 32)) ∧
        (part.params.duplicatedSeries.getD true → 1 ≤ part.params.distinctSeriesCount.getD 1 ∧
          part.params.distinctSeriesCount.getD 1 ≤ part.instances)) ∧
      model.Is (part.work config {}) (part.policy config) part.resultSize (part.newRows config)
        part.deletedRows := by
  obtain ⟨kind, params⟩ := part
  cases hkind
  simp only [operationModel, bind_eq_ok, perInstance_eq_ok, u32_eq_ok, pure_model_eq_ok,
    seriesQueries_eq_ok]
  constructor
  · rintro ⟨roms, ⟨hroms, rfl⟩, rams, ⟨hrams, rfl⟩, h⟩
    obtain ⟨hfit, new, hnew, queries, ⟨hdistinct, rfl⟩, result, hresult, h⟩ :=
      (exists_sum_mapM_iff phantasmaRows_mapM_eq_ok [_, _]).1 h
    refine ⟨⟨hroms, hrams, hfit, hdistinct⟩, (OperationModel.is_congr rfl rfl hresult ?_ rfl).1 h⟩
    simp only [hnew, List.map_cons, List.map_nil, List.sum_cons, List.sum_nil, toNat_quantum]
    rfl
  · rintro ⟨⟨hroms, hrams, hfit, hdistinct⟩, h⟩
    refine ⟨_, ⟨hroms, rfl⟩, _, ⟨hrams, rfl⟩,
      (exists_sum_mapM_iff phantasmaRows_mapM_eq_ok [_, _]).2 ⟨hfit,
      model.newQuanta, ?_, _, ⟨hdistinct, rfl⟩, model.resultBytes, h.resultBytes,
      { h with newQuanta := rfl, resultBytes := rfl }⟩⟩
    simp only [h.newQuanta, List.map_cons, List.map_nil, List.sum_cons, List.sum_nil, toNat_quantum]
    rfl

theorem burnNonFungible_eq_ok {part : NativeFeePart} (hkind : part.kind = .burnNonFungible) :
    operationModel part.kind config part.params part.instances = .ok model ↔
      (SizedFor part.params.romBytes part.instances ∧ SizedFor part.params.ramBytes part.instances ∧
        ∀ size ∈ part.instanceSizes, 62 + size.1.toNat < 2 ^ 32 ∧
          (size.2.toNat ≠ 0 → 17 + size.2.toNat < 2 ^ 32)) ∧
      ∃ returned, returnedAssets part.params config = .ok returned ∧
        model.Is (part.work config returned) (part.policy config) part.resultSize
          (part.newRows config + returned.newQuanta.toNat)
          (part.deletedRows + returned.deletedQuanta.toNat) := by
  obtain ⟨kind, params⟩ := part
  cases hkind
  simp only [operationModel, bind_eq_ok, perInstance_eq_ok, pure_model_eq_ok]
  constructor
  · rintro ⟨roms, ⟨hroms, rfl⟩, rams, ⟨hrams, rfl⟩, h⟩
    obtain ⟨hfit, rows, hrows, returned, hreturned, new, hnew, deleted, hdeleted, h⟩ :=
      (exists_sum_mapM_iff instanceRows_mapM_eq_ok []).1 h
    refine ⟨⟨hroms, hrams, hfit⟩, returned, hreturned,
      (OperationModel.is_congr rfl rfl rfl ?_ ?_).1 h⟩
    · simp only [sumU32_eq_ok.1 hnew, List.map_cons, List.map_nil, List.sum_cons, List.sum_nil,
        toNat_quantum]
      exact (Nat.add_assoc _ _ _).symm
    · simp only [sumU32_eq_ok.1 hdeleted, hrows, List.map_cons, List.map_nil, List.sum_cons,
        List.sum_nil]
      exact congrArg (· + _) (Nat.zero_add _)
  · rintro ⟨⟨hroms, hrams, hfit⟩, returned, hreturned, h⟩
    have hdeleted := h.deletedQuanta
    have hlt := model.deletedQuanta.toNat_lt
    obtain ⟨rows, -, hrows⟩ := exists_word32 (n := 0 + NativeFeePart.deletedRows
      ⟨.burnNonFungible, params⟩) (by omega)
    refine ⟨_, ⟨hroms, rfl⟩, _, ⟨hrams, rfl⟩,
      (exists_sum_mapM_iff instanceRows_mapM_eq_ok []).2 ⟨hfit,
      rows, hrows, returned, hreturned, model.newQuanta, sumU32_eq_ok.2 ?_, model.deletedQuanta,
      sumU32_eq_ok.2 ?_, { h with newQuanta := rfl, deletedQuanta := rfl }⟩⟩
    · simp only [h.newQuanta, List.map_cons, List.map_nil, List.sum_cons, List.sum_nil,
        toNat_quantum]
      exact Nat.add_assoc _ _ _
    · simp only [h.deletedQuanta, hrows, List.map_cons, List.map_nil, List.sum_cons,
        List.sum_nil]
      omega

theorem createToken_sum (symbol nonFungible preBurn schedule : Bool) (row : UInt32) :
    ([quantum symbol, row, 1, quantum nonFungible, quantum preBurn, quantum schedule].map
      UInt32.toNat).sum = symbol.toNat + row.toNat + 1 + nonFungible.toNat + preBurn.toNat +
        schedule.toNat := by
  simp only [List.map_cons, List.map_nil, List.sum_cons, List.sum_nil, toNat_quantum,
    UInt32.toNat_one]
  omega

theorem stakingQueries_eq_iff {a b : Bool} {queries : UInt32} :
    queries.toNat = ([quantum a, quantum b].map UInt32.toNat).sum ↔
      queries = quantum a + quantum b := by
  have hsum : ([quantum a, quantum b].map UInt32.toNat).sum = (quantum a + quantum b).toNat := by
    cases a <;> cases b <;> rfl
  rw [hsum, UInt32.toNat_inj]

theorem createToken_eq_ok {part : NativeFeePart} (hkind : part.kind = .createToken) :
    operationModel part.kind config part.params part.instances = .ok model ↔
      (LengthAdmitted part.params.symbolLength config.maxTokenSymbolLength ∧
        9 + part.params.tokenInfoBytes.toNat < 2 ^ 32) ∧
      model.Is (part.work config {}) (part.policy config) part.resultSize (part.newRows config)
        part.deletedRows := by
  obtain ⟨kind, params⟩ := part
  cases hkind
  have hkey : tokenInfoKeyBytes.toNat = 9 := rfl
  simp only [operationModel, bind_eq_ok, symbolShift_eq_ok, u32_eq_ok, pure_model_eq_ok,
    sumU32_eq_ok, hkey]
  constructor
  · rintro ⟨shift, ⟨hadmitted, rfl⟩, infoRow, hinfo, new, hnew, queries, hqueries, h⟩
    have hlt := infoRow.toNat_lt
    rw [stakingQueries_eq_iff] at hqueries
    subst hqueries
    refine ⟨⟨hadmitted, by omega⟩, (OperationModel.is_congr rfl rfl rfl ?_ rfl).1 h⟩
    rw [hnew, createToken_sum, toNat_storageQuantaFor, hinfo]
    rfl
  · rintro ⟨⟨hadmitted, hlt⟩, h⟩
    obtain ⟨infoRow, -, hinfo⟩ := exists_word32 hlt
    refine ⟨_, ⟨hadmitted, rfl⟩, infoRow, hinfo, model.newQuanta, ?_, _,
      stakingQueries_eq_iff.2 rfl, { h with newQuanta := rfl }⟩
    rw [h.newQuanta, createToken_sum, toNat_storageQuantaFor, hinfo]
    rfl

theorem createTokenSeries_sum (row : UInt32) (metaId : Bool) :
    ([row, 1, quantum metaId].map UInt32.toNat).sum = row.toNat + 1 + metaId.toNat := by
  simp only [List.map_cons, List.map_nil, List.sum_cons, List.sum_nil, toNat_quantum,
    UInt32.toNat_one]
  omega

theorem createTokenSeries_eq_ok {part : NativeFeePart} (hkind : part.kind = .createTokenSeries) :
    operationModel part.kind config part.params part.instances = .ok model ↔
      13 + part.params.seriesInfoBytes.toNat < 2 ^ 32 ∧
      model.Is (part.work config {}) (part.policy config) part.resultSize (part.newRows config)
        part.deletedRows := by
  obtain ⟨kind, params⟩ := part
  cases hkind
  have hkey : seriesInfoKeyBytes.toNat = 13 := rfl
  simp only [operationModel, bind_eq_ok, u32_eq_ok, pure_model_eq_ok, sumU32_eq_ok, hkey]
  constructor
  · rintro ⟨infoRow, hinfo, new, hnew, h⟩
    have hlt := infoRow.toNat_lt
    refine ⟨by omega, (OperationModel.is_congr rfl rfl rfl ?_ rfl).1 h⟩
    rw [hnew, createTokenSeries_sum, toNat_storageQuantaFor, hinfo]
    rfl
  · rintro ⟨hlt, h⟩
    obtain ⟨infoRow, -, hinfo⟩ := exists_word32 hlt
    refine ⟨infoRow, hinfo, model.newQuanta, ?_, { h with newQuanta := rfl }⟩
    rw [h.newQuanta, createTokenSeries_sum, toNat_storageQuantaFor, hinfo]
    rfl

theorem sum_pair (a b : UInt32) : ([a, b].map UInt32.toNat).sum = a.toNat + b.toNat := by
  simp only [List.map_cons, List.map_nil, List.sum_cons, List.sum_nil, Nat.add_zero]

theorem registerName_eq_ok {part : NativeFeePart} (hkind : part.kind = .registerName) :
    operationModel part.kind config part.params part.instances = .ok model ↔
      (part.params.nameLength ≠ 0 ∧ LengthAdmitted part.params.nameLength config.maxNameLength) ∧
      model.Is (part.work config {}) (part.policy config) part.resultSize (part.newRows config)
        part.deletedRows := by
  obtain ⟨kind, params⟩ := part
  cases hkind
  simp only [operationModel, ne_eq]
  by_cases h0 : params.nameLength = 0
  · rw [if_pos h0]
    exact ⟨nofun, fun h => absurd h0 h.1.1⟩
  · simp only [if_neg h0, bind_eq_ok, symbolShift_eq_ok, pure_model_eq_ok]
    constructor
    · rintro ⟨shift, ⟨hadmitted, rfl⟩, h⟩
      exact ⟨⟨h0, hadmitted⟩, h⟩
    · rintro ⟨⟨-, hadmitted⟩, h⟩
      exact ⟨_, ⟨hadmitted, rfl⟩, h⟩

/-- What the calculator charges for an operation that it does not refuse. -/
theorem partModel_eq_ok {part : NativeFeePart} : partModel config part = .ok model ↔
    part.Admitted config ∧ ∃ returned, part.returned config = .ok returned ∧
      model.Is (part.work config returned) (part.policy config) part.resultSize
        (part.newRows config + returned.newQuanta.toNat)
        (part.deletedRows + returned.deletedQuanta.toNat) := by
  -- Only burns return anything.
  have nothing (h : part.kind ≠ .burnNonFungible) :
      (∃ returned, part.returned config = .ok returned ∧
        model.Is (part.work config returned) (part.policy config) part.resultSize
          (part.newRows config + returned.newQuanta.toNat)
          (part.deletedRows + returned.deletedQuanta.toNat)) ↔
        model.Is (part.work config {}) (part.policy config) part.resultSize (part.newRows config)
          part.deletedRows := by
    simp only [NativeFeePart.returned, if_neg h, pure_eq_ok, Except.ok.injEq, exists_eq_left']
    rfl
  by_cases h0 : part.instances = 0
  · rw [partModel, NativeFeePart.Admitted]
    rw [NativeFeePart.instances] at h0
    simp only [h0, if_true, builder]
    exact iff_of_false (by rintro ⟨⟩) fun h => absurd h0 h.1.1
  have hmodel : partModel config part = operationModel part.kind config part.params part.instances :=
    if_neg h0
  have hadmitted {p : Prop} : (part.instances ≠ 0 ∧ p) ↔ p := and_iff_right h0
  rw [hmodel, NativeFeePart.Admitted, hadmitted]
  obtain ⟨kind, params⟩ := part
  cases kind with
  | burnNonFungible => exact burnNonFungible_eq_ok rfl
  | mintNonFungible =>
    exact (mintNonFungible_eq_ok rfl).trans (and_congr_right' (nothing (by simp)).symm)
  | mintPhantasmaNonFungible =>
    exact (mintPhantasmaNonFungible_eq_ok rfl).trans (and_congr_right' (nothing (by simp)).symm)
  | createToken =>
    exact (createToken_eq_ok rfl).trans (and_congr_right' (nothing (by simp)).symm)
  | createTokenSeries =>
    exact (createTokenSeries_eq_ok rfl).trans (and_congr_right' (nothing (by simp)).symm)
  | registerName =>
    exact (registerName_eq_ok rfl).trans (and_congr_right' (nothing (by simp)).symm)
  | script => exact pure_model_eq_ok.trans ((and_iff_right trivial).trans (nothing (by simp))).symm
  | transferFungible =>
    refine (pure_model_eq_ok.trans ?_).trans ((and_iff_right trivial).trans (nothing (by simp))).symm
    rw [toNat_quantum]
    rfl
  | transferNonFungible =>
    refine (sumU32_new_eq_ok.trans ?_).trans ((and_iff_right trivial).trans (nothing (by simp))).symm
    rw [sum_pair, toNat_quantum]
    rfl
  | mintFungible | burnFungible =>
    refine (sumU32_new_eq_ok.trans ?_).trans ((and_iff_right trivial).trans (nothing (by simp))).symm
    rw [sum_pair, toNat_quantum, toNat_quantum, apply_ite UInt32.toNat]
    rfl

end

end PhantasmaSdk
