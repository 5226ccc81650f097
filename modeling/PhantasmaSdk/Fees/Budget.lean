import PhantasmaSdk.Fees.Compare

/-!
# The rows of a message

The sums of a batch are those of its parts as they are stated, and of what the first burn
among them returns (`sums_of_mapM`): each asset is counted once, with whatever burn it
is attached to.
-/

namespace PhantasmaSdk

open Machine

/-! ## Bounds -/

theorem sizesFor_eq {values : List UInt32} {count : UInt32} (h : values.length = count.toNat) :
    sizesFor values count = values := by
  match values with
  | [] =>
    rw [sizesFor, ← h]
    rfl
  | [value] =>
    rw [sizesFor, ← h]
    rfl
  | _ :: _ :: _ => rfl

/-- The rows of burned instances. -/
theorem burnedRows_eq (count : UInt32) (metaId : ℕ) :
    (((sizesFor [] count).zip (sizesFor [] count)).map fun (rom, ram) =>
      instanceQuanta rom.toNat ram.toNat metaId).sum = count.toNat * (3 + metaId) := by
  have hrow : instanceQuanta 0 0 metaId = 3 + metaId := by
    rw [instanceQuanta, if_pos rfl, rowQuanta]
  simp only [sizesFor, List.zip_replicate', List.map_replicate, List.sum_replicate, smul_eq_mul,
    UInt32.toNat_zero, hrow]

theorem factRow_le_one (known free : Bool) : factRow known free ≤ 1 := Bool.toNat_le _

/-! ## Lengths -/

theorem le_of_lengthAdmitted {length : UInt32} {maxLength : UInt8}
    (h : LengthAdmitted length maxLength) : length ≤ maxPriceableLength := by
  by_cases h0 : length = 0
  · rw [h0]
    decide
  · exact UInt32.not_lt.1 (h h0).2

/-! ## Batches -/

section

variable {config : GasConfig} {o : FeePlanOptions} {infusions : List InfusedAsset}
  {parts : List NativeFeePart} {models : List OperationModel}

/-- What burns of the parts return, if there are any. -/
def returnedBy (config : GasConfig) (infusions : List InfusedAsset) (parts : List NativeFeePart) :
    Result OperationModel :=
  if .burnNonFungible ∈ parts.map NativeFeePart.kind then
    returnedAssets { infusions := some infusions } config
  else pure {}

theorem returned_attached_eq (part : NativeFeePart) :
    (part.attached o infusions).returned config = returnedBy config infusions [part] := by
  rw [NativeFeePart.attached, NativeFeePart.returned, returnedBy]
  by_cases hkind : part.kind = .burnNonFungible
  · rw [if_pos hkind, if_pos (by simp [hkind]), if_pos (by simp [hkind])]
    rfl
  · rw [if_neg hkind, if_neg (by simp [hkind]), if_neg (by simp [Ne.symm hkind])]

theorem returnedBy_nil (parts : List NativeFeePart) : returnedBy config [] parts = .ok {} := by
  rw [returnedBy]
  split <;> rfl

theorem returnedBy_cons {part : NativeFeePart} (hkind : part.kind ≠ .burnNonFungible) :
    returnedBy config infusions (part :: parts) = returnedBy config infusions parts := by
  unfold returnedBy
  simp only [List.map_cons, List.mem_cons, Ne.symm hkind, false_or]

theorem returnedBy_cons_burn {part : NativeFeePart} (hkind : part.kind = .burnNonFungible) :
    returnedBy config infusions (part :: parts) = returnedBy config infusions [part] := by
  unfold returnedBy
  simp only [List.map_cons, List.mem_cons, hkind, true_or]

/-- The rows and bytes of a batch are those of its parts, and what is returned. -/
theorem sums_of_mapM
    (hm : (attachedAll o infusions parts).mapM (partModel config) = .ok models) :
    ∃ returned, returnedBy config infusions parts = .ok returned ∧
      (models.map fun model => model.resultBytes.toNat).sum =
        (parts.map fun part => (part.stated o).resultSize).sum ∧
      (models.map fun model => model.newQuanta.toNat).sum =
        (parts.map fun part => (part.stated o).newRows config).sum + returned.newQuanta.toNat ∧
      (models.map fun model => model.deletedQuanta.toNat).sum =
        (parts.map fun part => (part.stated o).deletedRows).sum +
          returned.deletedQuanta.toNat := by
  induction parts generalizing infusions models with
  | nil =>
    rw [← Except.ok.inj hm]
    exact ⟨{}, rfl, rfl, rfl, rfl⟩
  | cons part parts ih =>
    rw [attachedAll, List.mapM_cons, bind_eq_ok] at hm
    obtain ⟨model, hmodel, hm⟩ := hm
    obtain ⟨rest, hrest, hm⟩ := bind_eq_ok.1 hm
    rw [← Except.ok.inj hm]
    obtain ⟨-, returned, hreturned, hmodel⟩ := partModel_eq_ok.1 hmodel
    rw [newRows_attached, deletedRows_attached, resultSize_attached] at hmodel
    rw [returned_attached_eq] at hreturned
    obtain ⟨returned', hreturned', hresult, hnew, hdeleted⟩ := ih hrest
    simp only [List.map_cons, List.sum_cons, hmodel.resultBytes, hmodel.newQuanta,
      hmodel.deletedQuanta, hresult, hnew, hdeleted]
    by_cases hkind : part.kind = .burnNonFungible
    · -- The burn returns what there is, and nothing is left for the rest.
      rw [if_pos hkind, returnedBy_nil] at hreturned'
      rw [returnedBy_cons_burn hkind, ← Except.ok.inj hreturned']
      refine ⟨returned, hreturned, trivial, ?_, ?_⟩ <;>
        simp only [UInt32.toNat_zero] <;> omega
    · rw [if_neg hkind] at hreturned'
      rw [returnedBy, if_neg (by simp [Ne.symm hkind])] at hreturned
      rw [returnedBy_cons hkind, ← Except.ok.inj hreturned]
      refine ⟨returned', hreturned', trivial, ?_, ?_⟩ <;>
        simp only [UInt32.toNat_zero] <;> omega

end

end PhantasmaSdk
