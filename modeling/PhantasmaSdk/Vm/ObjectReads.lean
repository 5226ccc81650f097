import PhantasmaSdk.Codec.Counted
import PhantasmaSdk.Vm.Object

/-!
# How many objects are read

A struct says how many items follow, up to `2 ^ 64 - 1`, and each of them is two
objects. They are read until the bytes are: each object that is read takes a byte at
least, hence no more objects are begun than there are bytes, and one more
(`VMObject.countReads_spec`).
-/

namespace PhantasmaSdk.Vm

open Codec Codec.Decoder Codec.Counted CarbonReader BinaryReader

namespace VMObject

/-! ## Counting -/

/-- What comes after the type of an object, given the counting reader of objects. Only
    a struct has objects in it. -/
def countBody (read : Counted UInt8 Fault VMObject) : VMType → Counted UInt8 Fault VMObject
  | .struct => do
    let count ← uncounted readVarUint
    let items ← (do
      let key ← read
      let value ← read
      pure (key, value) : Counted UInt8 Fault (VMObject × VMObject)).replicate count.toNat
    pure (struct items)
  | t => uncounted (readBody (fail (.panic .stackOverflow)) t)

/-- An object, counting the objects that are begun to be read. -/
def countReads : ℕ → Counted UInt8 Fault VMObject
  | 0 => (uncounted (fail (.panic .stackOverflow))).tick
  | depth + 1 => Counted.tick do
    let code ← uncounted readU8
    let vmType ← uncounted (lift (VMType.tryFrom code))
    countBody (countReads depth) vmType

/-- The count forgotten, the object is read. -/
theorem counts_countReads (depth : ℕ) : (countReads depth).Counts (read depth) := by
  induction depth with
  | zero => exact counts_uncounted _
  | succ depth ih =>
    refine Counts.tick ?_
    refine (counts_uncounted _).bind fun code => (counts_uncounted _).bind fun t => ?_
    cases t with
    | struct =>
      refine (counts_uncounted _).bind fun count => Counts.bind ?_ fun _ => counts_pure _
      exact Counts.replicate (ih.bind fun _ => ih.bind fun _ => counts_pure _) _
    | _ => exact counts_uncounted _

/-- Nothing but a struct has objects in it. -/
theorem yields_readBody {t : VMType} (h : t ≠ .struct) (read : Reader VMObject) :
    (readBody read t).Yields fun _ _ => True := by
  cases t with
  | struct => exact absurd rfl h
  | none => exact yields_pure trivial
  | bytes => exact (yields_readVarBytes _).bind fun _ _ _ => yields_pure trivial
  | number =>
    refine Yields.bind (P := fun _ _ => True) ?_ fun _ _ _ => yields_pure trivial
    exact (yields_readVarBytes _).bind fun _ _ _ => yields_pure trivial
  | string =>
    refine Yields.bind (P := fun _ _ => True) ?_ fun _ _ _ => yields_pure trivial
    exact (yields_readVarBytes _).bind fun raw _ _ => (yields_textOf raw).mono fun _ _ _ => trivial
  | timestamp => exact (yields_readLE _ _).bind fun _ _ _ => yields_pure trivial
  | bool => exact yields_readBool.bind fun _ _ _ => yields_pure trivial
  | enum => exact (yields_readLE _ _).bind fun _ _ _ => yields_pure trivial
  | object =>
    refine (yields_readVarBytes _).bind fun value _ _ => ?_
    split
    · exact yields_pure trivial
    · exact yields_pure trivial

theorem paced_countReads (depth : ℕ) : (countReads depth).Paced := by
  have hbody {c : Counted UInt8 Fault VMObject} (hc : c.Paced) (t : VMType) :
      (countBody c t).Paced := by
    cases t with
    | struct =>
      refine (paced_uncounted yields_readVarUint).bind fun count =>
        Paced.bind ?_ fun _ => paced_pure _
      exact Paced.replicate (hc.bind fun _ => hc.bind fun _ => paced_pure _) _
    | none | bytes | number | string | timestamp | bool | enum | object =>
      exact paced_uncounted (yields_readBody (by decide) _)
  have hcode : readU8.Yields fun _ used => 0 < used.length :=
    (yields_readLE 1 UInt8.ofNat).mono fun _ _ ⟨_, _, _, hused⟩ => by
      rw [hused, length_toLE]
      exact one_pos
  induction depth with
  | zero => exact paced_tick_fail _
  | succ depth ih =>
    exact Paced.tick_bind hcode fun code =>
      (paced_uncounted (yields_lift (P := fun _ _ => True) fun _ _ => trivial)).bind (hbody ih)

/-- An object that is read takes a byte for each object that was begun. -/
theorem length_add_count_le {depth : ℕ} {data rest : Bytes} {value : VMObject}
    (h : (read depth).run data = .ok (value, rest)) :
    rest.length + (countReads depth).count data ≤ data.length :=
  (paced_countReads depth).ok ((counts_countReads depth data).trans h)

theorem count_pos (depth : ℕ) (data : Bytes) : 0 < (countReads depth).count data := by
  cases depth with
  | zero => exact Nat.succ_pos _
  | succ depth => exact Nat.succ_pos _

theorem count_le (depth : ℕ) (data : Bytes) :
    (countReads depth).count data ≤ data.length + 1 := by
  match hrun : (countReads depth).result data with
  | .ok (value, rest) =>
    have hle := (paced_countReads depth).ok hrun
    omega
  | .error e => exact (paced_countReads depth).error hrun

/-! ## Depth -/

theorem noPanic_tryFrom (code : UInt8) : NoPanic (VMType.tryFrom code) := by
  rw [VMType.tryFrom.eq_def]
  split
  all_goals first | exact noPanic_ok _ | exact noPanic_serialization _

/-- What comes after the type is safe to read where short inputs are for the reader. -/
theorem safe_readBody {d : Reader VMObject} {n : ℕ}
    (hle : ∀ {input rest : Bytes} {v : VMObject}, d.run input = .ok (v, rest) →
      rest.length ≤ input.length)
    (hd : ∀ {input : Bytes}, input.length ≤ n → d.Safe input) (t : VMType) {input : Bytes}
    (hinput : input.length ≤ n) : (readBody d t).Safe input := by
  cases t with
  | struct =>
    refine safeOn_bind.2 ⟨safe_readVarUint, fun count mid hcount => ?_⟩
    obtain ⟨used, rfl, -⟩ := yields_readVarUint _ _ _ hcount
    rw [List.length_append] at hinput
    refine (SafeOn.replicate (n := n) ?_ ?_ _ (by omega)).bind fun _ => safeOn_pure _ _
    · intro input rest item h
      obtain ⟨key, mid, hkey, h⟩ := run_bind_eq_ok.1 h
      obtain ⟨value, mid', hvalue, h⟩ := run_bind_eq_ok.1 h
      obtain ⟨-, rfl⟩ := Prod.mk.inj (Except.ok.inj h)
      exact (hle hvalue).trans (hle hkey)
    · intro input h
      refine safeOn_bind.2 ⟨hd h, fun key mid hkey => ?_⟩
      exact (hd ((hle hkey).trans h)).bind fun _ => safeOn_pure _ _
  | none => exact safeOn_pure _ _
  | bytes => exact (safe_readVarBytes _).bind fun _ => safeOn_pure _ _
  | number =>
    exact SafeOn.bind ((safe_readVarBytes _).bind fun _ => safeOn_pure _ _) fun _ =>
      safeOn_pure _ _
  | string =>
    exact SafeOn.bind ((safe_readVarBytes _).bind fun raw => safe_textOf raw) fun _ =>
      safeOn_pure _ _
  | timestamp => exact (safe_readLE _ _).bind fun _ => safeOn_pure _ _
  | bool => exact safe_readBool.bind fun _ => safeOn_pure _ _
  | enum => exact (safe_readLE _ _).bind fun _ => safeOn_pure _ _
  | object =>
    refine (safe_readVarBytes _).bind fun value => ?_
    split
    · exact safeOn_pure _ _
    · exact safeOn_pure _ _

/-- Reading does not panic, if the stack is deeper than there are bytes. -/
theorem safe_read {depth : ℕ} {data : Bytes} (h : data.length < depth) :
    (read depth).Safe data := by
  induction depth generalizing data with
  | zero => cases h
  | succ depth ih =>
    refine safeOn_bind.2 ⟨safe_readLE _ _, fun code mid hcode => ?_⟩
    obtain ⟨used, rfl, _, _, _, hused⟩ := yields_readLE 1 UInt8.ofNat _ _ _ hcode
    -- The byte of the type is read, before an object in it is.
    rw [List.length_append, hused, length_toLE] at h
    refine safeOn_bind.2 ⟨safeOn_lift (noPanic_tryFrom code) _, fun t mid' ht => ?_⟩
    obtain ⟨used', rfl, hnil⟩ :=
      yields_lift (P := fun _ used => used = []) (fun _ _ => rfl) _ _ _ ht
    refine safe_readBody (n := mid'.length) (fun hrun => ?_) (fun hle => ih ?_) t le_rfl
    · have hcount := length_add_count_le hrun
      omega
    · rw [hnil, List.nil_append] at h
      omega

/-- Whatever the bytes say, at most as many objects are begun as there are bytes, and
    one more; one that is read takes a byte at least, and one for each object in it.
    Nor are more of them nested than there are bytes. -/
theorem countReads_spec :
    (∀ depth data, (countReads depth).result data = (read depth).run data ∧
      (countReads depth).count data ≤ data.length + 1 ∧
      ∀ value rest, (read depth).run data = .ok (value, rest) →
        rest.length < data.length ∧ rest.length + (countReads depth).count data ≤ data.length) ∧
    ∀ data extra, (read (data.length + 1 + extra)).Safe data := by
  refine ⟨fun depth data => ⟨counts_countReads depth data, count_le depth data, ?_⟩, ?_⟩
  · intro value rest h
    have hle := length_add_count_le h
    have hpos := count_pos depth data
    exact ⟨by omega, hle⟩
  · exact fun data extra => safe_read (by omega)

end VMObject

end PhantasmaSdk.Vm
