import PhantasmaSdk.Carbon.Records
import PhantasmaSdk.Carbon.VmRoundTrip
import PhantasmaSdk.Codec.Tame
import Mathlib.Data.List.TakeWhile

/-!
# VM values off any bytes

A VM value holds others, at any depth, and says itself of which type each of them is.
The reader calls itself for each of them, and does not limit how deep: on the stack it
has, bytes that nest too deep overflow it. Nothing else makes it panic, and no bytes do
that are no more than the stack holds calls (`SelfDescribed.hostile`): every call but those
a schema makes for its fields is made after a byte was read, and those nest no deeper
than the schema does. No more elements are asked for than there are bytes, and what is
read to its end is refused when it is cut short, whoever wrote it.
-/

namespace PhantasmaSdk

open Codec Codec.Decoder CarbonWriter CarbonReader

variable {α : Type}

/-- Reading on any input is tame. -/
abbrev Reader.Tame (d : Reader α) : Prop := Decoder.Tame Fault.IsPanic d

/-- On input no longer than `n`, the readers read alike. -/
abbrev Reader.Settles (bound n : ℕ) (d d' : Reader α) : Prop :=
  Decoder.Settles Fault.IsPanic bound n d d'

/-! ## Fields -/

namespace CarbonReader

theorem tame_refuse (message : String) : (refuse message : Reader α).Tame :=
  tame_fail (Fault.not_isPanic_error _)

theorem tame_read (count : ℕ) : (read count).Tame := tame_take count (Fault.not_isPanic_error _)

theorem quiet_read (count : ℕ) : (read count).Quiet := requests_take count _

theorem quiet_readArray (n : ℕ) : (readArray n).Quiet :=
  (quiet_read n).bind fun raw => by
    split
    · exact requests_pure _
    · exact requests_fail _

theorem tame_readArray (n : ℕ) : (readArray n).Tame :=
  (quiet_readArray n).tame (fun _ => safe_readArray n) (yields_readArray n) (steady_readArray n)

theorem tame_readLE (n : ℕ) (ofNat : ℕ → α) : (readLE n ofNat).Tame :=
  (tame_readArray n).map _

theorem quiet_readLE (n : ℕ) (ofNat : ℕ → α) : (readLE n ofNat).Quiet :=
  (quiet_readArray n).bind fun _ => requests_pure _

theorem tame_readBigIntWithHeader (header : UInt8) : (readBigIntWithHeader header).Tame := by
  have hquiet : (readBigIntWithHeader header).Quiet := by
    rw [readBigIntWithHeader]
    split
    · exact requests_pure _
    simp only
    split
    · exact requests_fail _
    generalize (if header &&& 0x80 ≠ 0 then 0xFF else 0x00 : UInt8) = fill
    refine Quiet.bind ?_ fun raw => ?_
    · split
      · exact quiet_read _
      · exact requests_pure _
    · split
      · split
        · exact requests_fail _
        · exact requests_pure _
      · exact requests_fail _
  exact hquiet.tame (fun _ => safe_readBigIntWithHeader header) (IntX.yields_readBigIntWithHeader header)
    (steady_readBigIntWithHeader header)

theorem tame_readBigInt : readBigInt.Tame :=
  (tame_readLE 1 _).bind tame_readBigIntWithHeader

theorem quiet_readLengthFor (size : ℕ) : (readLengthFor size).Quiet := by
  rw [readLengthFor]
  split
  · exact requests_fail _
  refine (quiet_readLE 4 _).bind fun length => ?_
  split
  · exact requests_fail _
  simp only
  split
  · exact requests_fail _
  refine Quiet.bind requests_remaining fun left => ?_
  split
  · exact requests_fail _
  · exact requests_pure _

theorem tame_readLengthFor (size : ℕ) : (readLengthFor size).Tame :=
  (quiet_readLengthFor size).tame (fun _ => safe_readLengthFor size) (yields_readLengthFor size)
    (steady_readLengthFor size)

theorem tame_array {d : Reader α} (hd : d.Tame) (size : ℕ) :
    (do let count ← readLengthFor size; d.replicate count : Reader (List α)).Tame :=
  (tame_readLengthFor size).bind hd.replicate

/-- As many bytes follow an accepted length as it has elements. -/
theorem le_of_run_readLengthFor {size n : ℕ} {input rest : Bytes} (hsize : 0 < size)
    (h : (readLengthFor size).run input = .ok (n, rest)) : n ≤ rest.length := by
  rw [readLengthFor, if_neg hsize.ne'] at h
  obtain ⟨length, mid, -, h⟩ := run_bind_eq_ok.1 h
  split at h
  · cases h
  simp only at h
  split at h
  · cases h
  rw [run_bind_of_ok (run_remaining mid)] at h
  split at h
  next => cases h
  next hle =>
    obtain ⟨rfl, rfl⟩ := Prod.mk.inj (Except.ok.inj h)
    exact (Nat.le_mul_of_pos_right _ hsize).trans (not_lt.1 hle)

/-- A reserved array: what it asks for is there to be read. -/
theorem tame_readReserved {d : Reader α} (hd : d.Tame) {size : ℕ} (hsize : 0 < size) :
    (readReserved size d).Tame := by
  have harray := tame_array hd size
  refine ⟨fun he => harray.mild (run_readReserved size d _ ▸ he),
    fun he => harray.rest_le (run_readReserved size d _ ▸ he), fun {input} r hr => ?_,
    (tame_readLengthFor size).steady.bind fun count => (steady_reserve count).bind fun _ =>
      (hd.replicate count).steady⟩
  rw [readReserved] at hr
  cases hrun : (readLengthFor size).run input with
  | error e =>
    rw [requests_bind_of_error hrun, quiet_readLengthFor] at hr
    cases hr
  | ok p =>
    obtain ⟨count, mid⟩ := p
    have hmid := (tame_readLengthFor size).rest_le hrun
    rw [requests_bind_of_ok hrun, quiet_readLengthFor, List.nil_append,
      requests_bind_of_ok (run_reserve count mid), requests_reserve, List.mem_append,
      List.mem_singleton] at hr
    rcases hr with rfl | hr
    · exact (le_of_run_readLengthFor hsize hrun).trans hmid
    · exact ((hd.replicate count).count_le r hr).trans hmid

theorem tame_textOf (raw : Bytes) : (textOf raw).Tame := by
  rw [textOf]
  split
  · exact tame_pure _
  · exact tame_refuse _

theorem quiet_readUntilZero : readUntilZero.Quiet := by
  intro input
  rw [requests, readUntilZero]
  split <;> rfl

theorem safe_readUntilZero (input : Bytes) : readUntilZero.Safe input := by
  refine ⟨fun e he => ?_, by rw [quiet_readUntilZero]; nofun⟩
  rw [run, readUntilZero] at he
  split at he
  · cases he
  · exact Except.error.inj he ▸ Fault.not_isPanic_error _

theorem yields_readUntilZero : readUntilZero.Yields fun raw used => 0 ∉ raw ∧ used = raw ++ [0] := by
  intro input raw rest hrun
  rw [run, readUntilZero] at hrun
  split at hrun
  next raw' b rest' hspan =>
    obtain ⟨rfl, rfl⟩ := Prod.mk.inj (Except.ok.inj hrun)
    rw [List.span_eq_takeWhile_dropWhile] at hspan
    obtain ⟨hraw, hdrop⟩ := Prod.mk.inj hspan
    have hzero := List.head?_dropWhile_not (fun b : UInt8 => decide (b ≠ 0)) input
    rw [hdrop] at hzero
    obtain rfl : b = 0 := by simpa using hzero
    refine ⟨raw' ++ [0], ?_, fun hmem => ?_, rfl⟩
    · rw [← List.takeWhile_append_dropWhile (p := fun b : UInt8 => decide (b ≠ 0)) (l := input),
        hraw, hdrop, List.append_assoc]
      rfl
    · rw [← hraw] at hmem
      simpa using List.mem_takeWhile_imp hmem
  next => cases hrun

theorem tame_readUntilZero : readUntilZero.Tame :=
  quiet_readUntilZero.tame safe_readUntilZero yields_readUntilZero
    (steady_of_reads yields_readUntilZero (fun raw used h => by
      obtain ⟨hraw, rfl⟩ := h
      exact reads_readUntilZero hraw) safe_readUntilZero)

theorem tame_readStringZ : readStringZ.Tame := tame_readUntilZero.bind tame_textOf

theorem tame_readByteArray : readByteArray.Tame := (tame_readLengthFor 1).bind tame_read

end CarbonReader

/-! ## Values without variables -/

theorem SmallString.tame_readCarbon : (readCarbon : Reader SmallString).Tame :=
  (tame_readLE 1 _).bind fun _ => (tame_read _).bind fun _ => (tame_textOf _).map _

theorem VMType.tame_read : VMType.read.Tame :=
  (tame_readLE 1 _).bind fun value => tame_lift fun e he => by
    rw [tryFrom] at he
    split at he <;> cases he
    exact Fault.not_isPanic_error _

/-- A value that holds no variables is read tamely off any bytes. -/
theorem tame_readLeaf (vmType : VMType) : (readLeaf vmType).Tame := by
  cases vmType with
  | bytes => exact tame_readByteArray.map _
  | int8 => exact (tame_readLE 1 _).map _
  | int16 => exact (tame_readLE 2 _).map _
  | int32 => exact (tame_readLE 4 _).map _
  | int64 => exact (tame_readLE 8 _).map _
  | int256 => exact tame_readBigInt.map _
  | bytes16 => exact (tame_readArray 16).map _
  | bytes32 => exact (tame_readArray 32).map _
  | bytes64 => exact (tame_readArray 64).map _
  | string => exact tame_readStringZ.map _
  | arrayBytes => exact (tame_array tame_readByteArray 4).map _
  | arrayInt8 => exact (tame_array ((tame_readLE 1 _).map _) 1).map _
  | arrayInt16 => exact (tame_array (tame_readLE 2 _) 2).map _
  | arrayInt32 => exact (tame_array (tame_readLE 4 _) 4).map _
  | arrayInt64 => exact (tame_array (tame_readLE 8 _) 8).map _
  | arrayInt256 => exact (tame_array tame_readBigInt 1).map _
  | arrayBytes16 => exact (tame_readReserved (tame_readArray 16) (by norm_num)).map _
  | arrayBytes32 => exact (tame_readReserved (tame_readArray 32) (by norm_num)).map _
  | arrayBytes64 => exact (tame_readReserved (tame_readArray 64) (by norm_num)).map _
  | arrayString => exact (tame_array tame_readStringZ 1).map _
  | dynamic | struct | array | arrayDynamic | arrayStruct => exact tame_refuse _

/-! ## Nesting -/

/-- Every byte of a schema is read by a call that is made after another was. -/
theorem VMStructSchema.steady_readAt (depth : ℕ) : (readAt depth).Steady := by
  induction depth with
  | zero => exact steady_fail _
  | succ depth ih =>
    refine Steady.bind ?_ fun fields => (tame_readLE 1 _).steady.bind fun bits => steady_pure _
    refine (tame_readLengthFor 1).steady.bind fun count => (steady_reserve count).bind fun _ =>
      Steady.replicate ?_ count
    refine SmallString.tame_readCarbon.steady.bind fun name => Steady.bind ?_ fun _ => steady_pure _
    refine VMType.tame_read.steady.bind fun vmType => ?_
    split
    · exact ih.bind fun _ => steady_pure _
    · exact steady_pure _

/-- What is asked for at a count that was accepted. -/
theorem settles_reserved {bound n count : ℕ} {d d' : Reader α} (hcount : count ≤ bound)
    (h : Reader.Settles bound n d d') :
    Reader.Settles bound n (do reserve count; d) (do reserve count; d') := by
  refine Settles.bind ⟨fun _ => rfl, fun _ => rfl, fun _ he => (nomatch he), fun _ he => ?_,
    fun _ r hr => ?_⟩ fun hinput hrun => ?_
  · obtain ⟨-, rfl⟩ := Prod.mk.inj (Except.ok.inj he)
    exact le_rfl
  · rw [requests_reserve, List.mem_singleton] at hr
    exact hr ▸ hcount
  · obtain ⟨-, rfl⟩ := Prod.mk.inj (Except.ok.inj hrun)
    exact h.of_le hinput

/-- The elements of a reserved array are read after its length. -/
theorem settles_readReserved {bound n : ℕ} {d d' : Reader α} (hn : n ≤ bound)
    (h : ∀ {m : ℕ}, m + 4 ≤ n → Reader.Settles bound m d d') :
    Reader.Settles bound n (readReserved 1 d) (readReserved 1 d') := by
  refine ((tame_readLengthFor 1).settles hn).bind fun {input mid count} hinput hrun => ?_
  have hle := le_of_run_readLengthFor one_pos hrun
  have hmid : mid.length + 4 ≤ n := by
    obtain ⟨-, -, rfl⟩ := run_readLength_eq_ok_iff.1 hrun
    rw [List.length_append, write4, length_toLE] at hinput
    omega
  exact settles_reserved (by omega) ((h hmid).replicate (by omega) count)

theorem cut_readReserved {e : Fault} {size : ℕ} {d d' : Reader α} (h : Cut e d d') :
    Cut e (readReserved size d) (readReserved size d') :=
  (Cut.refl e _).bind fun count => (Cut.refl e _).bind fun _ => h.replicate count

/-- A schema nested in a field is read after the number of the fields, and the name and
    the type of the field: six bytes at least. -/
theorem VMStructSchema.settles_readAt {bound n depth : ℕ} (hn : n ≤ bound) (hdepth : n < 6 * depth) :
    Reader.Settles bound n (readAt depth) (readAt (depth + 1)) := by
  induction depth generalizing n with
  | zero => exact absurd hdepth (Nat.not_lt_zero _)
  | succ depth ih =>
    refine Settles.bind_of_le (settles_readReserved hn fun {m} hm => ?_) fun fields =>
      ((tame_readLE 1 _).settles hn).map hn _
    have hbound : m ≤ bound := by omega
    refine (SmallString.tame_readCarbon.settles hbound).bind fun {input mid name} hinput hrun =>
      Settles.map ?_ (by
        have := SmallString.tame_readCarbon.rest_le hrun
        omega) _
    obtain ⟨used, rfl, -, enc, henc, hused⟩ := SmallString.lawful.yields _ _ _ hrun
    have hname := SmallString.lawful.length_le _ _ henc
    rw [List.length_append, ← hused trivial] at hinput
    refine (VMType.tame_read.settles (by omega)).bind fun {input' mid' vmType} hinput' hrun' => ?_
    obtain ⟨used', rfl, -, rfl⟩ := VMType.yields_read _ _ _ hrun'
    rw [List.length_append, write1, List.length_singleton] at hinput'
    split
    · exact (ih (by omega) (by omega)).map (by omega) _
    · exact (tame_pure _).settles (by omega)

theorem VMStructSchema.cut_readAt (depth : ℕ) :
    Cut (.panic .stackOverflow) (readAt depth) (readAt (depth + 1)) := by
  induction depth with
  | zero => exact .fail _ _
  | succ depth ih =>
    refine (cut_readReserved ?_).bind fun _ => .refl _ _
    refine (Cut.refl _ _).bind fun name => Cut.map ?_ _
    refine (Cut.refl _ _).bind fun vmType => ?_
    split
    · exact ih.map _
    · exact .refl _ _

/-- On a stack of so many calls a schema is read as by the source's reader, or overflows the
    stack, in no fewer than six bytes a call. -/
theorem VMStructSchema.deepens_readAt : Deepens Fault.IsPanic (.panic .stackOverflow)
    (fun stack => 6 * stack) readAt (readCarbon : Reader VMStructSchema) :=
  .of_settles settles_readAt (fun _ _ h => Nat.mul_le_mul_left 6 h) (fun n => by omega) steady_readAt
    cut_readAt

/-- A schema of one field, which holds a schema of one field, and so on: the number of the
    fields, the name of the field, which is empty, and its type. -/
def nestedSchemas (depth : ℕ) : Bytes := (List.replicate depth [1, 0, 0, 0, 0, 4]).flatten

theorem VMStructSchema.run_readAt_nestedSchemas (stack : ℕ) (more : Bytes) :
    (readAt stack).run (nestedSchemas stack ++ more) = .error (.panic .stackOverflow) := by
  induction stack with
  | zero => rfl
  | succ stack ih =>
    have hinput : nestedSchemas (stack + 1) ++ more =
        write4 (UInt32.ofNat 1).toInt32 ++ 0 :: 4 :: (nestedSchemas stack ++ more) := by
      rw [nestedSchemas, List.replicate_succ, List.flatten_cons, List.append_assoc]
      rfl
    rw [hinput, readAt]
    refine run_bind_of_error ?_
    refine (run_bind_of_ok (run_readLength_eq_ok_iff.2 ⟨by norm_num, ?_, rfl⟩)).trans ?_
    · simp
    refine (run_bind_of_ok (run_reserve _ _)).trans (run_bind_of_error ?_)
    refine (run_bind_of_ok (SmallString.lawful.reads ⟨""⟩ [0] trivial rfl _)).trans ?_
    refine run_bind_of_error ((run_bind_of_ok ((VMType.reads_read (by decide : VMType.struct ≠ .array)) _)).trans ?_)
    exact run_bind_of_error ih

namespace StaticReader

variable {bound n : ℕ} {r r' : StaticReader}

theorem settles_readVariable (hn : n ≤ bound)
    (h : ∀ {m : ℕ} {vmType : VMType}, m < n → Reader.Settles bound m (r vmType none) (r' vmType none)) :
    Reader.Settles bound n (readVariable r) (readVariable r') := by
  refine (VMType.tame_read.settles hn).bind fun {input mid vmType} hinput hrun => ?_
  obtain ⟨used, rfl, -, rfl⟩ := VMType.yields_read _ _ _ hrun
  have hlt : mid.length < n := by
    rw [List.length_append, write1, List.length_singleton] at hinput
    omega
  exact (h hlt).map (by omega) _

theorem settles_readNamedVariable (hn : n ≤ bound)
    (h : ∀ {m : ℕ} {vmType : VMType}, m < n → Reader.Settles bound m (r vmType none) (r' vmType none)) :
    Reader.Settles bound n (readNamedVariable r) (readNamedVariable r') :=
  (SmallString.tame_readCarbon.settles hn).bind_of_le fun _ => (settles_readVariable hn h).map hn _

theorem settles_readDynamicVariables (hn : n ≤ bound)
    (h : ∀ {m : ℕ} {vmType : VMType}, m < n → Reader.Settles bound m (r vmType none) (r' vmType none)) :
    Reader.Settles bound n (readDynamicVariables r) (readDynamicVariables r') :=
  ((tame_readLengthFor 1).settles hn).bind_of_le fun count =>
    (settles_readVariable hn h).replicate hn count

theorem settles_readNamedDynamicVariables (hn : n ≤ bound)
    (h : ∀ {m : ℕ} {vmType : VMType}, m < n → Reader.Settles bound m (r vmType none) (r' vmType none)) :
    Reader.Settles bound n (readNamedDynamicVariables r) (readNamedDynamicVariables r') :=
  ((tame_readLengthFor 1).settles hn).bind_of_le fun count =>
    (settles_readNamedVariable hn h).replicate hn count

/-- The fields of a schema are read without anything being read before them, and nest
    less deep than the schema. -/
theorem settles_readWithSchema (hn : n ≤ bound) {schema : VMStructSchema}
    (hfields : ∀ field ∈ schema.fields, Reader.Settles bound n
      (r field.schema.vmType field.schema.structDef) (r' field.schema.vmType field.schema.structDef))
    (h : ∀ {m : ℕ} {vmType : VMType}, m < n → Reader.Settles bound m (r vmType none) (r' vmType none)) :
    Reader.Settles bound n (readWithSchema r schema) (readWithSchema r' schema) := by
  refine (Settles.mapM hn fun field hf => (hfields field hf).map hn _).bind_of_le fun fields => ?_
  simp only
  split
  · exact (settles_readNamedDynamicVariables hn h).map hn _
  · exact ((tame_pure []).map _).settles hn

theorem settles_readStruct (hn : n ≤ bound)
    (h : ∀ {m : ℕ} {vmType : VMType}, m < n → Reader.Settles bound m (r vmType none) (r' vmType none)) :
    Reader.Settles bound n (readStruct r) (readStruct r') :=
  (settles_readNamedDynamicVariables hn h).map hn _

/-- A schema that is given is nested in the one of the array, and a schema that is read
    nests less deep than it has bytes. -/
theorem settles_readStructArray (hn : n ≤ bound) {schema : Option VMStructSchema}
    {s s' : Reader VMStructSchema}
    (hs : ∀ {m : ℕ}, m < n → Reader.Settles bound m s s')
    (hy : s.Yields fun schema used => schema.Normal ∧ schema.write = .ok used)
    (h : ∀ {m : ℕ} {vmType : VMType} {nested : Option VMStructSchema}, m ≤ bound →
      m + depthOf nested < n + depthOf schema →
        Reader.Settles bound m (r vmType nested) (r' vmType nested)) :
    Reader.Settles bound n (readStructArray r s schema) (readStructArray r' s' schema) := by
  -- the structs, once their schema is known, on what is left after it
  have hstructs : ∀ (used : VMStructSchema) {count m : ℕ}, count ≤ bound → m ≤ bound →
      m + used.depth ≤ n + depthOf schema → Reader.Settles bound m
        (do reserve count
            let structs ← (readWithSchema r used).replicate count
            pure (VMStructArray.mk used structs))
        (do reserve count
            let structs ← (readWithSchema r' used).replicate count
            pure (VMStructArray.mk used structs)) := by
    intro used count m hcount hm hdepth
    refine settles_reserved hcount (Settles.map (Settles.replicate ?_ hm count) hm _)
    refine settles_readWithSchema hm (fun field hf => h hm ?_) fun hlt => h (by omega) ?_
    · have := VMStructSchema.depth_lt hf
      omega
    · rw [depthOf]
      omega
  refine ((tame_readLengthFor 1).settles hn).bind fun {input mid count} hinput hrun => ?_
  have hmid := ((tame_readLengthFor 1).rest_le hrun).trans hinput
  have hcount := (le_of_run_readLengthFor one_pos hrun).trans (hmid.trans hn)
  cases schema with
  | some given =>
    refine hstructs given hcount (hmid.trans hn) ?_
    rw [depthOf]
    omega
  | none =>
    have hlt : mid.length < n := by
      obtain ⟨-, -, rfl⟩ := run_readLength_eq_ok_iff.1 hrun
      rw [List.length_append, write4, length_toLE] at hinput
      omega
    refine (hs hlt).bind fun hinput' hrun' => ?_
    obtain ⟨used, rfl, hnormal, hw⟩ := hy _ _ _ hrun'
    have hdepth := VMStructSchema.depth_lt_length _ hnormal hw
    rw [List.length_append] at hinput'
    refine hstructs _ hcount (by omega) ?_
    rw [depthOf]
    omega

end StaticReader

/-- A value is read as by a deeper stack, by one that is deeper than the input is long
    and its schema nests. -/
theorem settles_readStatic {bound n depth : ℕ} {vmType : VMType} {schema : Option VMStructSchema}
    (hn : n ≤ bound) (hdepth : n + depthOf schema < depth) :
    Reader.Settles bound n (readStatic depth vmType schema)
      (readStatic (depth + 1) vmType schema) := by
  induction depth generalizing n vmType schema with
  | zero => exact absurd hdepth (Nat.not_lt_zero _)
  | succ depth ih =>
    have hcall : ∀ {m : ℕ} {vmType : VMType} {nested : Option VMStructSchema}, m ≤ bound →
        m + depthOf nested < n + depthOf schema → Reader.Settles bound m
          (readStatic depth vmType nested) (readStatic (depth + 1) vmType nested) :=
      fun hm hlt => ih hm (by omega)
    have hvariable : ∀ {m : ℕ} {vmType : VMType}, m < n → Reader.Settles bound m
        (readStatic depth vmType none) (readStatic (depth + 1) vmType none) := fun hlt =>
      hcall (by omega) (by rw [depthOf]; omega)
    have hleaf : ∀ vmType, readStatic (depth + 1) vmType schema = readLeaf vmType →
        readStatic (depth + 1 + 1) vmType schema = readLeaf vmType → Reader.Settles bound n
          (readStatic (depth + 1) vmType schema) (readStatic (depth + 1 + 1) vmType schema) := by
      intro vmType h h'
      rw [h, h']
      exact (tame_readLeaf vmType).settles hn
    cases vmType with
    | dynamic => exact (StaticReader.settles_readVariable hn hvariable).map hn _
    | struct =>
      cases schema with
      | none => exact (StaticReader.settles_readStruct hn hvariable).map hn _
      | some schema =>
        have hfields : ∀ field ∈ schema.fields, n + depthOf field.schema.structDef <
            n + depthOf (some schema) := fun field hf =>
          Nat.add_lt_add_left (VMStructSchema.depth_lt hf) n
        exact (StaticReader.settles_readWithSchema hn (fun field hf => hcall hn (hfields field hf))
          hvariable).map hn _
    | arrayDynamic => exact (StaticReader.settles_readDynamicVariables hn hvariable).map hn _
    | arrayStruct =>
      exact (StaticReader.settles_readStructArray hn
        (fun hlt => VMStructSchema.settles_readAt (by omega) (by omega))
        (VMStructSchema.yields_readAt depth) hcall).map hn _
    | _ => exact hleaf _ rfl rfl

/-- At any depth, a value is read steadily. -/
theorem steady_readStatic (depth : ℕ) (vmType : VMType) (schema : Option VMStructSchema) :
    (readStatic depth vmType schema).Steady := by
  induction depth generalizing vmType schema with
  | zero => exact steady_fail _
  | succ depth ih =>
    have hvariable : (StaticReader.readVariable (readStatic depth)).Steady :=
      VMType.tame_read.steady.bind fun vmType => steady_map (ih vmType none) _
    have hnamed : (StaticReader.readNamedDynamicVariables (readStatic depth)).Steady :=
      (tame_readLengthFor 1).steady.bind fun count => Steady.replicate
        (SmallString.tame_readCarbon.steady.bind fun name => steady_map hvariable _) count
    have hstruct : ∀ schema : VMStructSchema,
        (StaticReader.readWithSchema (readStatic depth) schema).Steady := by
      intro schema
      refine (Steady.mapM fun field _ => steady_map (ih _ _) _).bind fun fields => ?_
      simp only
      split
      · exact steady_map hnamed _
      · exact steady_map (steady_pure []) _
    have hleaf : ∀ vmType, readStatic (depth + 1) vmType schema = readLeaf vmType →
        (readStatic (depth + 1) vmType schema).Steady := by
      intro vmType h
      rw [h]
      exact (tame_readLeaf vmType).steady
    cases vmType with
    | dynamic => exact steady_map hvariable _
    | struct =>
      cases schema with
      | none => exact steady_map (steady_map hnamed _) _
      | some schema => exact steady_map (hstruct schema) _
    | arrayDynamic =>
      exact steady_map ((tame_readLengthFor 1).steady.bind fun count => hvariable.replicate count) _
    | arrayStruct =>
      refine steady_map ((tame_readLengthFor 1).steady.bind fun count => ?_) _
      have hstructs : ∀ used : VMStructSchema, (do
          reserve count
          let structs ← (StaticReader.readWithSchema (readStatic depth) used).replicate count
          pure (VMStructArray.mk used structs) : Reader VMStructArray).Steady := fun used =>
        (steady_reserve count).bind fun _ => steady_map ((hstruct used).replicate count) _
      cases schema with
      | none => exact (VMStructSchema.steady_readAt depth).bind hstructs
      | some schema => exact hstructs schema
    | _ => exact hleaf _ rfl

/-! ## Less stack -/

namespace StaticReader

variable {e : Fault} {r r' : StaticReader}

theorem cut_readVariable (h : ∀ vmType schema, Cut e (r vmType schema) (r' vmType schema)) :
    Cut e (readVariable r) (readVariable r') :=
  (Cut.refl e _).bind fun vmType => (h vmType none).map _

theorem cut_readNamedDynamicVariables
    (h : ∀ vmType schema, Cut e (r vmType schema) (r' vmType schema)) :
    Cut e (readNamedDynamicVariables r) (readNamedDynamicVariables r') :=
  (Cut.refl e _).bind fun count => Cut.replicate
    ((Cut.refl e _).bind fun _ => (cut_readVariable h).map _) count

theorem cut_readWithSchema (h : ∀ vmType schema, Cut e (r vmType schema) (r' vmType schema))
    (schema : VMStructSchema) : Cut e (readWithSchema r schema) (readWithSchema r' schema) := by
  refine (Cut.mapM fun field _ => (h _ _).map _).bind fun fields => ?_
  simp only
  split
  · exact (cut_readNamedDynamicVariables h).map _
  · exact .refl e _

theorem cut_readStructArray (h : ∀ vmType schema, Cut e (r vmType schema) (r' vmType schema))
    {s s' : Reader VMStructSchema} (hs : Cut e s s') (schema : Option VMStructSchema) :
    Cut e (readStructArray r s schema) (readStructArray r' s' schema) := by
  refine (Cut.refl e _).bind fun count => ?_
  have hstructs (used : VMStructSchema) := (Cut.refl e (reserve count)).bind fun _ =>
    ((cut_readWithSchema h used).replicate count).map fun structs => VMStructArray.mk used structs
  cases schema with
  | some given => exact (Cut.refl e _).bind hstructs
  | none => exact hs.bind hstructs

end StaticReader

/-- On a stack of fewer calls a value is read alike, or overflows the stack. -/
theorem cut_readStatic (depth : ℕ) (vmType : VMType) (schema : Option VMStructSchema) :
    Cut (.panic .stackOverflow) (readStatic depth vmType schema)
      (readStatic (depth + 1) vmType schema) := by
  induction depth generalizing vmType schema with
  | zero => exact .fail _ _
  | succ depth ih =>
    have hleaf : ∀ vmType, readStatic (depth + 1) vmType schema = readLeaf vmType →
        readStatic (depth + 1 + 1) vmType schema = readLeaf vmType → Cut (.panic .stackOverflow)
          (readStatic (depth + 1) vmType schema) (readStatic (depth + 1 + 1) vmType schema) := by
      intro vmType h h'
      rw [h, h']
      exact .refl _ _
    cases vmType with
    | dynamic => exact (StaticReader.cut_readVariable ih).map _
    | struct =>
      cases schema with
      | none => exact ((StaticReader.cut_readNamedDynamicVariables ih).map _).map _
      | some schema => exact (StaticReader.cut_readWithSchema ih schema).map _
    | arrayDynamic =>
      exact ((Cut.refl _ _).bind fun count => (StaticReader.cut_readVariable ih).replicate count).map _
    | arrayStruct =>
      exact (StaticReader.cut_readStructArray ih (VMStructSchema.cut_readAt depth) schema).map _
    | _ => exact hleaf _ rfl rfl

/-! ## Values off any bytes -/

/-- On a stack of so many calls a variable is read as by the source's reader, or overflows
    the stack, on input that is longer. -/
theorem VMDynamicVariable.deepens_readOn : Deepens Fault.IsPanic (.panic .stackOverflow)
    (fun stack => stack + 1) readOn (readCarbon : Reader VMDynamicVariable) :=
  .of_settles (fun hn hdepth => StaticReader.settles_readVariable hn fun hlt =>
      settles_readStatic (by omega) (by rw [depthOf]; omega))
    (fun _ _ h => Nat.succ_le_succ h) (fun n => by omega)
    (fun stack => VMType.tame_read.steady.bind fun vmType => steady_map (steady_readStatic stack _ _) _)
    fun stack => StaticReader.cut_readVariable (cut_readStatic stack)

theorem VMDynamicStruct.deepens_readOn : Deepens Fault.IsPanic (.panic .stackOverflow)
    (fun stack => stack + 1) readOn (readCarbon : Reader VMDynamicStruct) :=
  .of_settles (fun hn hdepth => StaticReader.settles_readStruct hn fun hlt =>
      settles_readStatic (by omega) (by rw [depthOf]; omega))
    (fun _ _ h => Nat.succ_le_succ h) (fun n => by omega)
    (fun stack => steady_map ((tame_readLengthFor 1).steady.bind fun count => Steady.replicate
      (SmallString.tame_readCarbon.steady.bind fun name => steady_map
        (VMType.tame_read.steady.bind fun vmType => steady_map (steady_readStatic stack _ _) _) _)
      count) _)
    fun stack => (StaticReader.cut_readNamedDynamicVariables (cut_readStatic stack)).map _

/-- A variable that holds a variable, and so on, takes a call for each of its bytes. -/
theorem VMDynamicVariable.run_readOn_zeros (stack : ℕ) (more : Bytes) :
    (readOn stack).run (List.replicate (stack + 1) 0 ++ more) = .error (.panic .stackOverflow) := by
  have hzero (input : Bytes) : VMType.read.run (0 :: input) = .ok (.dynamic, input) :=
    VMType.reads_read (by decide : VMType.dynamic ≠ .array) input
  induction stack with
  | zero => exact (run_bind_of_ok (hzero more)).trans rfl
  | succ stack ih =>
    rw [List.replicate_succ, List.cons_append]
    exact (run_bind_of_ok (hzero _)).trans (run_bind_of_error (run_bind_of_error ih))

/-- What is read back by itself is read back before anything else. -/
theorem Reader.Tame.reads {d : Reader α} (hd : d.Tame) {enc : Bytes} {a : α}
    (h : d.run enc = .ok (a, [])) : d.Reads enc a := fun suffix => hd.steady.ok h suffix

theorem IntX.tame_readCarbon : (readCarbon : Reader IntX).Tame := by
  refine (tame_readLE 1 _).bind fun header => ?_
  simp only
  split
  · exact tame_refuse _
  split
  · refine (tame_readArray 8).bind fun raw => ?_
    split
    · exact tame_pure _
    · exact tame_pure _
  · exact (tame_readBigIntWithHeader header).map _

theorem VMDynamicVariable.RoundTrips.reads {v : VMDynamicVariable} (h : v.RoundTrips) {enc : Bytes}
    (hw : writeCarbon v = .ok enc) : (readCarbon : Reader VMDynamicVariable).Reads enc v := by
  obtain ⟨enc', hw', hd⟩ := h
  obtain rfl := Except.ok.inj (hw.symm.trans hw')
  exact Reader.Tame.reads VMDynamicVariable.deepens_readOn.tame (deserialize_eq_ok.1 hd)

/-- The struct is serialized, and what it is serialized as is read as the struct. -/
def VMDynamicStruct.RoundTrips (v : VMDynamicStruct) : Prop :=
  ∃ enc, serialize v = .ok enc ∧ deserialize VMDynamicStruct enc = .ok v

theorem VMDynamicStruct.RoundTrips.reads {v : VMDynamicStruct} (h : v.RoundTrips) {enc : Bytes}
    (hw : writeCarbon v = .ok enc) : (readCarbon : Reader VMDynamicStruct).Reads enc v := by
  obtain ⟨enc', hw', hd⟩ := h
  obtain rfl := Except.ok.inj (hw.symm.trans hw')
  exact Reader.Tame.reads VMDynamicStruct.deepens_readOn.tame (deserialize_eq_ok.1 hd)

/-- A reader that is cut short accepts what the other does, or fails where it is cut. -/
theorem deserializeWith_of_cut {e : Fault} {d d' : Reader α} (h : Cut e d d') (data : Bytes) :
    deserializeWith d data = .error e ∨ deserializeWith d data = deserializeWith d' data := by
  rcases h.run data with herror | heq
  · exact .inl (deserializeWith_of_error herror)
  · exact .inr (by rw [deserializeWith, deserializeWith, heq])

/-! ## Records with values of their own type -/

structure UpdateTokenMetadataArgs where
  tokenId : UInt64
  metadata : VMDynamicStruct

/-- A metadata update, its struct read by `readMetadata`. -/
def UpdateTokenMetadataArgs.readWith (readMetadata : Reader VMDynamicStruct) :
    Reader UpdateTokenMetadataArgs := do
  let tokenId ← read8u
  let metadata ← readMetadata
  pure { tokenId, metadata }

instance : CarbonSerializable UpdateTokenMetadataArgs where
  writeCarbon v := do
    let metadata ← writeCarbon v.metadata
    pure (write8u v.tokenId ++ metadata)
  readCarbon := UpdateTokenMetadataArgs.readWith readCarbon

structure MarketSellTokenByIdArgs where
  fromAddress : Bytes32
  symbol : SmallString
  instanceId : VMDynamicVariable
  quoteSymbol : SmallString
  price : IntX
  endDate : Int64

/-- An offer, the id of the NFT read by `readId`; and likewise below. -/
def MarketSellTokenByIdArgs.readWith (readId : Reader VMDynamicVariable) :
    Reader MarketSellTokenByIdArgs := do
  let fromAddress ← read32
  let symbol ← readCarbon
  let instanceId ← readId
  let quoteSymbol ← readCarbon
  let price ← readCarbon
  let endDate ← read8
  pure { fromAddress, symbol, instanceId, quoteSymbol, price, endDate }

instance : CarbonSerializable MarketSellTokenByIdArgs where
  writeCarbon v := do
    let symbol ← writeCarbon v.symbol
    let instanceId ← writeCarbon v.instanceId
    let quoteSymbol ← writeCarbon v.quoteSymbol
    let price ← writeCarbon v.price
    pure (write32 v.fromAddress ++ symbol ++ instanceId ++ quoteSymbol ++ price ++ write8 v.endDate)
  readCarbon := MarketSellTokenByIdArgs.readWith readCarbon

structure MarketCancelSaleByIdArgs where
  symbol : SmallString
  instanceId : VMDynamicVariable

def MarketCancelSaleByIdArgs.readWith (readId : Reader VMDynamicVariable) :
    Reader MarketCancelSaleByIdArgs := do
  let symbol ← readCarbon
  let instanceId ← readId
  pure { symbol, instanceId }

instance : CarbonSerializable MarketCancelSaleByIdArgs where
  writeCarbon v := do
    let symbol ← writeCarbon v.symbol
    let instanceId ← writeCarbon v.instanceId
    pure (symbol ++ instanceId)
  readCarbon := MarketCancelSaleByIdArgs.readWith readCarbon

structure MarketBuyTokenByIdArgs where
  fromAddress : Bytes32
  symbol : SmallString
  instanceId : VMDynamicVariable

def MarketBuyTokenByIdArgs.readWith (readId : Reader VMDynamicVariable) :
    Reader MarketBuyTokenByIdArgs := do
  let fromAddress ← read32
  let symbol ← readCarbon
  let instanceId ← readId
  pure { fromAddress, symbol, instanceId }

instance : CarbonSerializable MarketBuyTokenByIdArgs where
  writeCarbon v := do
    let symbol ← writeCarbon v.symbol
    let instanceId ← writeCarbon v.instanceId
    pure (write32 v.fromAddress ++ symbol ++ instanceId)
  readCarbon := MarketBuyTokenByIdArgs.readWith readCarbon

structure MarketGetTokenListingInfoByIdArgs where
  symbol : SmallString
  instanceId : VMDynamicVariable

def MarketGetTokenListingInfoByIdArgs.readWith (readId : Reader VMDynamicVariable) :
    Reader MarketGetTokenListingInfoByIdArgs := do
  let symbol ← readCarbon
  let instanceId ← readId
  pure { symbol, instanceId }

instance : CarbonSerializable MarketGetTokenListingInfoByIdArgs where
  writeCarbon v := do
    let symbol ← writeCarbon v.symbol
    let instanceId ← writeCarbon v.instanceId
    pure (symbol ++ instanceId)
  readCarbon := MarketGetTokenListingInfoByIdArgs.readWith readCarbon

/-- The types whose values say themselves what they hold. -/
inductive SelfDescribed
  | dynamicVariable
  | dynamicStruct
  | updateTokenMetadata
  | marketSellTokenById
  | marketCancelSaleById
  | marketBuyTokenById
  | marketGetTokenListingInfoById
  deriving DecidableEq, Repr

namespace SelfDescribed

def Value : SelfDescribed → Type
  | dynamicVariable => VMDynamicVariable
  | dynamicStruct => VMDynamicStruct
  | updateTokenMetadata => UpdateTokenMetadataArgs
  | marketSellTokenById => MarketSellTokenByIdArgs
  | marketCancelSaleById => MarketCancelSaleByIdArgs
  | marketBuyTokenById => MarketBuyTokenByIdArgs
  | marketGetTokenListingInfoById => MarketGetTokenListingInfoByIdArgs

instance (k : SelfDescribed) : CarbonSerializable k.Value :=
  match k with
  | dynamicVariable => inferInstanceAs (CarbonSerializable VMDynamicVariable)
  | dynamicStruct => inferInstanceAs (CarbonSerializable VMDynamicStruct)
  | updateTokenMetadata => inferInstanceAs (CarbonSerializable UpdateTokenMetadataArgs)
  | marketSellTokenById => inferInstanceAs (CarbonSerializable MarketSellTokenByIdArgs)
  | marketCancelSaleById => inferInstanceAs (CarbonSerializable MarketCancelSaleByIdArgs)
  | marketBuyTokenById => inferInstanceAs (CarbonSerializable MarketBuyTokenByIdArgs)
  | marketGetTokenListingInfoById =>
    inferInstanceAs (CarbonSerializable MarketGetTokenListingInfoByIdArgs)

/-- The reader on a stack that holds so many calls of `read_static`, or of `read_carbon` for
    a schema, one in another. -/
def readOn (stack : ℕ) : (k : SelfDescribed) → Reader k.Value
  | dynamicVariable => VMDynamicVariable.readOn stack
  | dynamicStruct => VMDynamicStruct.readOn stack
  | updateTokenMetadata => UpdateTokenMetadataArgs.readWith (VMDynamicStruct.readOn stack)
  | marketSellTokenById => MarketSellTokenByIdArgs.readWith (VMDynamicVariable.readOn stack)
  | marketCancelSaleById => MarketCancelSaleByIdArgs.readWith (VMDynamicVariable.readOn stack)
  | marketBuyTokenById => MarketBuyTokenByIdArgs.readWith (VMDynamicVariable.readOn stack)
  | marketGetTokenListingInfoById =>
    MarketGetTokenListingInfoByIdArgs.readWith (VMDynamicVariable.readOn stack)

theorem deepens_readOn (k : SelfDescribed) : Deepens Fault.IsPanic (.panic .stackOverflow)
    (fun stack => stack + 1) (fun stack => readOn stack k) (readCarbon : Reader k.Value) := by
  have hname := SmallString.tame_readCarbon
  have hvalue := VMDynamicVariable.deepens_readOn
  cases k with
  | dynamicVariable => exact hvalue
  | dynamicStruct => exact VMDynamicStruct.deepens_readOn
  | updateTokenMetadata =>
    exact .after (tame_readLE 8 _) fun _ => VMDynamicStruct.deepens_readOn.map _
  | marketSellTokenById =>
    exact .after (tame_readArray 32) fun _ => .after hname fun _ => hvalue.bind fun id =>
      Tame.deepens (hname.bind fun _ => IntX.tame_readCarbon.bind fun _ => (tame_readLE 8 _).map _) _ _
  | marketCancelSaleById => exact .after hname fun _ => hvalue.map _
  | marketBuyTokenById => exact .after (tame_readArray 32) fun _ => .after hname fun _ => hvalue.map _
  | marketGetTokenListingInfoById => exact .after hname fun _ => hvalue.map _

/-- A stack of any size is overflown: by a variable that holds a variable, and so on. -/
theorem exists_overflow (k : SelfDescribed) (stack : ℕ) :
    ∃ data, (k.readOn stack).run data = .error (.panic .stackOverflow) := by
  have hvalue := VMDynamicVariable.run_readOn_zeros stack []
  -- the variable after a name of no letters
  have hnamed {β : Type} (f : SmallString → VMDynamicVariable → Reader β) :
      (do let name ← readCarbon
          let value ← VMDynamicVariable.readOn stack
          f name value : Reader β).run ([0] ++ (List.replicate (stack + 1) 0 ++ [])) =
        .error (.panic .stackOverflow) :=
    (run_bind_of_ok (SmallString.lawful.reads ⟨""⟩ [0] trivial rfl _)).trans (run_bind_of_error hvalue)
  have hstruct : (VMDynamicStruct.readOn stack).run (write4 (UInt32.ofNat 1).toInt32 ++
      ([0] ++ (List.replicate (stack + 1) 0 ++ []))) = .error (.panic .stackOverflow) := by
    refine run_bind_of_error ((run_bind_of_ok (run_readLength_eq_ok_iff.2
      ⟨by norm_num, by simp, rfl⟩)).trans (run_bind_of_error ?_))
    exact hnamed fun name value => pure (VMNamedDynamicVariable.mk name value)
  cases k with
  | dynamicVariable => exact ⟨_, hvalue⟩
  | dynamicStruct => exact ⟨_, hstruct⟩
  | updateTokenMetadata =>
    exact ⟨_, (run_bind_of_ok (reads_read8u 0 _)).trans (run_bind_of_error hstruct)⟩
  | marketSellTokenById =>
    exact ⟨_, (run_bind_of_ok (reads_read32 emptyBytes32 _)).trans (hnamed _)⟩
  | marketCancelSaleById => exact ⟨_, hnamed _⟩
  | marketBuyTokenById =>
    exact ⟨_, (run_bind_of_ok (reads_read32 emptyBytes32 _)).trans (hnamed _)⟩
  | marketGetTokenListingInfoById => exact ⟨_, hnamed _⟩

/-- Off any bytes, and on a stack of any size, a value that describes itself is read or
    refused with an error, or overflows the stack, for which there are more bytes than the
    stack holds calls. No more elements are asked for than there are bytes, what is read is
    what the source's reader reads given stack enough, and cut short it is refused on the
    stack it was read on. A stack of any size is overflown. -/
theorem hostile (k : SelfDescribed) (stack : ℕ) (data : Bytes) :
    (∀ p, deserializeWith (k.readOn stack) data = .error (.panic p) →
      p = .stackOverflow ∧ stack < data.length) ∧
    (∀ r ∈ (k.readOn stack).requests data, r.count ≤ data.length) ∧
    (deserializeWith (k.readOn stack) data = .error (.panic .stackOverflow) ∨
      deserializeWith (k.readOn stack) data = deserialize k.Value data) ∧
    (∀ v, deserializeWith (k.readOn stack) data = .ok v → ∀ short more, data = short ++ more →
      more ≠ [] → ∃ e, deserializeWith (k.readOn stack) short = .error (.error e)) ∧
    ∃ deep, deserializeWith (k.readOn stack) deep = .error (.panic .stackOverflow) := by
  have hdeepens := k.deepens_readOn
  refine ⟨fun p hp => ?_, hdeepens.count_le, deserializeWith_of_cut (hdeepens.cut stack) data, ?_, ?_⟩
  · have hrun := run_of_deserializeWith_panic hp
    obtain ⟨he, hle⟩ := hdeepens.eq_of_bad hrun (Fault.isPanic_panic p)
    exact ⟨Fault.panic.inj he, hle⟩
  · rintro v hd short more rfl hmore
    exact deserializeWith_short (hdeepens.steady stack) hd hmore
  · obtain ⟨deep, hdeep⟩ := k.exists_overflow stack
    exact ⟨deep, deserializeWith_of_error hdeep⟩

/-- What a value is made of is read back by itself, and amounts fit. -/
def Fits : (k : SelfDescribed) → k.Value → Prop
  | dynamicVariable => VMDynamicVariable.RoundTrips
  | dynamicStruct => VMDynamicStruct.RoundTrips
  | updateTokenMetadata => fun (v : UpdateTokenMetadataArgs) => v.metadata.RoundTrips
  | marketSellTokenById => fun (v : MarketSellTokenByIdArgs) =>
    v.instanceId.RoundTrips ∧ v.price.InRange
  | marketCancelSaleById => fun (v : MarketCancelSaleByIdArgs) => v.instanceId.RoundTrips
  | marketBuyTokenById => fun (v : MarketBuyTokenByIdArgs) => v.instanceId.RoundTrips
  | marketGetTokenListingInfoById => fun (v : MarketGetTokenListingInfoByIdArgs) =>
    v.instanceId.RoundTrips

/-- A record comes back from the wire, whatever follows it, if what describes itself in
    it does by itself. -/
theorem reads_of_fits (k : SelfDescribed) (v : k.Value) (enc : Bytes) (hfits : k.Fits v)
    (hw : serialize v = .ok enc) : (readCarbon : Reader k.Value).Reads enc v := by
  -- Names are read as they were written, whatever else a record is made of.
  have hname : ∀ (name : SmallString) {enc : Bytes}, writeCarbon name = .ok enc →
      (readCarbon : Reader SmallString).Reads enc name := fun name _ h =>
    SmallString.lawful.reads name _ trivial h
  cases k with
  | dynamicVariable => exact hfits.reads hw
  | dynamicStruct => exact VMDynamicStruct.RoundTrips.reads hfits hw
  | updateTokenMetadata =>
    obtain ⟨metadata, hmetadata, hw⟩ := bind_eq_ok.1 hw
    obtain rfl := Except.ok.inj hw
    exact (reads_read8u _).bind ((VMDynamicStruct.RoundTrips.reads hfits hmetadata).map _)
  | marketSellTokenById =>
    obtain ⟨symbol, hsymbol, hw⟩ := bind_eq_ok.1 hw
    obtain ⟨instanceId, hid, hw⟩ := bind_eq_ok.1 hw
    obtain ⟨quoteSymbol, hquote, hw⟩ := bind_eq_ok.1 hw
    obtain ⟨price, hprice, hw⟩ := bind_eq_ok.1 hw
    obtain rfl := Except.ok.inj hw
    simp only [List.append_assoc]
    exact (reads_read32 _).bind ((hname _ hsymbol).bind ((hfits.1.reads hid).bind
      ((hname _ hquote).bind ((IntX.lawful.reads _ _ hfits.2 hprice).bind ((reads_read8 _).map _)))))
  | marketCancelSaleById =>
    obtain ⟨symbol, hsymbol, hw⟩ := bind_eq_ok.1 hw
    obtain ⟨instanceId, hid, hw⟩ := bind_eq_ok.1 hw
    obtain rfl := Except.ok.inj hw
    exact (hname _ hsymbol).bind ((hfits.reads hid).map _)
  | marketBuyTokenById =>
    obtain ⟨symbol, hsymbol, hw⟩ := bind_eq_ok.1 hw
    obtain ⟨instanceId, hid, hw⟩ := bind_eq_ok.1 hw
    obtain rfl := Except.ok.inj hw
    simp only [List.append_assoc]
    exact (reads_read32 _).bind ((hname _ hsymbol).bind ((hfits.reads hid).map _))
  | marketGetTokenListingInfoById =>
    obtain ⟨symbol, hsymbol, hw⟩ := bind_eq_ok.1 hw
    obtain ⟨instanceId, hid, hw⟩ := bind_eq_ok.1 hw
    obtain rfl := Except.ok.inj hw
    exact (hname _ hsymbol).bind ((hfits.reads hid).map _)

/-- An NFT offered by its id. -/
def offer : MarketSellTokenByIdArgs where
  fromAddress := emptyBytes32
  symbol := ⟨"ART"⟩
  instanceId := ⟨.int64, .int 7⟩
  quoteSymbol := ⟨"KCAL"⟩
  price := ⟨500⟩
  endDate := 0

theorem reads_of_fits_offer : ∃ enc, serialize offer = .ok enc ∧
    (readCarbon : Reader MarketSellTokenByIdArgs).Reads enc offer := by
  have hw : ∃ enc, serialize offer = .ok enc := ⟨_, rfl⟩
  obtain ⟨enc, hw⟩ := hw
  have hid : offer.instanceId.RoundTrips := ⟨_, rfl, rfl⟩
  have hprice : offer.price.InRange := ⟨by norm_num [offer], by norm_num [offer]⟩
  exact ⟨enc, hw, reads_of_fits marketSellTokenById offer enc ⟨hid, hprice⟩ hw⟩

end SelfDescribed

end PhantasmaSdk
