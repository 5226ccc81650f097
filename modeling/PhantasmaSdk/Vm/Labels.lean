import PhantasmaSdk.Vm.Operation

/-!
# Labels of a script

All an operation does to a builder is to append code, to put down a label, or to
reserve two bytes for the place of one (`Op.exec_cases`). A builder thus holds what
pieces of code assemble to, its maps telling where the labels and the slots of these
are (`Assembled`), after any operations (`exists_assembled`).

Which labels were put down and which slots were reserved is told by the operations
alone (`Label`, `Slot`).
-/

namespace PhantasmaSdk.Vm

open Codec Machine BinaryWriter

/-! ## What an operation adds -/

/-- The operation puts down a label, under a name in lower case. -/
def Op.PutsDown (name : String) : Op → Prop
  | emitLabel label => toAsciiLowercase label = name
  | _ => False

/-- The operation is a jump or a call to a label. -/
def Op.Refers (kind : Reference) (label : String) : Op → Prop
  | emitJump opcode label' _ =>
    kind = .jump ∧ label' = label ∧ opcode ∈ [Opcode.jmp, .jmpIf, .jmpNot]
  | emitConditionalJump opcode _ label' =>
    kind = .jump ∧ label' = label ∧ opcode ∈ [Opcode.jmpIf, .jmpNot]
  | emitCall label' registerCount => kind = .call ∧ label' = label ∧
      ¬(registerCount = 0 ∨ registerCount > ScriptBuilder.maxRegisterCount)
  | _ => False

namespace ScriptBuilder

/-- One builder comes from another by code being appended, and errors. -/
structure Extends (b b' : ScriptBuilder) : Prop where
  buffer : b.buffer <+: b'.buffer
  jumpLocations : b'.jumpLocations = b.jumpLocations
  labelLocations : b'.labelLocations = b.labelLocations
  callOffsets : b'.callOffsets = b.callOffsets

variable {b b' b'' : ScriptBuilder} {reg : UInt8}

theorem Extends.refl (b : ScriptBuilder) : Extends b b := ⟨List.prefix_rfl, rfl, rfl, rfl⟩

theorem Extends.trans (h : Extends b b') (h' : Extends b' b'') : Extends b b'' :=
  ⟨h.buffer.trans h'.buffer, h'.jumpLocations.trans h.jumpLocations,
    h'.labelLocations.trans h.labelLocations, h'.callOffsets.trans h.callOffsets⟩

theorem Extends.write (h : Extends b b') (data : Bytes) : Extends b (b'.write data) :=
  h.trans ⟨List.prefix_append .., rfl, rfl, rfl⟩

theorem Extends.byte (h : Extends b b') (value : UInt8) : Extends b (b'.byte value) := h.write _

theorem Extends.emit (h : Extends b b') (opcode : Opcode) : Extends b (b'.emit opcode) := h.write _

theorem Extends.fail (h : Extends b b') (message : String) : Extends b (b'.fail message) :=
  h.trans ⟨List.prefix_rfl, rfl, rfl, rfl⟩

/-- A load appends an instruction or stores an error. -/
theorem Extends.emitLoad (h : Extends b b') (reg : UInt8) (data : Bytes) (vmType : VMType) :
    Extends b (b'.emitLoad reg data vmType) := by
  rw [ScriptBuilder.emitLoad]
  split
  · exact h.fail _
  · exact ((((h.emit _).byte _).byte _).write _).write _

theorem Extends.emitLoadTimestamp (h : Extends b b') (reg : UInt8) (unixSeconds : UInt64) :
    Extends b (b'.emitLoadTimestamp reg unixSeconds) := by
  rw [ScriptBuilder.emitLoadTimestamp]
  split
  · exact h.emitLoad _ _ _
  · exact h.fail _

mutual

/-- Loading an argument only appends, even if some of it fails. -/
theorem extends_loadIntoRegister (b : ScriptBuilder) (reg : UInt8) (value : ScriptArg) :
    Extends b (loadIntoRegister b reg value) := by
  cases value with
  | address value => exact (Extends.refl b).emitLoad _ _ _
  | string value => exact (Extends.refl b).emitLoad _ _ _
  | bool value => exact (Extends.refl b).emitLoad _ [if value then 1 else 0] .bool
  | bytes value => exact (Extends.refl b).emitLoad _ _ _
  | number value => exact (Extends.refl b).emitLoad _ _ _
  | timestamp value => exact (Extends.refl b).emitLoadTimestamp _ value
  | array values =>
    rw [loadIntoRegister]
    split
    · exact (Extends.refl b).fail _
    · exact (((((Extends.refl b).emit _).byte _).byte _).byte _).trans (extends_loadItems ..)

theorem extends_loadItems (b : ScriptBuilder) (reg : UInt8) (index : ℕ) (values : List ScriptArg) :
    Extends b (loadItems b reg index values) := by
  cases values with
  | nil => exact .refl b
  | cons item items =>
    have hitem := (extends_loadIntoRegister b (reg + 1) item).emitLoad (reg + 2)
      (bigIntToCsharpBytes index) .number
    exact ((((hitem.emit _).byte _).byte _).byte _).trans (extends_loadItems ..)

end

theorem Extends.insertMethodArgs (h : Extends b b') (args : List ScriptArg) :
    Extends b (b'.insertMethodArgs args) := by
  rw [ScriptBuilder.insertMethodArgs]
  induction args.reverse generalizing b' with
  | nil => exact h
  | cons arg args ih => exact ih (((h.trans (extends_loadIntoRegister b' 0 arg)).emit _).byte _)

theorem Extends.endScriptWithError (b : ScriptBuilder) : Extends b b.endScriptWithError.2 := by
  rw [ScriptBuilder.endScriptWithError]
  split
  · exact ⟨List.prefix_append .., rfl, rfl, rfl⟩
  · split <;> exact (Extends.refl b).emit _

/-- A jump that is one reserves its slot after the opcode and its register. -/
theorem emitJump_of_mem {opcode : Opcode} {label : String}
    (h : opcode ∈ [Opcode.jmp, .jmpIf, .jmpNot]) : b.emitJump opcode label reg =
      (if opcode ≠ .jmp then (b.emit opcode).byte reg else b.emit opcode).reserve .jump label := by
  rw [emitJump, if_neg (not_not.2 h)]

/-- All ways to end a script leave the same builder. -/
theorem endScript_snd : b.endScript.2 = b.endScriptWithError.2 := by
  rw [endScript]
  split
  next h => rw [h]
  next h => rw [h]

end ScriptBuilder

open ScriptBuilder

/-- All that an operation does. -/
theorem Op.exec_cases (b : ScriptBuilder) (op : Op) :
    (Extends b (op.exec b) ∧ (∀ name, ¬op.PutsDown name) ∧ ∀ kind label, ¬op.Refers kind label) ∨
    (∃ label, op = .emitLabel label) ∨
    ∃ kind label b', op.Refers kind label ∧ Extends b b' ∧ op.exec b = b'.reserve kind label := by
  have hb : Extends b b := .refl b
  cases op with
  | emit opcode => exact .inl ⟨hb.emit _, fun _ => id, fun _ _ => id⟩
  | emitRaw data => exact .inl ⟨hb.write _, fun _ => id, fun _ _ => id⟩
  | emitPush reg => exact .inl ⟨(hb.emit _).byte _, fun _ => id, fun _ _ => id⟩
  | emitPop reg => exact .inl ⟨(hb.emit _).byte _, fun _ => id, fun _ _ => id⟩
  | emitThrow reg => exact .inl ⟨(hb.emit _).byte _, fun _ => id, fun _ _ => id⟩
  | emitExtCall method reg =>
    exact .inl ⟨((hb.emitLoad _ _ _).emit _).byte _, fun _ => id, fun _ _ => id⟩
  | emitLoad reg data vmType => exact .inl ⟨hb.emitLoad _ _ _, fun _ => id, fun _ _ => id⟩
  | emitLoadString reg value => exact .inl ⟨hb.emitLoad _ _ _, fun _ => id, fun _ _ => id⟩
  | emitLoadBool reg value =>
    exact .inl ⟨hb.emitLoad _ [if value then 1 else 0] .bool, fun _ => id, fun _ _ => id⟩
  | emitLoadNumber reg value => exact .inl ⟨hb.emitLoad _ _ _, fun _ => id, fun _ _ => id⟩
  | emitLoadTimestamp reg unixSeconds | emitLoadTime reg unixSeconds =>
    exact .inl ⟨hb.emitLoadTimestamp _ _, fun _ => id, fun _ _ => id⟩
  | emitMove srcReg dstReg | emitCopy srcReg dstReg =>
    exact .inl ⟨((hb.emit _).byte _).byte _, fun _ => id, fun _ _ => id⟩
  | emitLabel label => exact .inr (.inl ⟨label, rfl⟩)
  | emitVarBytes value => exact .inl ⟨hb.write _, fun _ => id, fun _ _ => id⟩
  | callInterop method args =>
    exact .inl
      ⟨(((hb.insertMethodArgs _).emitLoad _ _ _).emit _).byte _, fun _ => id, fun _ _ => id⟩
  | callContract contractName method args =>
    have hmethod := (((hb.insertMethodArgs args).emitLoad 0 (utf8 method) .string).emit
      .push).byte 0
    refine .inl ⟨?_, fun _ => id, fun _ _ => id⟩
    have hcontract := hmethod.emitLoad 0 (utf8 contractName) .string
    exact ((((hcontract.emit _).byte _).byte _).emit _).byte _
  | fail message => exact .inl ⟨hb.fail _, fun _ => id, fun _ _ => id⟩
  | endScript =>
    refine .inl ⟨?_, fun _ => id, fun _ _ => id⟩
    rw [exec, endScript_snd]
    exact .endScriptWithError b
  | endScriptHex =>
    refine .inl ⟨?_, fun _ => id, fun _ _ => id⟩
    change Extends b b.endScript.2
    rw [endScript_snd]
    exact .endScriptWithError b
  | endScriptWithError => exact .inl ⟨.endScriptWithError b, fun _ => id, fun _ _ => id⟩
  | emitJump opcode label reg =>
    by_cases h : opcode ∈ [Opcode.jmp, .jmpIf, .jmpNot]
    · refine .inr (.inr ⟨.jump, label, _, ⟨rfl, rfl, h⟩, ?_, by rw [exec, emitJump_of_mem h]⟩)
      split
      · exact (hb.emit _).byte _
      · exact hb.emit _
    · refine .inl ⟨?_, fun _ => id, fun _ _ hrefers => h hrefers.2.2⟩
      rw [exec, ScriptBuilder.emitJump, if_pos h]
      exact hb.fail _
  | emitConditionalJump opcode srcReg label =>
    by_cases h : opcode ∈ [Opcode.jmpIf, .jmpNot]
    · have hjump : opcode ∈ [Opcode.jmp, .jmpIf, .jmpNot] := List.mem_cons_of_mem _ h
      refine .inr (.inr ⟨.jump, label, _, ⟨rfl, rfl, h⟩, ?_, by
        rw [exec, ScriptBuilder.emitConditionalJump, if_neg (not_not.2 h), emitJump_of_mem hjump]⟩)
      split
      · exact (hb.emit _).byte _
      · exact hb.emit _
    · refine .inl ⟨?_, fun _ => id, fun _ _ hrefers => h hrefers.2.2⟩
      rw [exec, ScriptBuilder.emitConditionalJump, if_pos h]
      exact hb.fail _
  | emitCall label registerCount =>
    by_cases h : registerCount = 0 ∨ registerCount > maxRegisterCount
    · refine .inl ⟨?_, fun _ => id, fun _ _ hrefers => hrefers.2.2 h⟩
      rw [exec, ScriptBuilder.emitCall, if_pos h]
      exact hb.fail _
    · refine .inr (.inr ⟨.call, label, _, ⟨rfl, rfl, h⟩, (hb.emit .call).byte registerCount, ?_⟩)
      rw [exec, ScriptBuilder.emitCall, if_neg h]

/-! ## What a builder holds -/

abbrev Code := Piece UInt8 Reference String

/-- Before the place of a label. -/
def mark : Bytes := writeU8 Opcode.nop.code

/-- The bytes reserved for a label. -/
def blank : Bytes := writeU16LE 0

namespace ScriptBuilder

/-- The builder holds what the pieces assemble to. -/
structure Assembled (b : ScriptBuilder) (ps : List Code) : Prop where
  buffer : b.buffer = Piece.emitted mark blank ps
  jumpLocations : b.jumpLocations = (Piece.slots mark blank 0 ps).map fun s => (s.1, s.2.2)
  callOffsets : ∀ o, o ∈ b.callOffsets ↔ ∃ name, (o, .call, name) ∈ Piece.slots mark blank 0 ps
  labelLocations : ∀ name, b.labelLocations.get name = Piece.target mark blank name 0 ps

variable {b b' : ScriptBuilder} {ps : List Code}

/-- Code that is appended is one piece more. -/
theorem Assembled.extends (h : b.Assembled ps) (he : Extends b b') :
    ∃ data, b'.Assembled (ps ++ [.raw data]) := by
  obtain ⟨data, hdata⟩ := he.buffer
  refine ⟨data, ?_, ?_, fun o => ?_, fun name => ?_⟩
  · rw [← hdata, h.buffer, Piece.emitted_concat, Piece.text]
  · rw [he.jumpLocations, h.jumpLocations, Piece.slots_concat_raw]
  · rw [he.callOffsets, h.callOffsets, Piece.slots_concat_raw]
  · rw [he.labelLocations, h.labelLocations, Piece.target_concat_raw]

/-- A label is one piece more, which hides an older one of its name. -/
theorem Assembled.emitLabel (h : b.Assembled ps) (label : String) :
    (b.emitLabel label).Assembled (ps ++ [.label (toAsciiLowercase label)]) := by
  refine ⟨?_, ?_, fun o => ?_, fun name => ?_⟩
  · rw [Piece.emitted_concat, ← h.buffer]
    rfl
  · rw [Piece.slots_concat_label]
    exact h.jumpLocations
  · rw [Piece.slots_concat_label]
    exact h.callOffsets o
  · rw [Piece.target_concat_label, ← h.labelLocations, ← h.buffer, Nat.zero_add]
    exact OrderedMap.get_insert

/-- A slot is one piece more, behind all others. -/
theorem Assembled.reserve (h : b.Assembled ps) (kind : Reference) (label : String) :
    (b.reserve kind label).Assembled (ps ++ [.slot kind label]) := by
  have hslots : Piece.slots mark blank 0 (ps ++ [.slot kind label]) =
      Piece.slots mark blank 0 ps ++ [(b.currentSize, kind, label)] := by
    rw [Piece.slots_concat_slot, Nat.zero_add, ← h.buffer]
    rfl
  refine ⟨?_, ?_, fun o => ?_, fun name => ?_⟩
  · rw [Piece.emitted_concat, ← h.buffer]
    rfl
  · rw [hslots, List.map_append, ← h.jumpLocations]
    refine OrderedMap.insert_eq_append fun e he => ?_
    -- All slots so far are within the buffer.
    rw [h.jumpLocations, List.mem_map] at he
    obtain ⟨⟨o, kind', name'⟩, hs, rfl⟩ := he
    have hle := (Piece.le_of_mem_slots hs).2
    rw [← h.buffer, Nat.zero_add] at hle
    exact (Nat.lt_add_of_pos_right (by decide)).trans_le hle
  · simp only [hslots, List.mem_append, List.mem_singleton, Prod.mk.injEq, exists_or,
      ← h.callOffsets o]
    rw [ScriptBuilder.reserve]
    by_cases hkind : kind = .call
    · simp [hkind, Finset.mem_insert, or_comm]
    · simp [hkind, Ne.symm hkind]
  · rw [Piece.target_concat_slot]
    exact h.labelLocations name

end ScriptBuilder

/-- The builder after operations, from an empty one. -/
def after (ops : List Op) : ScriptBuilder := ops.foldl Op.exec {}

theorem after_concat (ops : List Op) (op : Op) : after (ops ++ [op]) = op.exec (after ops) :=
  List.foldl_concat ..

/-! ## Labels and slots of operations -/

/-- The place of a label: after the last operation that puts it down. -/
def Label (ops : List Op) (name : String) (place : ℕ) : Prop :=
  ∃ pre op post, ops = pre ++ op :: post ∧ op.PutsDown name ∧ (∀ op ∈ post, ¬op.PutsDown name) ∧
    place = (after (pre ++ [op])).currentSize

/-- Two bytes reserved for a label, the last ones an operation emits. -/
def Slot (ops : List Op) (offset : ℕ) (kind : Reference) (label : String) : Prop :=
  ∃ pre op post, ops = pre ++ op :: post ∧ op.Refers kind label ∧
    offset + 2 = (after (pre ++ [op])).currentSize

variable {ops : List Op} {op : Op} {name label label' : String} {place offset : ℕ}
  {kind kind' : Reference}

/-- The operation last appended is at the end, or the rest is split as before. -/
theorem concat_eq_split {x : Op} {pre post : List Op} : ops ++ [op] = pre ++ x :: post ↔
    (ops = pre ∧ op = x ∧ post = []) ∨ ∃ post', post = post' ++ [op] ∧ ops = pre ++ x :: post' := by
  rcases post.eq_nil_or_concat' with rfl | ⟨post', y, rfl⟩
  · rw [List.append_singleton_inj]
    simp
  · rw [← List.cons_append, ← List.append_assoc, List.append_singleton_inj]
    constructor
    · rintro ⟨rfl, rfl⟩
      exact .inr ⟨post', rfl, rfl⟩
    · rintro (⟨-, -, h⟩ | ⟨post'', h, rfl⟩)
      · exact absurd h (List.concat_ne_nil y post')
      · obtain ⟨rfl, rfl⟩ := List.append_singleton_inj.1 h
        exact ⟨rfl, rfl⟩

/-- One operation more puts down a label or leaves it where it was. -/
theorem label_concat : Label (ops ++ [op]) name place ↔
    (op.PutsDown name ∧ place = (after (ops ++ [op])).currentSize) ∨
      (¬op.PutsDown name ∧ Label ops name place) := by
  simp only [Label, concat_eq_split]
  constructor
  · rintro ⟨pre, x, post, ⟨rfl, rfl, rfl⟩ | ⟨post, rfl, rfl⟩, hx, hpost, hplace⟩
    · exact .inl ⟨hx, hplace⟩
    · rw [List.forall_mem_append, List.forall_mem_singleton] at hpost
      exact .inr ⟨hpost.2, pre, x, post, rfl, hx, hpost.1, hplace⟩
  · rintro (⟨hop, hplace⟩ | ⟨hop, pre, x, post, rfl, hx, hpost, hplace⟩)
    · exact ⟨ops, op, [], .inl ⟨rfl, rfl, rfl⟩, hop, fun _ h => absurd h List.not_mem_nil, hplace⟩
    · refine ⟨pre, x, post ++ [op], .inr ⟨post, rfl, rfl⟩, hx, ?_, hplace⟩
      rw [List.forall_mem_append, List.forall_mem_singleton]
      exact ⟨hpost, hop⟩

/-- One operation more may reserve a slot; those there stay. -/
theorem slot_concat : Slot (ops ++ [op]) offset kind label ↔
    Slot ops offset kind label ∨
      (op.Refers kind label ∧ offset + 2 = (after (ops ++ [op])).currentSize) := by
  simp only [Slot, concat_eq_split]
  constructor
  · rintro ⟨pre, x, post, ⟨rfl, rfl, rfl⟩ | ⟨post, rfl, rfl⟩, hx, hoffset⟩
    · exact .inr ⟨hx, hoffset⟩
    · exact .inl ⟨pre, x, post, rfl, hx, hoffset⟩
  · rintro (⟨pre, x, post, rfl, hx, hoffset⟩ | ⟨hop, hoffset⟩)
    · exact ⟨pre, x, post ++ [op], .inr ⟨post, rfl, rfl⟩, hx, hoffset⟩
    · exact ⟨ops, op, [], .inl ⟨rfl, rfl, rfl⟩, hop, hoffset⟩

/-- An operation reserves a slot for one label. -/
theorem Op.Refers.unique (h : op.Refers kind label) (h' : op.Refers kind' label') :
    kind = kind' ∧ label = label' := by
  cases op with
  | emitJump | emitCall | emitConditionalJump =>
    exact ⟨h.1.trans h'.1.symm, h.2.1.symm.trans h'.2.1⟩
  | _ => exact h.elim

theorem Op.Refers.not_putsDown (h : op.Refers kind label) : ¬op.PutsDown name := by
  cases op with
  | emitLabel => exact h.elim
  | _ => exact id

/-- What the builder holds after operations: their labels and their slots. -/
theorem exists_assembled (ops : List Op) : ∃ ps, (after ops).Assembled ps ∧
    (∀ o kind label, (o, kind, label) ∈ Piece.slots mark blank 0 ps ↔ Slot ops o kind label) ∧
      ∀ name place, Piece.target mark blank name 0 ps = some place ↔ Label ops name place := by
  induction ops using List.reverseRecOn with
  | nil =>
    refine ⟨[], ⟨rfl, rfl, by simp [after, Piece.slots], fun _ => rfl⟩, ?_, ?_⟩
    · simp [Piece.slots, Slot]
    · simp [Piece.target, Label]
  | append_singleton ops op ih =>
    obtain ⟨ps, h, hslots, hlabels⟩ := ih
    simp only [slot_concat, label_concat, ← hslots, ← hlabels, after_concat]
    rcases op.exec_cases (after ops) with ⟨he, hputs, hrefers⟩ | ⟨label, rfl⟩ |
      ⟨kind, label, b, hop, he, hexec⟩
    · -- Nothing is put down or reserved.
      obtain ⟨data, h'⟩ := h.extends he
      refine ⟨_, h', fun o kind label => ?_, fun name place => ?_⟩
      · rw [Piece.slots_concat_raw, or_iff_left fun h => hrefers kind label h.1]
      · rw [Piece.target_concat_raw, or_iff_right fun h => hputs name h.1,
          and_iff_right (hputs name)]
    · -- A label is put down where the code ends after its mark.
      have h' := h.emitLabel label
      refine ⟨_, h', fun o kind label => ?_, fun name place => ?_⟩
      · rw [Piece.slots_concat_label]
        exact (or_iff_left fun h => h.1.elim).symm
      · rw [Piece.target_concat_label, ← h.buffer, Nat.zero_add]
        change _ ↔ (toAsciiLowercase label = name ∧
          place = ((after ops).emitLabel label).currentSize) ∨ (toAsciiLowercase label ≠ name ∧ _)
        have hsize : ((after ops).emitLabel label).currentSize =
            (after ops).buffer.length + mark.length := List.length_append
        rw [hsize]
        split
        next heq => simp [heq, eq_comm]
        next hne => simp [hne]
    · -- The slot is the last two bytes, after the opcode and what belongs to it.
      obtain ⟨data, h'⟩ := h.extends he
      have hsize : (b.reserve kind label).currentSize = b.buffer.length + 2 := List.length_append
      rw [hexec, hsize]
      refine ⟨_, h'.reserve kind label, fun o kind' label' => ?_, fun name place => ?_⟩
      · rw [Piece.slots_concat_slot, Piece.slots_concat_raw, List.mem_append, List.mem_singleton,
          ← h'.buffer, Nat.zero_add, Nat.add_right_cancel_iff]
        refine or_congr_right ⟨fun heq => ?_, fun hslot => ?_⟩
        · obtain ⟨rfl, rfl, rfl⟩ := heq
          exact ⟨hop, rfl⟩
        · obtain ⟨hop', ho⟩ := hslot
          obtain ⟨rfl, rfl⟩ := hop.unique hop'
          rw [ho]
      · rw [Piece.target_concat_slot, Piece.target_concat_raw,
          or_iff_right fun h => hop.not_putsDown h.1, and_iff_right hop.not_putsDown]

end PhantasmaSdk.Vm
