import PhantasmaSdk.Vm.Labels

/-!
# Labels are patched exactly

Ending a script writes the places of its labels over the slots reserved for them, one
slot after the other. What comes out is what was emitted but for the slots, each of
which holds the place of its label (`Patched`); there is a script unless an
operation failed or a label cannot be reached (`Unreachable`).
-/

namespace PhantasmaSdk.Vm

open Codec Machine BinaryWriter

/-- The last place it reaches. -/
def Reference.maxTarget : Reference → ℕ
  | jump => ScriptBuilder.maxJumpTarget
  | call => ScriptBuilder.maxCallTarget

theorem Reference.maxTarget_lt (kind : Reference) : kind.maxTarget < 2 ^ 16 := by
  cases kind <;> decide

namespace ScriptBuilder

variable (b : ScriptBuilder)

/-! ## The loop -/

/-- The place of a label, whatever the case of its letters. -/
def target (label : String) : Option ℕ := b.labelLocations.get (toAsciiLowercase label)

/-- How far the slot at an offset reaches. -/
def limit (offset : ℕ) : ℕ := if offset ∈ b.callOffsets then maxCallTarget else maxJumpTarget

/-- What is written for a label. -/
def fill (label : String) : Bytes := writeU16LE (UInt16.ofNat ((b.target label).getD 0))

/-- An entry whose label is there and within reach. -/
def Resolves (entry : ℕ × String) : Prop :=
  ∃ place, b.target entry.2 = some place ∧ place ≤ b.limit entry.1

/-- Why an entry is not patched: no label, or one out of reach. -/
def Refuses (entry : ℕ × String) (error : PhantasmaError) : Prop :=
  (b.target entry.2 = none ∧ error = .builder s!"could not find label: {entry.2}") ∨
    ∃ place, b.target entry.2 = some place ∧ b.limit entry.1 < place ∧ error = .builder
      s!"label offset {place} is above {b.limit entry.1}, the largest target allowed here"

variable {b} {script : Bytes} {error : PhantasmaError} {ps : List Code}

@[simp] theorem length_fill (label : String) : (b.fill label).length = 2 := length_toLE 2 _

theorem Refuses.not_resolves {entry : ℕ × String} (h : b.Refuses entry error) :
    ¬b.Resolves entry := by
  rintro ⟨place, hplace, hle⟩
  rcases h with ⟨hnone, -⟩ | ⟨place', hplace', hlt, -⟩
  · cases hnone.symm.trans hplace
  · obtain rfl := Option.some.inj (hplace'.symm.trans hplace)
    exact hle.not_gt hlt

theorem patch_of_target_eq_none {entry : ℕ × String} (h : b.target entry.2 = none) :
    b.patch script entry = .error (.builder s!"could not find label: {entry.2}") := by
  rw [target] at h
  simp only [patch, h]

theorem patch_of_target_eq_some {entry : ℕ × String} {place : ℕ}
    (h : b.target entry.2 = some place) (hlen : entry.1 + 1 < script.length) :
    b.patch script entry =
      if place > b.limit entry.1 then .error (.builder
        s!"label offset {place} is above {b.limit entry.1}, the largest target allowed here")
      else .ok (overwrite script entry.1 (b.fill entry.2)) := by
  have hfill : b.fill entry.2 = writeU16LE (UInt16.ofNat place) := by rw [fill, h, Option.getD_some]
  rw [target] at h
  simp only [patch, h, if_neg hlen.not_ge, hfill]
  rfl

/-- An entry within the script is patched if its label resolves. -/
theorem patch_spec (entry : ℕ × String) (hlen : entry.1 + 1 < script.length) :
    match b.patch script entry with
    | .ok patched => b.Resolves entry ∧ patched = overwrite script entry.1 (b.fill entry.2)
    | .error error => b.Refuses entry error := by
  match h : b.target entry.2 with
  | none =>
    rw [patch_of_target_eq_none h]
    exact .inl ⟨h, rfl⟩
  | some place =>
    rw [patch_of_target_eq_some h hlen]
    by_cases hlimit : place > b.limit entry.1
    · rw [if_pos hlimit]
      exact .inr ⟨place, h, hlimit, rfl⟩
    · rw [if_neg hlimit]
      exact ⟨⟨place, h, not_lt.1 hlimit⟩, rfl⟩

theorem length_overwrite_fill {entry : ℕ × String} (hlen : entry.1 + 1 < script.length) :
    (overwrite script entry.1 (b.fill entry.2)).length = script.length :=
  Piece.length_overwrite (by rw [length_fill]; exact hlen)

/-- All entries are patched if the labels of all resolve, or one of them is refused. -/
theorem foldlM_patch (es : List (ℕ × String)) (script : Bytes)
    (hes : ∀ entry ∈ es, entry.1 + 1 < script.length) :
    match es.foldlM b.patch script with
    | .ok patched => (∀ entry ∈ es, b.Resolves entry) ∧
        patched = es.foldl (fun script entry => overwrite script entry.1 (b.fill entry.2)) script
    | .error error => ∃ entry ∈ es, b.Refuses entry error := by
  induction es generalizing script with
  | nil => exact ⟨fun _ h => absurd h List.not_mem_nil, rfl⟩
  | cons entry es ih =>
    obtain ⟨hlen, hes⟩ := List.forall_mem_cons.1 hes
    have hentry := patch_spec (b := b) entry hlen
    rw [List.foldlM_cons]
    match hpatch : b.patch script entry with
    | .error error =>
      rw [hpatch] at hentry
      exact ⟨entry, List.mem_cons_self, hentry⟩
    | .ok patched =>
      rw [hpatch] at hentry
      obtain ⟨hresolves, rfl⟩ := hentry
      have hrest := ih (overwrite script entry.1 (b.fill entry.2)) fun entry' h' => by
        rw [length_overwrite_fill hlen]
        exact hes entry' h'
      change match es.foldlM b.patch (overwrite script entry.1 (b.fill entry.2)) with
        | .ok patched => _ | .error error => _
      match hfold : es.foldlM b.patch (overwrite script entry.1 (b.fill entry.2)) with
      | .error error =>
        rw [hfold] at hrest
        obtain ⟨entry', h', hrefuses⟩ := hrest
        exact ⟨entry', List.mem_cons_of_mem _ h', hrefuses⟩
      | .ok patched =>
        rw [hfold] at hrest
        exact ⟨List.forall_mem_cons.2 ⟨hresolves, hrest.1⟩, hrest.2⟩

theorem length_foldl_overwrite {es : List (ℕ × String)}
    (hes : ∀ entry ∈ es, entry.1 + 1 < script.length) :
    (es.foldl (fun script entry => overwrite script entry.1 (b.fill entry.2)) script).length =
      script.length := by
  induction es generalizing script with
  | nil => rfl
  | cons entry es ih =>
    obtain ⟨hlen, hes⟩ := List.forall_mem_cons.1 hes
    have hhead := length_overwrite_fill (b := b) hlen
    exact (ih fun entry' h' => hhead ▸ hes entry' h').trans hhead

/-- The slots of assembled code are within it. -/
theorem Assembled.lt_length_buffer (h : b.Assembled ps) :
    ∀ entry ∈ b.jumpLocations, entry.1 + 1 < b.buffer.length := by
  intro entry hentry
  rw [h.jumpLocations, List.mem_map] at hentry
  obtain ⟨⟨o, kind, label⟩, hs, rfl⟩ := hentry
  have hle := (Piece.le_of_mem_slots hs).2
  rwa [← h.buffer, Nat.zero_add] at hle

/-- The script of assembled code is the code with the slots filled. -/
theorem Assembled.toScript (h : b.Assembled ps) :
    match b.toScript with
    | .ok script => (∀ entry ∈ b.jumpLocations, b.Resolves entry) ∧
        script = Piece.render mark blank (fun _ => b.fill) ps
    | .error error => ∃ entry ∈ b.jumpLocations, b.Refuses entry error := by
  have hfold := foldlM_patch (b := b) b.jumpLocations _ h.lt_length_buffer
  rw [ScriptBuilder.toScript]
  match hscript : b.jumpLocations.foldlM b.patch b.buffer with
  | .error error =>
    rw [hscript] at hfold
    exact hfold
  | .ok script =>
    rw [hscript] at hfold
    -- The entries are the slots, in order.
    refine ⟨hfold.1, hfold.2.trans ?_⟩
    rw [h.jumpLocations, List.foldl_map, h.buffer]
    have hfill (kind : Reference) (label : String) : (b.fill label).length = blank.length :=
      length_fill label
    exact Piece.foldl_overwrite hfill []

/-- The loop only comes to entries within the script. -/
theorem Assembled.lt_length_of_patched (h : b.Assembled ps) {es rest : List (ℕ × String)}
    {entry : ℕ × String} (hes : b.jumpLocations = es ++ entry :: rest)
    (hscript : es.foldlM b.patch b.buffer = .ok script) : entry.1 + 1 < script.length := by
  have hlen := h.lt_length_buffer
  rw [hes, List.forall_mem_append, List.forall_mem_cons] at hlen
  have hfold := foldlM_patch (b := b) es _ hlen.1
  rw [hscript] at hfold
  rw [hfold.2, length_foldl_overwrite hlen.1]
  exact hlen.2.1

/-- The builder knows the slots of calls from those of jumps. -/
theorem Assembled.limit_eq (h : b.Assembled ps) {offset : ℕ} {kind : Reference} {label : String}
    (hs : (offset, kind, label) ∈ Piece.slots mark blank 0 ps) :
    b.limit offset = kind.maxTarget := by
  have hcall : offset ∈ b.callOffsets ↔ kind = .call := by
    rw [h.callOffsets]
    constructor
    · rintro ⟨name, hs'⟩
      rcases Piece.slots_disjoint hs hs' with heq | hlt | hlt
      · exact (Prod.mk.inj (Prod.mk.inj heq).2).1
      · exact absurd hlt (Nat.lt_add_of_pos_right (by decide)).not_ge
      · exact absurd hlt (Nat.lt_add_of_pos_right (by decide)).not_ge
    · rintro rfl
      exact ⟨label, hs⟩
  rw [limit]
  cases kind with
  | jump => exact if_neg (hcall.not.2 nofun)
  | call => exact if_pos (hcall.2 rfl)

end ScriptBuilder

/-! ## The script -/

variable (ops : List Op)

/-- A label is missing, or too far off for a jump or a call to it. -/
def Unreachable : Prop :=
  ∃ offset kind label, Slot ops offset kind label ∧
    ((∀ place, ¬Label ops (toAsciiLowercase label) place) ∨
      ∃ place > kind.maxTarget, Label ops (toAsciiLowercase label) place)

/-- What has been emitted, a `RET` at the end, but for the slots; and what is in these. -/
structure Patched (script : Bytes) : Prop where
  length : script.length = (after ops).currentSize + 1
  frame : ∀ i, (∀ offset kind label, Slot ops offset kind label → i < offset ∨ offset + 2 ≤ i) →
    script[i]? = ((after ops).buffer ++ [Opcode.ret.code])[i]?
  slots : ∀ offset kind label, Slot ops offset kind label →
    ∃ place, Label ops (toAsciiLowercase label) place ∧
      (script.drop offset).take 2 = toLE 2 place ∧ place ≤ kind.maxTarget ∧
        0 < place ∧ script[place - 1]? = some Opcode.nop.code ∧ place < script.length

variable {ops}

theorem slot_emit {opcode : Opcode} {offset : ℕ} {kind : Reference} {label : String} :
    Slot (ops ++ [.emit opcode]) offset kind label ↔ Slot ops offset kind label := by
  rw [slot_concat]
  exact or_iff_left fun h => h.1.elim

theorem label_emit {opcode : Opcode} {name : String} {place : ℕ} :
    Label (ops ++ [.emit opcode]) name place ↔ Label ops name place := by
  rw [label_concat]
  exact (or_iff_right fun h => h.1.elim).trans (and_iff_right id)

/-- Slots are within what has been emitted, and do not overlap. -/
theorem slots_apart (ops : List Op) :
    (∀ offset kind label, Slot ops offset kind label → offset + 2 ≤ (after ops).currentSize) ∧
    ∀ offset kind label offset' kind' label', Slot ops offset kind label →
      Slot ops offset' kind' label' → (offset, kind, label) = (offset', kind', label') ∨
        offset + 2 ≤ offset' ∨ offset' + 2 ≤ offset := by
  obtain ⟨ps, h, hslots, -⟩ := exists_assembled ops
  simp only [← hslots]
  refine ⟨fun offset kind label hs => ?_, fun _ _ _ _ _ _ hs hs' => Piece.slots_disjoint hs hs'⟩
  have hle := (Piece.le_of_mem_slots hs).2
  rwa [← h.buffer, Nat.zero_add] at hle

/-- A label is within what has been emitted. -/
theorem Label.le_currentSize {name : String} {place : ℕ} (h : Label ops name place) :
    place ≤ (after ops).currentSize := by
  obtain ⟨ps, hassembled, -, hlabels⟩ := exists_assembled ops
  have hblank (kind : Reference) (name : String) : blank.length = blank.length := rfl
  have hplace := (Piece.render_of_target hblank ((hlabels ..).2 h)).2.2
  rwa [← hassembled.buffer] at hplace

/-- The entries of a builder resolve if and only if no label is unreachable. -/
theorem resolves_iff {ps : List Code} (h : (after ops).Assembled ps)
    (hslots : ∀ o kind label, (o, kind, label) ∈ Piece.slots mark blank 0 ps ↔
      Slot ops o kind label)
    (hlabels : ∀ name place, Piece.target mark blank name 0 ps = some place ↔
      Label ops name place) :
    (∀ entry ∈ (after ops).jumpLocations, (after ops).Resolves entry) ↔ ¬Unreachable ops := by
  have hresolves (offset : ℕ) (kind : Reference) (label : String)
      (hs : Slot ops offset kind label) : (after ops).Resolves (offset, label) ↔
        ¬((∀ place, ¬Label ops (toAsciiLowercase label) place) ∨
          ∃ place > kind.maxTarget, Label ops (toAsciiLowercase label) place) := by
    simp only [ScriptBuilder.Resolves, ScriptBuilder.target, h.labelLocations, ← hlabels,
      h.limit_eq ((hslots ..).2 hs)]
    cases Piece.target mark blank (toAsciiLowercase label) 0 ps with
    | none => simp
    | some place => simp
  constructor
  · rintro hall ⟨offset, kind, label, hs, hunreachable⟩
    refine (hresolves offset kind label hs).1 (hall (offset, label) ?_) hunreachable
    rw [h.jumpLocations, List.mem_map]
    exact ⟨_, (hslots ..).2 hs, rfl⟩
  · intro hreachable entry hentry
    rw [h.jumpLocations, List.mem_map] at hentry
    obtain ⟨⟨offset, kind, label⟩, hs, rfl⟩ := hentry
    have hs := (hslots ..).1 hs
    exact (hresolves offset kind label hs).2 fun hun => hreachable ⟨offset, kind, label, hs, hun⟩

theorem unreachable_emit {opcode : Opcode} :
    Unreachable (ops ++ [.emit opcode]) ↔ Unreachable ops := by
  simp only [Unreachable, slot_emit, label_emit]

/-- The code of a builder with the slots filled is what is emitted but for the slots. -/
theorem patched_render {ps : List Code} {b : ScriptBuilder} (hb : b = (after ops).emit .ret)
    (h : b.Assembled ps)
    (hslots : ∀ o kind label, (o, kind, label) ∈ Piece.slots mark blank 0 ps ↔
      Slot ops o kind label)
    (hlabels : ∀ name place, Piece.target mark blank name 0 ps = some place ↔
      Label ops name place)
    (hall : ∀ entry ∈ b.jumpLocations, b.Resolves entry) :
    Patched ops (Piece.render mark blank (fun _ => b.fill) ps) := by
  have hfill (kind : Reference) (label : String) : (b.fill label).length = blank.length :=
    ScriptBuilder.length_fill label
  have hbuffer : (after ops).buffer ++ [Opcode.ret.code] = Piece.emitted mark blank ps :=
    h.buffer ▸ hb ▸ rfl
  have hlength : (Piece.render mark blank (fun _ => b.fill) ps).length =
      (after ops).currentSize + 1 := by
    rw [Piece.length_render hfill, ← hbuffer, List.length_append]
    rfl
  refine ⟨hlength, fun i hi => ?_, fun offset kind label hs => ?_⟩
  · -- Out of the slots.
    rw [hbuffer]
    exact Piece.getElem?_render (n := 0) hfill fun s hs => hi s.1 s.2.1 s.2.2 ((hslots ..).1 hs)
  · -- In a slot: its entry resolves, to the place of a label that was put down.
    have hmem := (hslots ..).2 hs
    obtain ⟨place, htarget, hle⟩ := hall (offset, label) (by
      rw [h.jumpLocations, List.mem_map]
      exact ⟨_, hmem, rfl⟩)
    have hpiece : Piece.target mark blank (toAsciiLowercase label) 0 ps = some place :=
      (h.labelLocations _).symm.trans htarget
    have hlabel := (hlabels ..).1 hpiece
    have hmax : place ≤ kind.maxTarget := h.limit_eq hmem ▸ hle
    obtain ⟨hpos, hmark, -⟩ := Piece.render_of_target hfill hpiece
    refine ⟨place, hlabel, ?_, hmax, hpos, ?_, ?_⟩
    · have hvalue : b.fill label = toLE 2 place := by
        rw [ScriptBuilder.fill, htarget, Option.getD_some, writeU16LE,
          UInt16.toNat_ofNat_of_lt' (hmax.trans_lt kind.maxTarget_lt)]
      exact (Piece.render_of_mem_slots hfill hmem).trans hvalue
    · have hhead := congrArg List.head? hmark
      rw [List.head?_take, if_neg (by decide), List.head?_drop] at hhead
      exact hhead
    · rw [hlength]
      exact Nat.lt_succ_of_le hlabel.le_currentSize

/-- The script is patched, or a label is unreachable. -/
theorem toScript_after (ops : List Op) : match ((after ops).emit .ret).toScript with
    | .ok script => Patched ops script ∧ ¬Unreachable ops
    | .error _ => Unreachable ops := by
  obtain ⟨ps, h, hslots, hlabels⟩ := exists_assembled (ops ++ [.emit .ret])
  have hiff := resolves_iff h hslots hlabels
  have hret : after (ops ++ [.emit .ret]) = (after ops).emit .ret := after_concat ..
  rw [hret] at h hiff
  rw [unreachable_emit] at hiff
  simp only [slot_emit, label_emit] at hslots hlabels
  have hscript := h.toScript
  rcases htoScript : ((after ops).emit .ret).toScript with error | script
  · rw [htoScript] at hscript
    obtain ⟨entry, hentry, hrefuses⟩ := hscript
    by_contra hreachable
    exact hrefuses.not_resolves (hiff.2 hreachable entry hentry)
  · rw [htoScript] at hscript
    obtain ⟨hall, rfl⟩ := hscript
    exact ⟨patched_render rfl h hslots hlabels hall, hiff.1 hall⟩

/-! ## Ending the script -/

/-- The script or the error, as `endScriptWithError` gives them. -/
theorem ScriptBuilder.endScript_fst (b : ScriptBuilder) : b.endScript.1 =
    match b.endScriptWithError.1 with
    | (_, some error) => .error (.error error)
    | (script, none) => .ok script := by
  rw [endScript]
  split
  next h => rw [h]
  next h => rw [h]

/-- There is no script, but an error, if one is stored or a label is unreachable. -/
theorem endScriptWithError_after (ops : List Op) :
    match (after ops).endScriptWithError.1 with
    | (script, none) => Patched ops script ∧ ¬(after ops).Failed ∧ ¬Unreachable ops
    | (script, some _) => script = [] ∧ ((after ops).Failed ∨ Unreachable ops) := by
  have hscript := toScript_after ops
  have hemit : ((after ops).emit .ret).error = (after ops).error := rfl
  rw [ScriptBuilder.endScriptWithError, hemit]
  rcases herror : (after ops).error with - | error
  · rcases htoScript : ((after ops).emit .ret).toScript with error | script
    · rw [htoScript] at hscript
      exact ⟨rfl, .inr hscript⟩
    · rw [htoScript] at hscript
      exact ⟨hscript.1, fun h => h herror, hscript.2⟩
  · refine ⟨rfl, .inl ?_⟩
    rw [ScriptBuilder.Failed, herror]
    exact Option.some_ne_none error

/-- Some operation failed, none of them ending the script, iff an error is stored. -/
theorem failed_after (h : ∀ op ∈ ops, ¬op.Finishes) :
    (after ops).Failed ↔ ∃ op ∈ ops, op.Fails := by
  induction ops using List.reverseRecOn with
  | nil => simp [after, ScriptBuilder.Failed]
  | append_singleton ops op ih =>
    rw [List.forall_mem_append, List.forall_mem_singleton] at h
    rw [after_concat, Op.failed_exec h.2, ih h.1]
    simp only [List.mem_append, List.mem_singleton, or_and_right, exists_or, exists_eq_left]

/-- Labels are patched exactly: slots are apart and within what has been emitted, the
    loop only comes to such; a script is patched; and there is none iff an operation
    failed or a label is unreachable. -/
theorem endScript_exact (ops : List Op) :
    ((∀ offset kind label, Slot ops offset kind label → offset + 2 ≤ (after ops).currentSize) ∧
      ∀ offset kind label offset' kind' label', Slot ops offset kind label →
        Slot ops offset' kind' label' → (offset, kind, label) = (offset', kind', label') ∨
          offset + 2 ≤ offset' ∨ offset' + 2 ≤ offset) ∧
    (∀ es entry rest script, (after ops).jumpLocations = es ++ entry :: rest →
      es.foldlM (((after ops).emit .ret).patch) ((after ops).emit .ret).buffer = .ok script →
        entry.1 + 1 < script.length) ∧
    (∀ script, (after ops).endScript.1 = .ok script → Patched ops script) ∧
    ((∀ op ∈ ops, ¬op.Finishes) →
      ((∃ error, (after ops).endScript.1 = .error error) ↔
        (∃ op ∈ ops, op.Fails) ∨ Unreachable ops)) := by
  have hend := endScriptWithError_after ops
  refine ⟨slots_apart ops, fun es entry rest script hes hscript => ?_, fun script hscript => ?_,
    fun hops => ?_⟩
  · obtain ⟨ps, h, -⟩ := exists_assembled (ops ++ [.emit .ret])
    rw [after_concat] at h
    exact h.lt_length_of_patched hes hscript
  · rw [ScriptBuilder.endScript_fst] at hscript
    match hresult : (after ops).endScriptWithError.1 with
    | (_, some error) =>
      rw [hresult] at hscript
      cases hscript
    | (script', none) =>
      rw [hresult] at hscript hend
      obtain rfl := Except.ok.inj hscript
      exact hend.1
  · rw [ScriptBuilder.endScript_fst, ← failed_after hops]
    match hresult : (after ops).endScriptWithError.1 with
    | (_, some error) =>
      rw [hresult] at hend
      exact iff_of_true ⟨_, rfl⟩ hend.2
    | (script, none) =>
      rw [hresult] at hend
      exact iff_of_false nofun fun h => h.elim hend.2.1 hend.2.2

/-- A jump forward, over two bytes, to a label in another case. -/
def forwardOps : List Op := [.emitJump .jmp "End" 0, .emitRaw [1, 2], .emitLabel "end"]

theorem endScript_exact_forward :
    (after forwardOps).endScript.1 = .ok [8, 6, 0, 1, 2, 0, 11] ∧
      Patched forwardOps [8, 6, 0, 1, 2, 0, 11] ∧
        ¬((∃ op ∈ forwardOps, op.Fails) ∨ Unreachable forwardOps) := by
  have hscript : (after forwardOps).endScript.1 = .ok [8, 6, 0, 1, 2, 0, 11] := by decide +kernel
  have hexact := endScript_exact forwardOps
  refine ⟨hscript, hexact.2.2.1 _ hscript, (hexact.2.2.2 (by decide)).not.1 ?_⟩
  rw [hscript]
  exact nofun

end PhantasmaSdk.Vm
