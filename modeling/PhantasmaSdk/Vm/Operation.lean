import PhantasmaSdk.Vm.Script

/-!
# Operations of the script builder

What can be done with a builder, one operation at a time: most are its emitters, and
a contract or a runtime method is called by a few of them. The helpers for what
scripts mostly call are such calls (`transferTokens`, ...); given an address as text,
they may be refused before they emit anything.

An operation fails by itself, whatever has been built (`Op.Fails`, `failed_exec`).
-/

namespace PhantasmaSdk.Vm

open Codec Machine BinaryWriter ScriptBuilder

/-! ## Operations -/

inductive Op
  | emit (opcode : Opcode)
  | emitRaw (data : Bytes)
  | emitPush (reg : UInt8)
  | emitPop (reg : UInt8)
  | emitThrow (reg : UInt8)
  | emitExtCall (method : String) (reg : UInt8)
  | emitLoad (reg : UInt8) (data : Bytes) (vmType : VMType)
  | emitLoadString (reg : UInt8) (value : String)
  | emitLoadBool (reg : UInt8) (value : Bool)
  | emitLoadNumber (reg : UInt8) (value : ℤ)
  | emitLoadTimestamp (reg : UInt8) (unixSeconds : UInt64)
  | emitLoadTime (reg : UInt8) (unixSeconds : UInt64)
  | emitMove (srcReg dstReg : UInt8)
  | emitCopy (srcReg dstReg : UInt8)
  | emitLabel (label : String)
  | emitJump (opcode : Opcode) (label : String) (reg : UInt8)
  | emitCall (label : String) (registerCount : UInt8)
  | emitConditionalJump (opcode : Opcode) (srcReg : UInt8) (label : String)
  | emitVarBytes (value : UInt64)
  | callInterop (method : String) (args : List ScriptArg)
  | callContract (contractName method : String) (args : List ScriptArg)
  /-- A helper, given an address that is none. -/
  | fail (message : String)
  | endScript
  | endScriptHex
  | endScriptWithError

namespace Op

/-- The builder after the operation. -/
def exec (b : ScriptBuilder) : Op → ScriptBuilder
  | emit opcode => b.emit opcode
  | emitRaw data => b.emitRaw data
  | emitPush reg => b.emitPush reg
  | emitPop reg => b.emitPop reg
  | emitThrow reg => b.emitThrow reg
  | emitExtCall method reg => b.emitExtCall method reg
  | emitLoad reg data vmType => b.emitLoad reg data vmType
  | emitLoadString reg value => b.emitLoadString reg value
  | emitLoadBool reg value => b.emitLoadBool reg value
  | emitLoadNumber reg value => b.emitLoadNumber reg value
  | emitLoadTimestamp reg unixSeconds => b.emitLoadTimestamp reg unixSeconds
  | emitLoadTime reg unixSeconds => b.emitLoadTime reg unixSeconds
  | emitMove srcReg dstReg => b.emitMove srcReg dstReg
  | emitCopy srcReg dstReg => b.emitCopy srcReg dstReg
  | emitLabel label => b.emitLabel label
  | emitJump opcode label reg => b.emitJump opcode label reg
  | emitCall label registerCount => b.emitCall label registerCount
  | emitConditionalJump opcode srcReg label => b.emitConditionalJump opcode srcReg label
  | emitVarBytes value => b.emitVarBytes value
  | callInterop method args => b.callInterop method args
  | callContract contractName method args => b.callContract contractName method args
  | fail message => b.fail message
  | endScript => b.endScript.2
  | endScriptHex => b.endScriptHex.2
  | endScriptWithError => b.endScriptWithError.2

/-- The operation ends the script. -/
def Finishes : Op → Prop
  | endScript | endScriptHex | endScriptWithError => True
  | _ => False

instance : DecidablePred Finishes := fun op => by
  cases op <;> first | exact isTrue trivial | exact isFalse id

end Op

/-- More data than one instruction loads. -/
def Oversized (data : Bytes) : Prop := 0xFFFF < data.length

instance (data : Bytes) : Decidable (Oversized data) := inferInstanceAs (Decidable (_ < _))

mutual

/-- An argument that cannot be loaded, from a register on. -/
def ScriptArg.Fails (reg : UInt8) : ScriptArg → Prop
  | .address _ | .bool _ => False
  | .string value => Oversized (utf8 value)
  | .bytes value => Oversized value
  | .number value => Oversized (bigIntToCsharpBytes value)
  | .timestamp value => 2 ^ 32 ≤ value.toNat
  | .array values => reg > maxRegisterCount - 3 ∨ itemsFail reg 0 values

def itemsFail (reg : UInt8) (index : ℕ) : List ScriptArg → Prop
  | [] => False
  | item :: items =>
    item.Fails (reg + 1) ∨ Oversized (bigIntToCsharpBytes index) ∨ itemsFail reg (index + 1) items

end

/-- The operation is given what it cannot do: too much data or too late a time to load,
    arrays too deep, an opcode that does not jump, a number of registers out of range,
    or a text that is no address. -/
def Op.Fails : Op → Prop
  | emitLoad _ data _ => Oversized data
  | emitLoadString _ value => Oversized (utf8 value)
  | emitLoadNumber _ value => Oversized (bigIntToCsharpBytes value)
  | emitLoadTimestamp _ unixSeconds | emitLoadTime _ unixSeconds => 2 ^ 32 ≤ unixSeconds.toNat
  | emitExtCall method _ => Oversized (utf8 method)
  | emitJump opcode _ _ => opcode ∉ [Opcode.jmp, .jmpIf, .jmpNot]
  | emitCall _ registerCount => registerCount = 0 ∨ registerCount > maxRegisterCount
  | emitConditionalJump opcode _ _ => opcode ∉ [Opcode.jmpIf, .jmpNot]
  | callInterop method args => (∃ arg ∈ args, arg.Fails 0) ∨ Oversized (utf8 method)
  | callContract contractName method args =>
    (∃ arg ∈ args, arg.Fails 0) ∨ Oversized (utf8 method) ∨ Oversized (utf8 contractName)
  | fail _ => True
  | _ => False

/-! ## Which operations fail -/

namespace ScriptBuilder

/-- An error is stored. -/
def Failed (b : ScriptBuilder) : Prop := b.error ≠ none

variable {b : ScriptBuilder} {reg : UInt8}

theorem failed_fail (message : String) : (b.fail message).Failed := by
  rw [Failed, fail]
  cases b.error <;> exact nofun

/-- A load fails of too much data only. -/
theorem failed_emitLoad {data : Bytes} {vmType : VMType} :
    (b.emitLoad reg data vmType).Failed ↔ b.Failed ∨ Oversized data := by
  rw [emitLoad]
  split
  next h => exact iff_of_true (failed_fail _) (.inr h)
  next h => exact (or_iff_left h).symm

/-- A time is loaded if it fits 32 bits. -/
theorem failed_emitLoadTimestamp {unixSeconds : UInt64} :
    (b.emitLoadTimestamp reg unixSeconds).Failed ↔ b.Failed ∨ 2 ^ 32 ≤ unixSeconds.toNat := by
  rw [emitLoadTimestamp]
  split
  next h =>
    rw [failed_emitLoad, or_iff_left (by simp [Oversized]), or_iff_left (by omega)]
  next h => exact iff_of_true (failed_fail _) (.inr (by omega))

mutual

/-- Loading an argument fails if some part of it cannot be loaded. -/
theorem failed_loadIntoRegister (b : ScriptBuilder) (reg : UInt8) (value : ScriptArg) :
    (loadIntoRegister b reg value).Failed ↔ b.Failed ∨ value.Fails reg := by
  cases value with
  | address value =>
    rw [loadIntoRegister, failed_emitLoad, ScriptArg.Fails]
    refine or_congr_right (iff_false_intro ?_)
    rw [Oversized, Address.prefixedBytes, writeVarBytes, List.length_append, value.data.length_eq]
    decide
  | string value => exact failed_emitLoad
  | bool value =>
    rw [loadIntoRegister, emitLoadBool, failed_emitLoad, ScriptArg.Fails]
    exact or_congr_right (iff_false_intro (by simp [Oversized]))
  | bytes value => exact failed_emitLoad
  | number value => exact failed_emitLoad
  | timestamp value => exact failed_emitLoadTimestamp
  | array values =>
    rw [loadIntoRegister, ScriptArg.Fails]
    split
    next h => exact iff_of_true (failed_fail _) (.inr (.inl h))
    next h =>
      rw [failed_loadItems, or_iff_right h]
      exact Iff.rfl

theorem failed_loadItems (b : ScriptBuilder) (reg : UInt8) (index : ℕ) (values : List ScriptArg) :
    (loadItems b reg index values).Failed ↔ b.Failed ∨ itemsFail reg index values := by
  cases values with
  | nil => exact (or_iff_left id).symm
  | cons item items =>
    rw [loadItems, itemsFail, failed_loadItems]
    change ((loadIntoRegister b (reg + 1) item).emitLoadNumber (reg + 2) index).Failed ∨ _ ↔ _
    rw [emitLoadNumber, failed_emitLoad, failed_loadIntoRegister, or_assoc, or_assoc]

end

theorem failed_insertMethodArgs {args : List ScriptArg} :
    (b.insertMethodArgs args).Failed ↔ b.Failed ∨ ∃ arg ∈ args, arg.Fails 0 := by
  have hfoldl (args : List ScriptArg) (b : ScriptBuilder) :
      (args.foldl (fun b arg => (loadIntoRegister b 0 arg).emitPush 0) b).Failed ↔
        b.Failed ∨ ∃ arg ∈ args, arg.Fails 0 := by
    induction args generalizing b with
    | nil => simp
    | cons arg args ih =>
      rw [List.foldl_cons, ih]
      change (loadIntoRegister b 0 arg).Failed ∨ _ ↔ _
      rw [failed_loadIntoRegister, List.exists_mem_cons_iff, or_assoc]
  rw [insertMethodArgs, hfoldl]
  simp only [List.mem_reverse]

theorem failed_emitJump {opcode : Opcode} {label : String} :
    (b.emitJump opcode label reg).Failed ↔
      b.Failed ∨ opcode ∉ [Opcode.jmp, .jmpIf, .jmpNot] := by
  rw [emitJump]
  split
  next h => exact iff_of_true (failed_fail _) (.inr h)
  next h =>
    rw [or_iff_left h]
    dsimp only
    split <;> exact Iff.rfl

theorem failed_emitCall {label : String} {registerCount : UInt8} :
    (b.emitCall label registerCount).Failed ↔
      b.Failed ∨ registerCount = 0 ∨ registerCount > maxRegisterCount := by
  rw [emitCall]
  split
  next h => exact iff_of_true (failed_fail _) (.inr h)
  next h => exact (or_iff_left h).symm

theorem failed_emitConditionalJump {opcode : Opcode} {label : String} :
    (b.emitConditionalJump opcode reg label).Failed ↔
      b.Failed ∨ opcode ∉ [Opcode.jmpIf, .jmpNot] := by
  rw [emitConditionalJump]
  split
  next h => exact iff_of_true (failed_fail _) (.inr h)
  next h =>
    -- What jumps on a condition jumps.
    have hjump : opcode ∈ [Opcode.jmp, .jmpIf, .jmpNot] := List.mem_cons_of_mem _ (not_not.1 h)
    rw [failed_emitJump, or_iff_left h, or_iff_left (not_not.2 hjump)]

theorem failed_callInterop {method : String} {args : List ScriptArg} :
    (b.callInterop method args).Failed ↔
      b.Failed ∨ (∃ arg ∈ args, arg.Fails 0) ∨ Oversized (utf8 method) := by
  change ((b.insertMethodArgs args).emitLoadString 0 method).Failed ↔ _
  rw [emitLoadString, failed_emitLoad, failed_insertMethodArgs, or_assoc]

theorem failed_callContract {contractName method : String} {args : List ScriptArg} :
    (b.callContract contractName method args).Failed ↔ b.Failed ∨
      (∃ arg ∈ args, arg.Fails 0) ∨ Oversized (utf8 method) ∨ Oversized (utf8 contractName) := by
  change ((((b.insertMethodArgs args).emitLoadString 0 method).emitPush 0).emitLoadString 0
    contractName).Failed ↔ _
  rw [emitLoadString, failed_emitLoad]
  change ((b.insertMethodArgs args).emitLoadString 0 method).Failed ∨ _ ↔ _
  rw [emitLoadString, failed_emitLoad, failed_insertMethodArgs, or_assoc, or_assoc]

end ScriptBuilder

/-- An error is stored after an operation that does not end the script if it was
    before, or if the operation fails. -/
theorem Op.failed_exec {b : ScriptBuilder} {op : Op} (h : ¬op.Finishes) :
    (op.exec b).Failed ↔ b.Failed ∨ op.Fails := by
  cases op with
  | emitExtCall method reg => exact failed_emitLoad
  | emitLoad reg data vmType => exact failed_emitLoad
  | emitLoadString reg value => exact failed_emitLoad
  | emitLoadBool reg value =>
    refine failed_emitLoad.trans (or_congr_right (iff_false_intro ?_))
    simp [Oversized]
  | emitLoadNumber reg value => exact failed_emitLoad
  | emitLoadTimestamp reg unixSeconds => exact failed_emitLoadTimestamp
  | emitLoadTime reg unixSeconds => exact failed_emitLoadTimestamp
  | emitJump opcode label reg => exact failed_emitJump
  | emitCall label registerCount => exact failed_emitCall
  | emitConditionalJump opcode srcReg label => exact failed_emitConditionalJump
  | callInterop method args => exact failed_callInterop
  | callContract contractName method args => exact failed_callContract
  | fail message => exact iff_of_true (failed_fail _) (.inr trivial)
  | endScript | endScriptHex | endScriptWithError => exact absurd trivial h
  | _ => exact (or_iff_left id).symm

end PhantasmaSdk.Vm
