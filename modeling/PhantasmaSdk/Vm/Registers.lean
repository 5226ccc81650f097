import PhantasmaSdk.Vm.Script

/-!
# The registers of arguments

The arguments of a call are loaded into the first register, one after the other, and
pushed. An array is put together in the register it is loaded into, item by item, with
the two registers after it: an item that is an array again is one register further,
and an array is refused where there are no three registers left.

What is emitted are instructions, which are read back from the code
(`Instruction.reads_read`). All their registers exist, computing them does not
overflow, and each argument is pushed once, from the last one to the first
(`insertMethodArgs_spec`).
-/

namespace PhantasmaSdk.Vm

open Codec Codec.Decoder CarbonReader BinaryWriter BinaryReader ScriptBuilder

/-! ## Instructions -/

/-- The instructions that load arguments and push them. -/
inductive Instruction
  | load (reg : UInt8) (vmType : VMType) (data : Bytes)
  | cast (source target : UInt8) (vmType : VMType)
  | put (source target key : UInt8)
  | push (reg : UInt8)
  deriving DecidableEq, Repr

namespace Instruction

def encode : Instruction → Bytes
  | load reg vmType data =>
    writeU8 Opcode.load.code ++ (writeU8 reg ++ (writeU8 vmType.code ++ writeVarBytes data))
  | cast source target vmType =>
    writeU8 Opcode.cast.code ++ (writeU8 source ++ (writeU8 target ++ writeU8 vmType.code))
  | put source target key =>
    writeU8 Opcode.put.code ++ (writeU8 source ++ (writeU8 target ++ writeU8 key))
  | push reg => writeU8 Opcode.push.code ++ writeU8 reg

def registers : Instruction → List UInt8
  | load reg _ _ => [reg]
  | cast source target _ => [source, target]
  | put source target key => [source, target, key]
  | push reg => [reg]

def IsPush : Instruction → Prop
  | push _ => True
  | _ => False

/-- No more data is loaded than a load can. -/
def Fits : Instruction → Prop
  | load _ _ data => data.length ≤ 0xFFFF
  | _ => True

def encodeAll (code : List Instruction) : Bytes := (code.map encode).flatten

/-- The instruction that the code begins with. -/
def read : Reader Instruction := do
  let opcode ← readU8
  if opcode = Opcode.load.code then do
    let reg ← readU8
    let code ← readU8
    let vmType ← lift (VMType.tryFrom code)
    let data ← readVarBytes 0xFFFF
    pure (load reg vmType data)
  else if opcode = Opcode.cast.code then do
    let source ← readU8
    let target ← readU8
    let code ← readU8
    let vmType ← lift (VMType.tryFrom code)
    pure (cast source target vmType)
  else if opcode = Opcode.put.code then do
    let source ← readU8
    let target ← readU8
    let key ← readU8
    pure (put source target key)
  else if opcode = Opcode.push.code then do
    let reg ← readU8
    pure (push reg)
  else refuse "not an instruction of arguments"

/-- An instruction is read back from the code. -/
theorem reads_read {i : Instruction} (h : i.Fits) : read.Reads i.encode i := by
  cases i with
  | load reg vmType data =>
    have hdata : (readVarBytes 0xFFFF).Reads (writeVarBytes data) data :=
      reads_readVarBytes h (Nat.lt_of_le_of_lt h (by decide))
    refine (reads_readU8 _).bind ?_
    rw [if_pos rfl]
    refine (reads_readU8 reg).bind ((reads_readU8 _).bind ?_)
    exact (reads_lift (VMType.tryFrom_code vmType)).bind_nil (hdata.map _)
  | cast source target vmType =>
    refine (reads_readU8 _).bind ?_
    rw [if_neg (by decide), if_pos rfl]
    refine (reads_readU8 source).bind ((reads_readU8 target).bind ?_)
    refine Reads.congr ((reads_readU8 _).bind (t := []) ?_) (List.append_nil _).symm rfl
    exact (reads_lift (VMType.tryFrom_code vmType)).bind_nil (reads_pure _)
  | put source target key =>
    refine (reads_readU8 _).bind ?_
    rw [if_neg (by decide), if_neg (by decide), if_pos rfl]
    exact (reads_readU8 source).bind ((reads_readU8 target).bind ((reads_readU8 key).map _))
  | push reg =>
    refine (reads_readU8 _).bind ?_
    rw [if_neg (by decide), if_neg (by decide), if_neg (by decide), if_pos rfl]
    exact (reads_readU8 reg).map _

/-- Code is read back instruction by instruction. -/
theorem reads_encodeAll {code : List Instruction} (h : ∀ i ∈ code, i.Fits) :
    (read.replicate code.length).Reads (encodeAll code) code := by
  have hall : List.Forall₂ read.Reads (code.map encode) code := by
    rw [List.forall₂_map_left_iff, List.forall₂_same]
    exact fun i hi => reads_read (h i hi)
  exact reads_replicate hall

end Instruction

open Instruction

/-! ## The code of arguments -/

/-- A load, unless the data is too long. -/
def loadCode (reg : UInt8) (data : Bytes) (vmType : VMType) : List Instruction :=
  if data.length > 0xFFFF then [] else [.load reg vmType data]

mutual

/-- The instructions that load an argument into a register; none for what cannot be
    loaded. -/
def argCode (reg : UInt8) : ScriptArg → List Instruction
  | .address value => loadCode reg value.prefixedBytes .bytes
  | .string value => loadCode reg (utf8 value) .string
  | .bool value => loadCode reg [if value then 1 else 0] .bool
  | .bytes value => loadCode reg value .bytes
  | .number value => loadCode reg (bigIntToCsharpBytes value) .number
  | .timestamp value =>
    if value.toNat < 2 ^ 32 then loadCode reg (toLE 4 value.toNat) .timestamp else []
  | .array values =>
    if reg > maxRegisterCount - 3 then [] else .cast reg reg .none :: itemsCode reg 0 values

def itemsCode (reg : UInt8) (index : ℕ) : List ScriptArg → List Instruction
  | [] => []
  | item :: items =>
    argCode (reg + 1) item ++ (loadCode (reg + 2) (bigIntToCsharpBytes index) .number ++
      .put (reg + 1) reg (reg + 2) :: itemsCode reg (index + 1) items)

end

/-- Every argument is loaded and pushed, from the last one to the first. -/
def argsCode (args : List ScriptArg) : List Instruction :=
  args.reverse.flatMap fun arg => argCode 0 arg ++ [.push 0]

/-! ## What is emitted -/

theorem encodeAll_append (code code' : List Instruction) :
    encodeAll (code ++ code') = encodeAll code ++ encodeAll code' := by
  rw [encodeAll, List.map_append, List.flatten_append, encodeAll, encodeAll]

theorem encodeAll_cons (i : Instruction) (code : List Instruction) :
    encodeAll (i :: code) = i.encode ++ encodeAll code := rfl

theorem buffer_emitLoad (b : ScriptBuilder) (reg : UInt8) (data : Bytes) (vmType : VMType) :
    (b.emitLoad reg data vmType).buffer = b.buffer ++ encodeAll (loadCode reg data vmType) := by
  rw [emitLoad, loadCode]
  split
  · exact (List.append_nil _).symm
  · simp only [encodeAll, List.map_cons, List.map_nil, List.flatten_cons, List.flatten_nil,
      List.append_nil, encode, writeVarBytes, ← List.append_assoc]
    rfl

mutual

theorem buffer_loadIntoRegister (b : ScriptBuilder) (reg : UInt8) (value : ScriptArg) :
    (loadIntoRegister b reg value).buffer = b.buffer ++ encodeAll (argCode reg value) := by
  cases value with
  | address value => exact buffer_emitLoad _ _ _ _
  | string value => exact buffer_emitLoad _ _ _ _
  | bool value => exact buffer_emitLoad b reg [if value then 1 else 0] .bool
  | bytes value => exact buffer_emitLoad _ _ _ _
  | number value => exact buffer_emitLoad _ _ _ _
  | timestamp value =>
    change (b.emitLoadTimestamp reg value).buffer = _
    rw [emitLoadTimestamp, argCode]
    split
    · exact buffer_emitLoad _ _ _ _
    · exact (List.append_nil _).symm
  | array values =>
    rw [loadIntoRegister, argCode]
    split
    · exact (List.append_nil _).symm
    · rw [buffer_loadItems, encodeAll_cons, ← List.append_assoc]
      refine congrArg (· ++ _) ?_
      simp only [encode, ← List.append_assoc]
      rfl

theorem buffer_loadItems (b : ScriptBuilder) (reg : UInt8) (index : ℕ)
    (values : List ScriptArg) :
    (loadItems b reg index values).buffer = b.buffer ++ encodeAll (itemsCode reg index values) := by
  cases values with
  | nil => exact (List.append_nil _).symm
  | cons item items =>
    have hitem := buffer_loadIntoRegister b (reg + 1) item
    have hindex := buffer_emitLoad (loadIntoRegister b (reg + 1) item) (reg + 2)
      (bigIntToCsharpBytes index) .number
    rw [loadItems, buffer_loadItems, itemsCode, encodeAll_append, encodeAll_append, encodeAll_cons]
    simp only [byte, emit, ScriptBuilder.write, emitLoadNumber, hindex, hitem, encode,
      List.append_assoc]

end

theorem buffer_insertMethodArgs (b : ScriptBuilder) (args : List ScriptArg) :
    (b.insertMethodArgs args).buffer = b.buffer ++ encodeAll (argsCode args) := by
  rw [insertMethodArgs, argsCode]
  induction args.reverse generalizing b with
  | nil => exact (List.append_nil _).symm
  | cons arg args ih =>
    rw [List.foldl_cons, ih, List.flatMap_cons, encodeAll_append, encodeAll_append]
    simp only [emitPush, byte, emit, ScriptBuilder.write, buffer_loadIntoRegister, encodeAll,
      List.map_cons, List.map_nil, List.flatten_cons, List.flatten_nil, List.append_nil, encode,
      List.append_assoc]

/-! ## The registers of it -/

/-- The registers of an instruction exist, and it can be read back. -/
def InFile (i : Instruction) : Prop := i.Fits ∧ ∀ reg ∈ i.registers, reg < maxRegisterCount

theorem loadCode_inFile {reg : UInt8} (h : reg < maxRegisterCount) (data : Bytes)
    (vmType : VMType) : ∀ i ∈ loadCode reg data vmType, InFile i ∧ ¬i.IsPush := by
  intro i hi
  rw [loadCode] at hi
  split at hi
  · cases hi
  · next hdata =>
    obtain rfl := List.mem_singleton.1 hi
    exact ⟨⟨not_lt.1 hdata, List.forall_mem_singleton.2 h⟩, id⟩

theorem toNat_le_of_room {reg : UInt8} (h : ¬reg > maxRegisterCount - 3) : reg.toNat ≤ 29 :=
  UInt8.le_iff_toNat_le.1 (UInt8.not_lt.1 h)

/-- Where an array may be loaded, there are two registers more. -/
theorem registers_after {reg : UInt8} (h : ¬reg > maxRegisterCount - 3) :
    reg < maxRegisterCount ∧ reg + 1 < maxRegisterCount ∧ reg + 2 < maxRegisterCount ∧
      (reg + 1).toNat = reg.toNat + 1 ∧ (reg + 2).toNat = reg.toNat + 2 := by
  have hle := toNat_le_of_room h
  have hmax : maxRegisterCount.toNat = 32 := rfl
  have hone : (1 : UInt8).toNat = 1 := rfl
  have htwo : (2 : UInt8).toNat = 2 := rfl
  simp only [UInt8.lt_iff_toNat_lt, UInt8.toNat_add, hmax, hone, htwo]
  omega

mutual

/-- An argument is loaded without a push, into registers that exist. -/
theorem argCode_inFile {reg : UInt8} (h : reg < maxRegisterCount) (value : ScriptArg) :
    ∀ i ∈ argCode reg value, InFile i ∧ ¬i.IsPush := by
  cases value with
  | address value => exact loadCode_inFile h _ _
  | string value => exact loadCode_inFile h _ _
  | bool value => exact loadCode_inFile h [if value then 1 else 0] .bool
  | bytes value => exact loadCode_inFile h _ _
  | number value => exact loadCode_inFile h _ _
  | timestamp value =>
    rw [argCode]
    split
    · exact loadCode_inFile h _ _
    · nofun
  | array values =>
    rw [argCode]
    split
    · nofun
    · next hroom =>
      refine List.forall_mem_cons.2 ⟨⟨⟨trivial, ?_⟩, id⟩, itemsCode_inFile hroom 0 values⟩
      exact List.forall_mem_cons.2 ⟨h, List.forall_mem_singleton.2 h⟩

theorem itemsCode_inFile {reg : UInt8} (h : ¬reg > maxRegisterCount - 3) (index : ℕ)
    (values : List ScriptArg) : ∀ i ∈ itemsCode reg index values, InFile i ∧ ¬i.IsPush := by
  cases values with
  | nil => nofun
  | cons item items =>
    obtain ⟨hreg, hone, htwo, -⟩ := registers_after h
    rw [itemsCode]
    refine List.forall_mem_append.2 ⟨argCode_inFile hone item, List.forall_mem_append.2
      ⟨loadCode_inFile htwo _ _, List.forall_mem_cons.2
        ⟨⟨⟨trivial, ?_⟩, id⟩, itemsCode_inFile h (index + 1) items⟩⟩⟩
    exact List.forall_mem_cons.2 ⟨hone, List.forall_mem_cons.2
      ⟨hreg, List.forall_mem_singleton.2 htwo⟩⟩

end

theorem argsCode_inFile (args : List ScriptArg) : ∀ i ∈ argsCode args, InFile i := by
  intro i hi
  obtain ⟨arg, -, hi⟩ := List.mem_flatMap.1 hi
  obtain hi | hi := List.mem_append.1 hi
  · exact (argCode_inFile (by decide) arg i hi).1
  · obtain rfl := List.mem_singleton.1 hi
    exact ⟨trivial, List.forall_mem_singleton.2 (by decide)⟩

/-! ## Computing them -/

/-- A sum of registers, which panics where it is none. -/
def addU8 (a b : UInt8) : Result UInt8 :=
  if a.toNat + b.toNat < 256 then pure (a + b) else overflow

mutual

/-- An argument in a register, the registers after it being computed with a check. -/
def loadChecked (b : ScriptBuilder) (reg : UInt8) : ScriptArg → Result ScriptBuilder
  | .array values =>
    if reg > maxRegisterCount - 3 then
      pure (b.fail s!"array load needs three registers starting at {reg}")
    else itemsChecked ((((b.emit .cast).byte reg).byte reg).byte VMType.none.code) reg 0 values
  | value => pure (loadIntoRegister b reg value)

def itemsChecked (b : ScriptBuilder) (reg : UInt8) (index : ℕ) :
    List ScriptArg → Result ScriptBuilder
  | [] => pure b
  | item :: items => do
    let source ← addU8 reg 1
    let key ← addU8 reg 2
    let b ← loadChecked b source item
    let b := b.emitLoadNumber key index
    let b := (((b.emit .put).byte source).byte reg).byte key
    itemsChecked b reg (index + 1) items

end

def insertMethodArgsChecked (b : ScriptBuilder) (args : List ScriptArg) : Result ScriptBuilder :=
  args.reverse.foldlM (fun b arg => do
    let b ← loadChecked b 0 arg
    pure (b.emitPush 0)) b

theorem addU8_of_room {reg : UInt8} (h : ¬reg > maxRegisterCount - 3) :
    addU8 reg 1 = .ok (reg + 1) ∧ addU8 reg 2 = .ok (reg + 2) := by
  have hle := toNat_le_of_room h
  have hone : (1 : UInt8).toNat = 1 := rfl
  have htwo : (2 : UInt8).toNat = 2 := rfl
  exact ⟨if_pos (by omega), if_pos (by omega)⟩

mutual

/-- The registers of an argument are computed without overflow. -/
theorem loadChecked_eq (b : ScriptBuilder) (reg : UInt8) (value : ScriptArg) :
    loadChecked b reg value = .ok (loadIntoRegister b reg value) := by
  cases value with
  | array values =>
    rw [loadChecked, loadIntoRegister]
    split
    · rfl
    · next hroom => exact itemsChecked_eq hroom _ _ _
  | _ => rfl

theorem itemsChecked_eq {reg : UInt8} (h : ¬reg > maxRegisterCount - 3) (b : ScriptBuilder)
    (index : ℕ) (values : List ScriptArg) :
    itemsChecked b reg index values = .ok (loadItems b reg index values) := by
  cases values with
  | nil => rfl
  | cons item items =>
    obtain ⟨hone, htwo⟩ := addU8_of_room h
    rw [itemsChecked, hone, ok_bind, htwo, ok_bind, loadChecked_eq, ok_bind, loadItems]
    exact itemsChecked_eq h _ _ _

end

theorem insertMethodArgsChecked_eq (b : ScriptBuilder) (args : List ScriptArg) :
    insertMethodArgsChecked b args = .ok (b.insertMethodArgs args) := by
  rw [insertMethodArgsChecked, insertMethodArgs]
  induction args.reverse generalizing b with
  | nil => rfl
  | cons arg args ih =>
    rw [List.foldlM_cons, loadChecked_eq, ok_bind, List.foldl_cons]
    exact ih _

/-- Whatever the arguments, and whether an error is stored or not: no register overflows
    when it is computed, what is emitted is read back as the instructions that load and
    push each argument, from the last one to the first, all their registers exist, and
    nothing else is pushed. -/
theorem insertMethodArgs_spec (b : ScriptBuilder) (args : List ScriptArg) :
    insertMethodArgsChecked b args = .ok (b.insertMethodArgs args) ∧
    (b.insertMethodArgs args).buffer = b.buffer ++ encodeAll (argsCode args) ∧
    (read.replicate (argsCode args).length).Reads (encodeAll (argsCode args)) (argsCode args) ∧
    (∀ i ∈ argsCode args, ∀ reg ∈ i.registers, reg < maxRegisterCount) ∧
    argsCode args = args.reverse.flatMap (fun arg => argCode 0 arg ++ [.push 0]) ∧
    ∀ arg, ∀ i ∈ argCode 0 arg, ¬i.IsPush :=
  ⟨insertMethodArgsChecked_eq b args, buffer_insertMethodArgs b args,
    reads_encodeAll fun i hi => (argsCode_inFile args i hi).1,
    fun i hi => (argsCode_inFile args i hi).2, rfl,
    fun arg i hi => (argCode_inFile (by decide) arg i hi).2⟩

end PhantasmaSdk.Vm
