import Mathlib.Data.String.Basic
import PhantasmaSdk.Machine.Assembly
import PhantasmaSdk.Machine.OrderedMap
import PhantasmaSdk.Vm.Object

/-!
# The script builder

A script is built by one operation after the other, each of which adds code or puts
down a label. The place a jump or a call leads to may not be known when it is
emitted: two bytes are reserved for it, and written over when the script is ended.

An operation that is given what it cannot do stores an error in the builder, the
first one of several, and whatever it has emitted until then stays. Ending the
script takes the error out again.
-/

namespace PhantasmaSdk.Vm

open Codec Machine BinaryWriter

/-! ## Opcodes -/

inductive Opcode
  | nop | move | copy | push | pop | swap | call | extCall | jmp | jmpIf | jmpNot | ret | throw
  | load | cast | cat | range | left | right | size | count | not | and | or | xor | equal | lt
  | gt | lte | gte | inc | dec | sign | negate | abs | add | sub | mul | div | mod | shl | shr
  | min | max | pow | ctx | switch | put | get | clear | unpack | pack | debug | substr | remove
  | evm
  deriving DecidableEq, Repr

/-- Numbered in order, but for the last one. -/
def Opcode.code (opcode : Opcode) : UInt8 :=
  if opcode = evm then 255 else UInt8.ofNat opcode.ctorIdx

def Opcode.names : List String :=
  ["Nop", "Move", "Copy", "Push", "Pop", "Swap", "Call", "ExtCall", "Jmp", "JmpIf", "JmpNot",
    "Ret", "Throw", "Load", "Cast", "Cat", "Range", "Left", "Right", "Size", "Count", "Not", "And",
    "Or", "Xor", "Equal", "Lt", "Gt", "Lte", "Gte", "Inc", "Dec", "Sign", "Negate", "Abs", "Add",
    "Sub", "Mul", "Div", "Mod", "Shl", "Shr", "Min", "Max", "Pow", "Ctx", "Switch", "Put", "Get",
    "Clear", "Unpack", "Pack", "Debug", "Substr", "Remove", "Evm"]

def Opcode.toText (opcode : Opcode) : String := names.getD opcode.ctorIdx ""

/-! ## Arguments -/

structure Address where
  data : FixedBytes 34
  deriving DecidableEq, Repr

def Address.prefixedBytes (address : Address) : Bytes := writeVarBytes address.data.bytes

/-- An argument of a call from a script. -/
inductive ScriptArg
  | address (value : Address)
  | string (value : String)
  | bool (value : Bool)
  | bytes (value : Bytes)
  | number (value : ℤ)
  | timestamp (value : UInt64)
  | array (values : List ScriptArg)

/-- The ASCII letters in lower case. -/
def toAsciiLowercase (text : String) : String := String.ofList (text.toList.map Char.toLower)

/-! ## The builder -/

/-- What two bytes are reserved for. -/
inductive Reference
  | jump
  | call
  deriving DecidableEq, Repr

/-- The code emitted so far, the slots and labels in it, and the error stored, if any. -/
structure ScriptBuilder where
  buffer : Bytes := []
  jumpLocations : OrderedMap ℕ String := []
  labelLocations : OrderedMap String ℕ := []
  callOffsets : Finset ℕ := ∅
  error : Option PhantasmaError := none

namespace ScriptBuilder

def maxRegisterCount : UInt8 := 32
def maxJumpTarget : ℕ := 32767
def maxCallTarget : ℕ := 65535

variable (b : ScriptBuilder)

def currentSize : ℕ := b.buffer.length

/-- Bytes written to the buffer. -/
def write (data : Bytes) : ScriptBuilder :=
  { b with buffer := b.buffer ++ data }

def byte (value : UInt8) : ScriptBuilder := b.write (writeU8 value)

/-- The first error is the one that is stored. -/
def fail (message : String) : ScriptBuilder :=
  { b with error := b.error.or (some (.builder message)) }

def emit (opcode : Opcode) : ScriptBuilder := b.byte opcode.code

def emitRaw (data : Bytes) : ScriptBuilder := b.write data

def emitPush (reg : UInt8) : ScriptBuilder := (b.emit .push).byte reg

def emitPop (reg : UInt8) : ScriptBuilder := (b.emit .pop).byte reg

def emitThrow (reg : UInt8) : ScriptBuilder := (b.emit .throw).byte reg

/-- Data loaded into a register, with its length in front. -/
def emitLoad (reg : UInt8) (data : Bytes) (vmType : VMType) : ScriptBuilder :=
  if data.length > 0xFFFF then b.fail s!"tried to load too much data: {data.length} bytes"
  else ((((b.emit .load).byte reg).byte vmType.code).write
    (writeVarUint (UInt64.ofNat data.length))).write data

def emitLoadString (reg : UInt8) (value : String) : ScriptBuilder :=
  b.emitLoad reg (utf8 value) .string

def emitLoadBool (reg : UInt8) (value : Bool) : ScriptBuilder :=
  b.emitLoad reg [if value then 1 else 0] .bool

/-- The number as the reference SDKs write it, without the padding of VM storage. -/
def emitLoadNumber (reg : UInt8) (value : ℤ) : ScriptBuilder :=
  b.emitLoad reg (bigIntToCsharpBytes value) .number

/-- Seconds that fit 32 bits. -/
def emitLoadTimestamp (reg : UInt8) (unixSeconds : UInt64) : ScriptBuilder :=
  if unixSeconds.toNat < 2 ^ 32 then b.emitLoad reg (toLE 4 unixSeconds.toNat) .timestamp
  else b.fail s!"timestamp out of VM uint32 range: {unixSeconds}"

def emitLoadTime (reg : UInt8) (unixSeconds : UInt64) : ScriptBuilder :=
  b.emitLoadTimestamp reg unixSeconds

def emitExtCall (method : String) (reg : UInt8) : ScriptBuilder :=
  ((b.emitLoadString reg method).emit .extCall).byte reg

def emitMove (srcReg dstReg : UInt8) : ScriptBuilder := ((b.emit .move).byte srcReg).byte dstReg

def emitCopy (srcReg dstReg : UInt8) : ScriptBuilder := ((b.emit .copy).byte srcReg).byte dstReg

/-- A `NOP`, and the place after it under the name of the label. -/
def emitLabel (label : String) : ScriptBuilder :=
  { b with
    buffer := b.buffer ++ writeU8 Opcode.nop.code
    labelLocations := b.labelLocations.insert (toAsciiLowercase label) (b.currentSize + 1) }

/-- Two bytes for the place of a label. -/
def reserve (kind : Reference) (label : String) : ScriptBuilder :=
  { b with
    buffer := b.buffer ++ writeU16LE 0
    jumpLocations := b.jumpLocations.insert b.currentSize label
    callOffsets := if kind = .call then insert b.currentSize b.callOffsets else b.callOffsets }

/-- A jump to a label, with a register if it is conditional. -/
def emitJump (opcode : Opcode) (label : String) (reg : UInt8) : ScriptBuilder :=
  if opcode ∉ [Opcode.jmp, .jmpIf, .jmpNot] then b.fail s!"invalid jump opcode: {opcode.toText}"
  else
    let b := b.emit opcode
    let b := if opcode ≠ .jmp then b.byte reg else b
    b.reserve .jump label

/-- A call of a label, with the number of registers it takes. -/
def emitCall (label : String) (registerCount : UInt8) : ScriptBuilder :=
  if registerCount = 0 ∨ registerCount > maxRegisterCount then
    b.fail s!"invalid number of registers: {registerCount}"
  else ((b.emit .call).byte registerCount).reserve .call label

def emitConditionalJump (opcode : Opcode) (srcReg : UInt8) (label : String) : ScriptBuilder :=
  if opcode ∉ [Opcode.jmpIf, .jmpNot] then
    b.fail s!"invalid conditional jump opcode: {opcode.toText}"
  else b.emitJump opcode label srcReg

def emitVarBytes (value : UInt64) : ScriptBuilder := b.write (writeVarUint value)

end ScriptBuilder

open ScriptBuilder in
mutual

/-- An argument in a register; an array takes the two registers after it as well. -/
def loadIntoRegister (b : ScriptBuilder) (reg : UInt8) : ScriptArg → ScriptBuilder
  | .address value => b.emitLoad reg value.prefixedBytes .bytes
  | .string value => b.emitLoadString reg value
  | .bool value => b.emitLoadBool reg value
  | .bytes value => b.emitLoad reg value .bytes
  | .number value => b.emitLoadNumber reg value
  | .timestamp value => b.emitLoadTimestamp reg value
  | .array values =>
    if reg > maxRegisterCount - 3 then
      b.fail s!"array load needs three registers starting at {reg}"
    else loadItems ((((b.emit .cast).byte reg).byte reg).byte VMType.none.code) reg 0 values

/-- The items of an array, from the `index`-th on: each is put under its index. -/
def loadItems (b : ScriptBuilder) (reg : UInt8) (index : ℕ) : List ScriptArg → ScriptBuilder
  | [] => b
  | item :: items =>
    -- An item that fails leaves its error; the rest is emitted all the same.
    let b := (loadIntoRegister b (reg + 1) item).emitLoadNumber (reg + 2) index
    let b := (((b.emit .put).byte (reg + 1)).byte reg).byte (reg + 2)
    loadItems b reg (index + 1) items

end

namespace ScriptBuilder

variable (b : ScriptBuilder)

/-- Arguments pushed from the last one to the first. -/
def insertMethodArgs (args : List ScriptArg) : ScriptBuilder :=
  args.reverse.foldl (fun b arg => (loadIntoRegister b 0 arg).emitPush 0) b

def callInterop (method : String) (args : List ScriptArg) : ScriptBuilder :=
  (((b.insertMethodArgs args).emitLoadString 0 method).emit .extCall).byte 0

def callContract (contractName method : String) (args : List ScriptArg) : ScriptBuilder :=
  let b := ((b.insertMethodArgs args).emitLoadString 0 method).emitPush 0
  let b := (((b.emitLoadString 0 contractName).emit .ctx).byte 0).byte 1
  (b.emit .switch).byte 1

/-! ## Ending the script -/

/-- The place of a label is written over the two bytes reserved for it. -/
def patch (script : Bytes) (entry : ℕ × String) : Except PhantasmaError Bytes :=
  let (offset, label) := entry
  match b.labelLocations.get (toAsciiLowercase label) with
  | none => .error (.builder s!"could not find label: {label}")
  | some target =>
    let limit := if offset ∈ b.callOffsets then maxCallTarget else maxJumpTarget
    if target > limit then
      .error (.builder
        s!"label offset {target} is above {limit}, the largest target allowed here")
    else if offset + 1 ≥ script.length then
      .error (.builder s!"invalid jump patch offset: {offset}")
    else .ok (overwrite script offset (writeU16LE (UInt16.ofNat target)))

/-- The code with all labels patched, by ascending offset. -/
def toScript : Except PhantasmaError Bytes := b.jumpLocations.foldlM b.patch b.buffer

/-- The script, or no script and the error; and the builder that is left. -/
def endScriptWithError : (Bytes × Option PhantasmaError) × ScriptBuilder :=
  let b := b.emit .ret
  -- The error is taken out; the code stays, with one `RET` more.
  match b.error with
  | some error => (([], some error), { b with error := none })
  | none =>
    match b.toScript with
    | .ok script => ((script, none), b)
    | .error error => (([], some error), b)

def endScript : Result Bytes × ScriptBuilder :=
  match b.endScriptWithError with
  | ((_, some error), b) => (.error (.error error), b)
  | ((script, none), b) => (.ok script, b)

def endScriptHex : Result String × ScriptBuilder :=
  let (script, b) := b.endScript
  (script.map fun script => (hexEncode script).toUpper, b)

end ScriptBuilder

end PhantasmaSdk.Vm
