import PhantasmaSdk.Vm.Binary

/-!
# VM objects

The values of the VM: scalars, and structs that map objects to objects. An object is
written as its type and what it holds, and read back the same, if a reader takes all
its parts; cut short, it is refused (`VMObject.fromBytes_toBytes_and_prefix`).
-/

namespace PhantasmaSdk.Vm

open Codec Codec.Decoder CarbonReader BinaryWriter BinaryReader

/-! ## Objects -/

inductive VMType
  | none
  | struct
  | bytes
  | number
  | string
  | timestamp
  | bool
  | enum
  | object
  deriving DecidableEq, Repr

namespace VMType

def code : VMType → UInt8
  | none => 0
  | struct => 1
  | bytes => 2
  | number => 3
  | string => 4
  | timestamp => 5
  | bool => 6
  | enum => 7
  | object => 8

def tryFrom : UInt8 → Result VMType
  | 0 => pure none
  | 1 => pure struct
  | 2 => pure bytes
  | 3 => pure number
  | 4 => pure string
  | 5 => pure timestamp
  | 6 => pure bool
  | 7 => pure enum
  | 8 => pure object
  | _ => serialization "unsupported VM object type"

theorem tryFrom_code (t : VMType) : tryFrom t.code = .ok t := by cases t <;> rfl

end VMType

inductive VMObject
  | none
  | struct (items : List (VMObject × VMObject))
  | bytes (value : Bytes)
  | number (value : ℤ)
  | string (value : String)
  | timestamp (value : UInt32)
  | bool (value : Bool)
  | enum (value : UInt32)
  | object (value : Bytes)

namespace VMObject

def vmType : VMObject → VMType
  | none => .none
  | struct _ => .struct
  | bytes _ => .bytes
  | number _ => .number
  | string _ => .string
  | timestamp _ => .timestamp
  | bool _ => .bool
  | enum _ => .enum
  | object _ => .object

/-! ## Writing -/

mutual

/-- What is written of an object after its type. -/
def writeBody : VMObject → Result Bytes
  | none => pure []
  | struct items => do
    let body ← writeItems items
    pure (writeVarUint (UInt64.ofNat items.length) ++ body)
  | bytes value => pure (writeVarBytes value)
  | object value => pure (writeVarBytes (writeVarBytes value))
  | number value => pure (writeBigInteger value)
  | string value => pure (writeString value)
  | timestamp value => pure (writeU32LE value)
  | bool value => pure (writeBool value)
  | enum value =>
    if value.toNat < 256 then pure (writeU8 value.toUInt8)
    else serialization "enum value exceeds one byte"

/-- A key and its value, each with its type. -/
def writeItem : VMObject × VMObject → Result Bytes
  | (key, value) => do
    let keyBody ← key.writeBody
    let valueBody ← value.writeBody
    pure (writeU8 key.vmType.code ++ keyBody ++ (writeU8 value.vmType.code ++ valueBody))

def writeItems : List (VMObject × VMObject) → Result Bytes
  | [] => pure []
  | item :: items => do
    let head ← writeItem item
    let tail ← writeItems items
    pure (head ++ tail)

end

def write (value : VMObject) : Result Bytes := do
  let body ← value.writeBody
  pure (writeU8 value.vmType.code ++ body)

def toBytes (value : VMObject) : Result Bytes := write value

/-! ## Reading -/

/-- What comes after the type of an object, given the reader of objects. -/
def readBody (read : Reader VMObject) : VMType → Reader VMObject
  | .none => pure none
  | .bool => do
    let value ← readBool
    pure (bool value)
  | .bytes => do
    let value ← readVarBytes maxArraySize
    pure (bytes value)
  | .enum => do
    let value ← readU8
    pure (enum value.toUInt32)
  | .number => do
    let value ← readBigInteger
    pure (number value)
  | .string => do
    let value ← readString
    pure (string value)
  | .timestamp => do
    let value ← readU32LE
    pure (timestamp value)
  | .object => do
    let value ← readVarBytes maxArraySize
    if value.length = 35 ∧ value.head? = some 34 then pure (object value.tail)
    else pure (bytes value)
  | .struct => do
    let count ← readVarUint
    let items ← (do
      let key ← read
      let value ← read
      pure (key, value) : Reader (VMObject × VMObject)).replicate count.toNat
    pure (struct items)

/-- An object, read by a stack that holds `depth` nested calls. -/
def read : ℕ → Reader VMObject
  | 0 => fail (.panic .stackOverflow)
  | depth + 1 => do
    let code ← readU8
    let vmType ← lift (VMType.tryFrom code)
    readBody (read depth) vmType

/-- The stack is taken to hold as many calls as there are bytes, and one more: each
    call reads a byte before the next. -/
def fromBytes (data : Bytes) : Result VMObject := readAll (read (data.length + 1)) data

/-! ## Reading back what was written -/

/-- A reader takes every part of the object, and its type can hold it. -/
inductive Fits : VMObject → Prop
  | none : Fits none
  | struct {items : List (VMObject × VMObject)} (hlen : items.length < maxVecLength)
    (hkey : ∀ item ∈ items, Fits item.1) (hvalue : ∀ item ∈ items, Fits item.2) :
    Fits (struct items)
  | bytes {value : Bytes} (h : value.length ≤ maxArraySize) : Fits (bytes value)
  | number {value : ℤ} (h : (bigIntToVmBytes value).length ≤ maxArraySize) : Fits (number value)
  | string {value : String} (h : (utf8 value).length ≤ maxArraySize) : Fits (string value)
  | timestamp (value : UInt32) : Fits (timestamp value)
  | bool (value : Bool) : Fits (bool value)
  | enum {value : UInt32} (h : value.toNat < 256) : Fits (enum value)
  | object {value : Bytes} (h : value.length = 34) : Fits (object value)

/-- The object is written, and read back by a stack that holds as many calls as it
    was written in bytes. -/
def ReadsBack (v : VMObject) : Prop :=
  ∃ enc, v.write = .ok enc ∧ ∀ depth, enc.length ≤ depth → (read depth).Reads enc v

/-- An item is its key and its value. -/
theorem writeItem_eq (item : VMObject × VMObject) : writeItem item =
    (do let key ← item.1.write; let value ← item.2.write; pure (key ++ value) : Result Bytes) := by
  obtain ⟨key, value⟩ := item
  simp only [writeItem, write, bind_assoc, pure_bind]

/-- An object is read back if what follows its type is. -/
theorem readsBack_of_body {v : VMObject} (body : Bytes) (hbody : v.writeBody = .ok body)
    (h : ∀ depth, body.length ≤ depth → (readBody (read depth) v.vmType).Reads body v) :
    v.ReadsBack := by
  refine ⟨writeU8 v.vmType.code ++ body, by rw [write, hbody]; rfl, fun depth hdepth => ?_⟩
  obtain ⟨n, rfl⟩ : ∃ n, depth = n + 1 := ⟨depth - 1, by
    rw [List.length_append, writeU8, List.length_singleton] at hdepth
    omega⟩
  refine (reads_readU8 _).bind ((reads_lift (VMType.tryFrom_code _)).bind_nil (h n ?_))
  rw [List.length_append, writeU8, List.length_singleton] at hdepth
  omega

/-- The items of a struct are written and read back one by one. -/
theorem readsBack_items {items : List (VMObject × VMObject)}
    (h : ∀ item ∈ items, item.1.ReadsBack ∧ item.2.ReadsBack) :
    ∃ body, writeItems items = .ok body ∧ ∀ depth, body.length ≤ depth →
      ((do
        let key ← read depth
        let value ← read depth
        pure (key, value) : Reader (VMObject × VMObject)).replicate items.length).Reads body
          items := by
  induction items with
  | nil => exact ⟨[], rfl, fun _ _ => reads_pure []⟩
  | cons item items ih =>
    obtain ⟨⟨key, hkey, hreadkey⟩, value, hvalue, hreadvalue⟩ := h item List.mem_cons_self
    obtain ⟨body, hbody, hreads⟩ := ih fun item hitem => h item (List.mem_cons_of_mem _ hitem)
    refine ⟨key ++ value ++ body, ?_, fun depth hdepth => ?_⟩
    · rw [writeItems, writeItem_eq, hkey, hvalue, hbody]
      rfl
    · simp only [List.length_append] at hdepth
      refine Reads.bind ?_ ((hreads depth (by omega)).map _)
      exact (hreadkey depth (by omega)).bind ((hreadvalue depth (by omega)).map _)

/-- What fits is read back, by the structure of the object. -/
theorem Fits.readsBack {v : VMObject} (h : v.Fits) : v.ReadsBack := by
  induction h with
  | none => exact readsBack_of_body [] rfl fun _ _ => reads_pure _
  | @struct items hlen hkey hvalue ihkey ihvalue =>
    obtain ⟨body, hbody, hreads⟩ :=
      readsBack_items fun item hitem => ⟨ihkey item hitem, ihvalue item hitem⟩
    have hcount : (UInt64.ofNat items.length).toNat = items.length :=
      UInt64.toNat_ofNat_of_lt' (hlen.trans (by decide))
    refine readsBack_of_body (writeVarUint (UInt64.ofNat items.length) ++ body)
      (by rw [writeBody, hbody]; rfl) fun depth hdepth => ?_
    rw [List.length_append] at hdepth
    refine (reads_readVarUint _).bind ?_
    rw [hcount]
    exact (hreads depth (by omega)).map _
  | @bytes value h =>
    exact readsBack_of_body _ rfl fun _ _ => (reads_readVarBytes h (h.trans_lt (by decide))).map _
  | @number value h => exact readsBack_of_body _ rfl fun _ _ => (reads_readBigInteger h).map _
  | @string value h => exact readsBack_of_body _ rfl fun _ _ => (reads_readString h).map _
  | timestamp value => exact readsBack_of_body _ rfl fun _ _ => (reads_readU32LE value).map _
  | bool value => exact readsBack_of_body _ rfl fun _ _ => (reads_readBool value).map _
  | @enum value h =>
    refine readsBack_of_body (writeU8 value.toUInt8) (if_pos h) fun _ _ =>
      ((reads_readU8 value.toUInt8).map fun v => VMObject.enum v.toUInt32).congr rfl ?_
    refine congrArg VMObject.enum (UInt32.toNat_inj.1 ?_)
    rw [UInt8.toNat_toUInt32, UInt32.toNat_toUInt8]
    omega
  | @object value h =>
    have hlen : (writeVarBytes value).length = 35 := by
      rw [writeVarBytes, List.length_append, h]
      decide
    have hbytes : writeVarBytes value = 34 :: value := by
      rw [writeVarBytes, h]
      rfl
    refine readsBack_of_body _ rfl fun _ _ => ?_
    have hread : (readVarBytes maxArraySize).Reads (writeVarBytes (writeVarBytes value))
        (writeVarBytes value) :=
      reads_readVarBytes (by rw [hlen]; decide) (by rw [hlen]; decide)
    refine (hread.bind (t := []) ?_).congr (List.append_nil _).symm rfl
    rw [if_pos ⟨hlen, by rw [hbytes]; rfl⟩, hbytes]
    exact reads_pure _

/-! ## Cutting short -/

/-- A deeper stack reads what a shallower one does. -/
theorem coveredBy_read {depth depth' : ℕ} (h : depth ≤ depth') :
    (read depth).CoveredBy (read depth') := by
  have hbody {d d' : Reader VMObject} (hd : d.CoveredBy d') (t : VMType) :
      (readBody d t).CoveredBy (readBody d' t) := by
    cases t with
    | struct =>
      refine CoveredBy.bind (.refl _) fun count => CoveredBy.bind ?_ fun _ => .refl _
      exact CoveredBy.replicate (hd.bind fun _ => hd.bind fun _ => .refl _) _
    | _ => exact .refl _
  induction depth generalizing depth' with
  | zero => exact coveredBy_fail _ _
  | succ depth ih =>
    obtain ⟨n, rfl⟩ : ∃ n, depth' = n + 1 := ⟨depth' - 1, by omega⟩
    exact CoveredBy.bind (.refl _) fun _ => CoveredBy.bind (.refl _) fun t =>
      hbody (ih (by omega)) t

theorem steady_read (depth : ℕ) : (read depth).Steady := by
  have hbody {d : Reader VMObject} (hd : d.Steady) (t : VMType) : (readBody d t).Steady := by
    cases t with
    | none => exact steady_pure _
    | struct =>
      refine steady_readVarUint.bind fun count => Steady.bind ?_ fun _ => steady_pure _
      exact Steady.replicate (hd.bind fun _ => hd.bind fun _ => steady_pure _) _
    | bytes => exact (steady_readVarBytes _).bind fun _ => steady_pure _
    | number => exact steady_readBigInteger.bind fun _ => steady_pure _
    | string => exact steady_readString.bind fun _ => steady_pure _
    | timestamp => exact (steady_readLE _ _).bind fun _ => steady_pure _
    | bool => exact steady_readBool.bind fun _ => steady_pure _
    | enum => exact (steady_readLE _ _).bind fun _ => steady_pure _
    | object =>
      refine (steady_readVarBytes _).bind fun value => ?_
      split
      · exact steady_pure _
      · exact steady_pure _
  induction depth with
  | zero => exact steady_fail _
  | succ depth ih =>
    refine (steady_readLE _ _).bind fun code => Steady.bind ?_ (hbody ih)
    cases VMType.tryFrom code with
    | ok t => exact steady_pure t
    | error e => exact steady_fail e

/-- An object of which a reader takes every part is written and read back, and refused
    when any of what was written is missing at the end. -/
theorem fromBytes_toBytes_and_prefix {v : VMObject} (h : v.Fits) :
    ∃ enc, v.toBytes = .ok enc ∧ fromBytes enc = .ok v ∧
      ∀ short, short <+: enc → short ≠ enc → ∃ e, fromBytes short = .error e := by
  obtain ⟨enc, hw, hreads⟩ := h.readsBack
  refine ⟨enc, hw, readAll_eq_ok.2 (hreads _ (Nat.le_succ _)).run_self, ?_⟩
  rintro short ⟨more, rfl⟩ hne
  have hmore : more ≠ [] := by
    rintro rfl
    exact hne (List.append_nil _).symm
  obtain ⟨e, he, -⟩ := (steady_read _).refuse_short (hreads _ (Nat.le_succ _)).run_self hmore
  cases hshort : fromBytes short with
  | error e => exact ⟨e, rfl⟩
  | ok v' =>
    -- What is read of less by less of a stack would be read by the whole one too.
    have hle : short.length + 1 ≤ (short ++ more).length + 1 := by simp
    have hrun := coveredBy_read hle _ _ _ (readAll_eq_ok.1 hshort)
    rw [he] at hrun
    cases hrun

/-- A struct that maps a number to an address and a text to a struct. -/
def nestedExample : VMObject :=
  struct [(number (-1), object (List.replicate 34 7)), (string "none", struct [])]

theorem fits_nestedExample : nestedExample.Fits := by
  refine .struct (by decide) ?_ ?_
  · simp only [List.forall_mem_cons, List.not_mem_nil, false_implies, implies_true, and_true]
    exact ⟨.number (by decide), .string (by decide +kernel)⟩
  · simp only [List.forall_mem_cons, List.not_mem_nil, false_implies, implies_true, and_true]
    exact ⟨.object (by decide), .struct (by decide) (by simp) (by simp)⟩

theorem fromBytes_toBytes_nestedExample :
    ∃ enc, nestedExample.toBytes = .ok enc ∧ fromBytes enc = .ok nestedExample ∧
      ∀ short, short <+: enc → short ≠ enc → ∃ e, fromBytes short = .error e :=
  fromBytes_toBytes_and_prefix fits_nestedExample

end VMObject

end PhantasmaSdk.Vm
