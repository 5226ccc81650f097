import PhantasmaSdk.ExtendedEvents.Shapes

/-!
# Extended events from JSON

The kind of an event decides the shape of its data: a payload of another kind, or one
that its derived decoder refuses, is kept raw. Only special resolutions and their calls
are read by hand: what is not of its type there counts as missing, and whatever is no
object is read as an empty one. The arguments of a call are typed by derived decoders
again, or kept raw.
-/

namespace PhantasmaSdk.ExtendedEvents

open Serde

/-- The arguments of a call, as the fields of their shape. -/
inductive SpecialResolutionArguments
  | typed (kind : ArgumentsKind) (arguments : Data VmValue)
  | unrecognized (value : Json)

/-- A call of a special resolution; `calls` are those of a resolution nested in it. -/
structure SpecialResolutionCall where
  moduleId : UInt32 := 0
  moduleName : String := ""
  methodId : UInt32 := 0
  method : String := ""
  arguments : Option SpecialResolutionArguments := none
  calls : Option (List SpecialResolutionCall) := none

/-- The data of a special resolution. A missing description is left out on the wire. -/
structure SpecialResolutionData where
  resolutionId : UInt64 := 0
  description : Option String := none
  calls : List SpecialResolutionCall := []

/-- The data of an event, typed by its kind, or raw. -/
inductive EventData
  | tokenCreate (data : Data VmValue)
  | tokenSeriesCreate (data : Data VmValue)
  | marketOrder (data : Data VmValue)
  | specialResolution (data : SpecialResolutionData)
  | unknown (value : Json)

/-! ## Reading -/

/-- An integer of 64 bits, and nothing else. -/
def asU64 : Json → Option UInt64
  | .number (.int value) =>
    if 0 ≤ value ∧ value < 2 ^ 64 then some (UInt64.ofNat value.toNat) else none
  | _ => none

def asStr : Json → Option String
  | .string value => some value
  | _ => none

/-- The text of a member, empty if there is none. -/
def textField (members : List (String × Json)) (name : String) : String :=
  ((members.lookup name).bind asStr).getD ""

/-- The id of a member, 0 if it is missing or none. -/
def idField (members : List (String × Json)) (name : String) : UInt32 :=
  (((members.lookup name).bind asU64).bind fun value =>
    if value.toNat < 2 ^ 32 then some value.toUInt32 else none).getD 0

namespace SpecialResolutionArguments

/-- The value as the shape has it, or raw if its decoder refuses it. -/
def typedOr (kind : ArgumentsKind) (value : Json) : SpecialResolutionArguments :=
  match decode VmValue.custom kind.shape value with
  | some arguments => typed kind arguments
  | none => unrecognized value

/-- The shape an object is read as: arguments that the node did not decode say so. -/
def kindOf (moduleName method : String) (members : List (String × Json)) : Option ArgumentsKind :=
  if (members.lookup "rawArgs").isSome then some .raw else callShapes.lookup (moduleName, method)

/-- The arguments of a call; what is no object is kept raw, a `null` is none. -/
def fromCallJson (moduleName method : String) : Json → Option SpecialResolutionArguments
  | .null => none
  | .object members =>
    -- Decided by the content first, then by module and method.
    match kindOf moduleName method members with
    | some kind => some (typedOr kind (.object members))
    | none => some (unrecognized (.object members))
  | value => some (unrecognized value)

def toJson : SpecialResolutionArguments → Json
  | typed _ arguments => encode VmValue.custom arguments
  | unrecognized value => value

end SpecialResolutionArguments

namespace SpecialResolutionCall

open SpecialResolutionArguments

mutual

def fromJson : Json → SpecialResolutionCall
  | .object members =>
    let moduleName := textField members "module"
    let method := textField members "method"
    { moduleId := idField members "moduleId"
      moduleName
      methodId := idField members "methodId"
      method
      arguments := (members.lookup "arguments").bind (fromCallJson moduleName method)
      calls := callsIn members }
  | _ => {}

/-- The calls of a nested resolution. -/
def callsIn : List (String × Json) → Option (List SpecialResolutionCall)
  | [] => none
  | (name, value) :: members => if name = "calls" then callsOf value else callsIn members

def callsOf : Json → Option (List SpecialResolutionCall)
  | .array items => some (callsFrom items)
  | _ => none

def callsFrom : List Json → List SpecialResolutionCall
  | [] => []
  | item :: items => fromJson item :: callsFrom items

end

mutual

def toJson : SpecialResolutionCall → Json
  | ⟨moduleId, moduleName, methodId, method, arguments, calls⟩ =>
    .object ([("moduleId", .number (.int moduleId.toNat)), ("module", .string moduleName),
      ("methodId", .number (.int methodId.toNat)), ("method", .string method)] ++
      (arguments.map fun arguments => ("arguments", arguments.toJson)).toList ++ callsMember calls)

def callsMember : Option (List SpecialResolutionCall) → List (String × Json)
  | none => []
  | some calls => [("calls", .array (callsToJson calls))]

def callsToJson : List SpecialResolutionCall → List Json
  | [] => []
  | call :: calls => toJson call :: callsToJson calls

end

end SpecialResolutionCall

namespace SpecialResolutionData

def fromJson : Json → SpecialResolutionData
  | .object members =>
    { resolutionId := ((members.lookup "resolutionId").bind asU64).getD 0
      description := (members.lookup "description").bind asStr
      calls := ((members.lookup "calls").bind SpecialResolutionCall.callsOf).getD [] }
  | _ => {}

def toJson (data : SpecialResolutionData) : Json :=
  .object ([("resolutionId", .number (.int data.resolutionId.toNat))] ++
    (data.description.map fun description => ("description", .string description)).toList ++
    [("calls", .array (SpecialResolutionCall.callsToJson data.calls))])

end SpecialResolutionData

namespace EventData

def typed (shape : Shape) (wrap : Data VmValue → EventData) (data : Json) : EventData :=
  match decode VmValue.custom shape data with
  | some parsed => wrap parsed
  | none => unknown data

def fromKindAndJson (kind : String) (data : Json) : EventData :=
  match kind with
  | "TokenCreate" => typed tokenCreateData tokenCreate data
  | "TokenSeriesCreate" => typed tokenSeriesCreateData tokenSeriesCreate data
  | "OrderCreated" | "OrderCancelled" | "OrderFilled" => typed marketOrderData marketOrder data
  | "SpecialResolution" => specialResolution (SpecialResolutionData.fromJson data)
  | _ => unknown data

def toJson : EventData → Json
  | tokenCreate data | tokenSeriesCreate data | marketOrder data => encode VmValue.custom data
  | specialResolution data => data.toJson
  | unknown value => value

end EventData

end PhantasmaSdk.ExtendedEvents
