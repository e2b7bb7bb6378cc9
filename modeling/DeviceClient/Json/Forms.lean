import DeviceClient.Identity
import DeviceClient.Json.Basic
import DeviceClient.Power
import DeviceClient.Representation
import DeviceClient.Status

namespace DeviceClient

namespace DeviceId

def toJson (id : DeviceId) : Json := .text id.text

def ofJson? : Json → Option DeviceId
  | .text s => some (parse s)
  | _ => none

end DeviceId

namespace Status

def toJson (s : Status) : Json := .text s.name

/-- A status is its name, or an object whose only key is the name and holds nothing. -/
def ofJson? : Json → Option Status
  | .text name => ofName? name
  | .object [(name, .null)] => ofName? name
  | _ => none

end Status

namespace Value

def intOfJson? : Json → Option Int64
  | .integer n => if -2 ^ 63 ≤ n ∧ n < 2 ^ 63 then some (Int64.ofInt n) else none
  | _ => none

def doubleOfJson? : Json → Option Double
  | .integer n => some (.ofInt n)
  | .number x => some x
  | _ => none

def byteOfJson? : Json → Option UInt8
  | .integer n => if 0 ≤ n ∧ n < 256 then some (UInt8.ofNat n.toNat) else none
  | _ => none

mutual

def ofJson? : Json → Option Value
  | .object [field] => ofField? field
  | _ => none
termination_by structural j => j

def ofField? : String × Json → Option Value
  | ("Bool", .bool b) => some (.bool b)
  | ("String", .text s) => some (.text s)
  | ("ByteString", .array items) => (items.mapM byteOfJson?).map .bytes
  | ("Array", .array items) => (valuesOfJson? items).map .array
  | ("Object", .array items) => (propertiesOfJson? items).map .object
  | ("ObjectArray", .array items) => (objectsOfJson? items).map .objects
  | ("Int", j) => (intOfJson? j).map .int
  | ("Double", j) => (doubleOfJson? j).map .double
  | _ => none
termination_by structural p => p

def valuesOfJson? : List Json → Option (List Value)
  | [] => some []
  | j :: js => do return (← ofJson? j) :: (← valuesOfJson? js)
termination_by structural js => js

def propertyOfJson? : Json → Option (String × Value)
  | .array [.text name, j] => (ofJson? j).map (name, ·)
  | _ => none
termination_by structural j => j

def propertiesOfJson? : List Json → Option (List (String × Value))
  | [] => some []
  | j :: js => do return (← propertyOfJson? j) :: (← propertiesOfJson? js)
termination_by structural js => js

def objectsOfJson? : List Json → Option (List (List (String × Value)))
  | [] => some []
  | .array items :: js => do return (← propertiesOfJson? items) :: (← objectsOfJson? js)
  | _ => none
termination_by structural js => js

end

mutual

def toJson : Value → Json
  | .int n => .object [("Int", .integer n.toInt)]
  | .bool b => .object [("Bool", .bool b)]
  | .double x => .object [("Double", .number x)]
  | .text s => .object [("String", .text s)]
  | .bytes bs => .object [("ByteString", .array (bs.map fun b => .integer (Int.ofNat b.toNat)))]
  | .array values => .object [("Array", .array (jsonOfValues values))]
  | .object properties => .object [("Object", .array (jsonOfProperties properties))]
  | .objects members => .object [("ObjectArray", .array (jsonOfObjects members))]
termination_by structural v => v

def jsonOfValues : List Value → List Json
  | [] => []
  | v :: vs => toJson v :: jsonOfValues vs
termination_by structural vs => vs

def jsonOfProperty : String × Value → Json
  | (name, v) => .array [.text name, toJson v]
termination_by structural p => p

def jsonOfProperties : List (String × Value) → List Json
  | [] => []
  | p :: ps => jsonOfProperty p :: jsonOfProperties ps
termination_by structural ps => ps

def jsonOfObjects : List (List (String × Value)) → List Json
  | [] => []
  | o :: os => .array (jsonOfProperties o) :: jsonOfObjects os
termination_by structural os => os

end

end Value

namespace Representation

def toJson (r : Representation) : Json := .array (Value.jsonOfProperties r)

def ofJson? : Json → Option Representation
  | .array items => Value.propertiesOfJson? items
  | _ => none

end Representation

namespace Payload

def toJson : Payload → Json
  | .object root => .object [("Object", .array (Value.jsonOfProperties root))]
  | .objects roots => .object [("Objects", .array (Value.jsonOfObjects roots))]

def ofJson? : Json → Option Payload
  | .object [("Object", .array items)] => (Value.propertiesOfJson? items).map .object
  | .object [("Objects", .array items)] => (Value.objectsOfJson? items).map .objects
  | _ => none

end Payload

end DeviceClient
