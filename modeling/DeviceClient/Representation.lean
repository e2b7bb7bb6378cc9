import DeviceClient.Value

namespace DeviceClient

abbrev Representation := List (String × Value)

namespace Representation

/-- The properties with one more at the end, unless its name is empty. -/
def insert? (r : Representation) (name : String) (value : Value) : Option Representation :=
  if name.isEmpty then none else some (r ++ [(name, value)])

def get? (r : Representation) (name : String) : Option Value := r.lookup name

def getInt? (r : Representation) (name : String) : Option Int64 :=
  match r.get? name with
  | some (.int n) => some n
  | _ => none

def getBool? (r : Representation) (name : String) : Option Bool :=
  match r.get? name with
  | some (.bool b) => some b
  | _ => none

def getDouble? (r : Representation) (name : String) : Option Double :=
  match r.get? name with
  | some (.double x) => some x
  | _ => none

def getText? (r : Representation) (name : String) : Option String :=
  match r.get? name with
  | some (.text s) => some s
  | _ => none

def getBytes? (r : Representation) (name : String) : Option (List UInt8) :=
  match r.get? name with
  | some (.bytes bs) => some bs
  | _ => none

def getArray? (r : Representation) (name : String) : Option (List Value) :=
  match r.get? name with
  | some (.array values) => some values
  | _ => none

/-- The texts among the elements of an array. -/
def getTexts? (r : Representation) (name : String) : Option (List String) :=
  (r.getArray? name).map fun values => values.filterMap fun
    | .text s => some s
    | _ => none

def getObject? (r : Representation) (name : String) : Option Representation :=
  match r.get? name with
  | some (.object properties) => some properties
  | _ => none

/-- An empty array of values is an empty array of objects too. -/
def getObjects? (r : Representation) (name : String) : Option (List Representation) :=
  match r.get? name with
  | some (.objects members) => some members
  | some (.array []) => some []
  | _ => none

/-- Equality of data, see `Value.agrees`. -/
def agrees (r s : Representation) : Bool := Value.agreesProperties r s

end Representation

/-- What a payload holds at its root. -/
inductive Payload where
  | object (root : Representation)
  | objects (roots : List Representation)

namespace Payload

/-- The objects at the root. -/
def roots : Payload → List Representation
  | .object root => [root]
  | .objects roots => roots

def object? : Payload → Option Representation
  | .object root => some root
  | .objects _ => none

/-- The first object at the root, or the empty one where there is none. -/
def first (p : Payload) : Representation := p.roots.headD []

def agrees : Payload → Payload → Bool
  | .object a, .object b => Value.agreesProperties a b
  | .objects a, .objects b => Value.agreesObjects a b
  | _, _ => false

end Payload

end DeviceClient
