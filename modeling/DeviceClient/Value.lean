import DeviceClient.Double

namespace DeviceClient

/-- The value of a property. An object is the list of its properties in their order; names may repeat. -/
inductive Value where
  | int (n : Int64)
  | bool (b : Bool)
  | double (x : Double)
  | text (s : String)
  | bytes (bs : List UInt8)
  | array (values : List Value)
  | object (properties : List (String × Value))
  | objects (members : List (List (String × Value)))

namespace Value

mutual

/-- Equality of data: by kind, then by content, with doubles compared as numbers. -/
def agrees : Value → Value → Bool
  | .int a, .int b => a == b
  | .bool a, .bool b => a == b
  | .double a, .double b => a.agrees b
  | .text a, .text b => a == b
  | .bytes a, .bytes b => a == b
  | .array a, .array b => agreesValues a b
  | .object a, .object b => agreesProperties a b
  | .objects a, .objects b => agreesObjects a b
  | .array a, .objects b => a.isEmpty && b.isEmpty
  | .objects a, .array b => a.isEmpty && b.isEmpty
  | _, _ => false
termination_by structural a => a

def agreesValues : List Value → List Value → Bool
  | [], [] => true
  | a :: as, b :: bs => agrees a b && agreesValues as bs
  | _, _ => false
termination_by structural as => as

def agreesProperty : String × Value → String × Value → Bool
  | (m, a), (n, b) => m == n && agrees a b
termination_by structural a => a

def agreesProperties : List (String × Value) → List (String × Value) → Bool
  | [], [] => true
  | a :: as, b :: bs => agreesProperty a b && agreesProperties as bs
  | _, _ => false
termination_by structural as => as

def agreesObjects : List (List (String × Value)) → List (List (String × Value)) → Bool
  | [], [] => true
  | a :: as, b :: bs => agreesProperties a b && agreesObjects as bs
  | _, _ => false
termination_by structural as => as

end

end Value

end DeviceClient
