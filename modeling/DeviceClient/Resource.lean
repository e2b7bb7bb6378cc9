import DeviceClient.Endpoint.Uri

namespace DeviceClient

inductive Interface where
  | sensor | actuator | readWrite | readOnly | batch | links | baseline
  deriving DecidableEq

namespace Interface

def position : Interface → Nat
  | sensor => 7
  | actuator => 6
  | readWrite => 5
  | readOnly => 4
  | batch => 3
  | links => 2
  | baseline => 1

def name : Interface → String
  | sensor => "S"
  | actuator => "A"
  | readWrite => "RW"
  | readOnly => "R"
  | batch => "B"
  | links => "LL"
  | baseline => "BASELINE"

/-- The name that devices use. -/
def protocolName : Interface → String
  | sensor => "oic.if.s"
  | actuator => "oic.if.a"
  | readWrite => "oic.if.rw"
  | readOnly => "oic.if.r"
  | batch => "oic.if.b"
  | links => "oic.if.ll"
  | baseline => "oic.if.baseline"

def all : List Interface := [sensor, actuator, readWrite, readOnly, batch, links, baseline]

instance : FlagFamily Interface where
  width := 8
  all := all
  mem_all f := by cases f <;> decide
  position := position
  position_lt f := by cases f <;> decide
  name := name

def ofProtocolName? (name : String) : Option Interface :=
  all.find? fun i => i.protocolName == name

end Interface

abbrev Interfaces := FlagSet Interface

namespace Interfaces

/-- The interfaces that some names denote; unknown names denote none. -/
def ofProtocolNames (names : List String) : Interfaces :=
  .ofList (names.filterMap Interface.ofProtocolName?)

def names (s : Interfaces) : List String := s.toList.map Interface.name

def protocolNames (s : Interfaces) : List String := s.toList.map Interface.protocolName

end Interfaces

inductive ResourceProperty where
  | discoverable | observable | secure | periodic
  deriving DecidableEq

namespace ResourceProperty

def position : ResourceProperty → Nat
  | discoverable => 0
  | observable => 1
  | secure => 4
  | periodic => 6

def name : ResourceProperty → String
  | discoverable => "DISCOVERABLE"
  | observable => "OBSERVABLE"
  | secure => "SECURE"
  | periodic => "PERIODIC"

instance : FlagFamily ResourceProperty where
  width := 8
  all := [discoverable, observable, secure, periodic]
  mem_all f := by cases f <;> decide
  position := position
  position_lt f := by cases f <;> decide
  name := name

end ResourceProperty

abbrev ResourceProperties := FlagSet ResourceProperty

namespace ResourceProperties

/-- The names of the properties, the one with the highest bit first. -/
def names (s : ResourceProperties) : List String := s.toList.reverse.map ResourceProperty.name

end ResourceProperties

structure Resource where
  /-- The identifier of the owning device, within which the path is unique. -/
  anchor : String
  uri : String
  types : List String
  interfaces : Interfaces
  properties : ResourceProperties
  endpoints : List Endpoint
  deriving DecidableEq

namespace Resource

def hasType (r : Resource) (type : String) : Bool := r.types.contains type

end Resource

end DeviceClient
