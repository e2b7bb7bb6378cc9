import DeviceClient.Request
import DeviceClient.Resource.Link

namespace DeviceClient

/-- What a search asks for. -/
inductive DiscoveryAction where
  /-- Read a resource. -/
  | read (resource : Resource) (qos : Qos)
  /-- Let go of the endpoints of a resource. -/
  | release (endpoints : List Endpoint)
  deriving DecidableEq

/-- Whether more resources are wanted. -/
inductive DiscoveryFlow where
  | proceed | stop
  deriving DecidableEq

structure Search where
  type : String
  found : Option Resource
  deriving DecidableEq

namespace Search

def start (type : String) : Search := ⟨type, none⟩

def isOver (s : Search) : Bool := s.found.isSome

def flow (s : Search) : DiscoveryFlow := if s.isOver then .stop else .proceed

/-- Takes a discovered resource. -/
def take (s : Search) (r : Resource) : Search × DiscoveryAction :=
  if s.isOver || !r.hasType s.type then (s, .release r.endpoints)
  else ({ s with found := some r }, .read r .low)

/-- Takes discovered resources in turn until one leaves the search over, and looks at no more. -/
def takeAll (s : Search) : List Resource → Search × List DiscoveryAction × DiscoveryFlow
  | [] => (s, [], .proceed)
  | r :: rs =>
    let (s, action) := s.take r
    if s.isOver then (s, [action], .stop)
    else
      let (s, actions, flow) := takeAll s rs
      (s, action :: actions, flow)

end Search

end DeviceClient
