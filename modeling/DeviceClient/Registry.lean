import DeviceClient.Endpoint.Basic
import DeviceClient.Identity
import DeviceClient.Ordered
import DeviceClient.Power

namespace DeviceClient

inductive ProvisioningState where
  /-- The device has no owner. -/
  | unowned
  /-- This client owns the device. -/
  | owned
  /-- An access control entry has been put on the device. -/
  | aceProvisioned
  deriving DecidableEq

namespace ProvisioningState

def name : ProvisioningState → String
  | unowned => "Unowned"
  | owned => "Owned"
  | aceProvisioned => "AceProvisioned"

def isOwned : ProvisioningState → Bool
  | unowned => false
  | owned | aceProvisioned => true

end ProvisioningState

structure RegistryEntry where
  device : DeviceId
  state : ProvisioningState
  endpoints : List Endpoint
  deriving DecidableEq

/-- The devices that the client knows and the pairs that share credentials, both in the order of the
identities. -/
structure Registry where
  entries : List RegistryEntry
  /-- The smaller identity of a pair comes first. -/
  credentials : List (DeviceId × DeviceId)
  deriving DecidableEq

namespace Registry

def empty : Registry := ⟨[], []⟩

def find? (r : Registry) (device : DeviceId) : Option RegistryEntry :=
  r.entries.find? (·.device == device)

def contains (r : Registry) (device : DeviceId) : Bool := (r.find? device).isSome

def state? (r : Registry) (device : DeviceId) : Option ProvisioningState :=
  (r.find? device).map (·.state)

def endpoints? (r : Registry) (device : DeviceId) : Option (List Endpoint) :=
  (r.find? device).map (·.endpoints)

/-- Every device, in the order of the identities. -/
def snapshot (r : Registry) : List RegistryEntry := r.entries

def size (r : Registry) : Nat := r.entries.length

def isEmpty (r : Registry) : Bool := r.entries.isEmpty

/-- The devices in a state, in the order of their identities. -/
def devicesIn (r : Registry) (state : ProvisioningState) : List DeviceId :=
  (r.entries.filter (·.state == state)).map (·.device)

/-- The devices that share credentials with a device, in the order of their identities. -/
def peers (r : Registry) (device : DeviceId) : List DeviceId :=
  r.credentials.filterMap fun (a, b) =>
    if a = device then some b else if b = device then some a else none

/-- The numbers by which entries and pairs are ordered. -/
def entryKey (e : RegistryEntry) : Nat := e.device.number

def pairKey (p : DeviceId × DeviceId) : Nat := p.1.number * 16 ^ 32 + p.2.number

/-- The two devices, the one with the smaller identity first. -/
def pair (a b : DeviceId) : DeviceId × DeviceId := if b < a then (b, a) else (a, b)

def put (r : Registry) (e : RegistryEntry) : Registry :=
  { r with entries := Ordered.put entryKey e r.entries }

def dropCredentials (r : Registry) (device : DeviceId) : Registry :=
  { r with credentials := r.credentials.filter fun (a, b) => a != device && b != device }

/-- Takes a device out, together with its credentials. -/
def remove (r : Registry) (device : DeviceId) : Registry :=
  { r.dropCredentials device with entries := r.entries.filter (·.device != device) }

def addCredentials (r : Registry) (a b : DeviceId) : Registry :=
  { r with credentials := Ordered.put pairKey (pair a b) r.credentials }

/-- Moves a known device to a state. -/
def setState (r : Registry) (device : DeviceId) (state : ProvisioningState) :
    Option (RegistryEntry × Registry) :=
  (r.find? device).map fun e =>
    let e := { e with state := state }
    (e, r.put e)

/-- Takes in a device that advertises itself without an owner: whatever was known of its state and
its credentials is over. -/
def mergeUnowned (r : Registry) (device : DeviceId) (endpoints : List Endpoint) :
    RegistryEntry × Registry :=
  let e : RegistryEntry := ⟨device, .unowned, endpoints⟩
  (e, (r.dropCredentials device).put e)

/-- Takes in a device that advertises itself as owned by this client: it keeps a later state. -/
def mergeOwned (r : Registry) (device : DeviceId) (endpoints : List Endpoint) :
    RegistryEntry × Registry :=
  let state := match r.state? device with
    | some .aceProvisioned => .aceProvisioned
    | _ => .owned
  let e : RegistryEntry := ⟨device, state, endpoints⟩
  (e, r.put e)

end Registry

end DeviceClient
