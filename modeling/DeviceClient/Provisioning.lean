import DeviceClient.ClientError
import DeviceClient.Event

namespace DeviceClient

/-- A command about devices. -/
inductive DeviceCommand where
  | discoverUnowned
  | discoverOwned
  | takeOwnership (device : DeviceId)
  | provisionCredentials (first second : DeviceId)
  | provisionAccess (device : DeviceId) (entry : AccessEntry)
  | reset (device : DeviceId)
  deriving DecidableEq

namespace Registry

/-- Only a device that this client owns will do. -/
def requireOwned (r : Registry) (device : DeviceId) : Except ClientError Unit :=
  match r.state? device with
  | some state => if state.isOwned then .ok () else .error (.notOwned device state)
  | none => .error (.unknownDevice device)

/-- Only a device without an owner will do. -/
def requireUnowned (r : Registry) (device : DeviceId) : Except ClientError Unit :=
  match r.state? device with
  | some .unowned => .ok ()
  | some state => .error (.notUnowned device state)
  | none => .error (.unknownDevice device)

def requireKnown (r : Registry) (device : DeviceId) : Except ClientError Unit :=
  if r.contains device then .ok () else .error (.unknownDevice device)

/-- What a command asks of the onboarding, when the registry allows it. -/
def callFor (r : Registry) : DeviceCommand → Except ClientError OnboardingCall
  | .discoverUnowned => .ok .discoverUnowned
  | .discoverOwned => .ok .discoverOwned
  | .takeOwnership device => do
    r.requireUnowned device
    return .takeOwnership device
  | .provisionCredentials first second => do
    if first = second then .error (.sameDevice first)
    r.requireOwned first
    r.requireOwned second
    return .provisionCredentials first second
  | .provisionAccess device entry => do
    match entry.fault? with
    | some fault => .error (.invalidEntry fault)
    | none =>
      r.requireOwned device
      return .provisionAccess device entry
  | .reset device => do
    r.requireKnown device
    return .reset device

/-- Moves a device to a state, if it is still there. -/
def transition (r : Registry) (device : DeviceId) (state : ProvisioningState) :
    Registry × List ClientEvent :=
  match r.setState device state with
  | some (entry, r) => (r, [.deviceUpdated entry])
  | none => (r, [])

/-- Takes a device out and reports it, if it was there. -/
def evict (r : Registry) (device : DeviceId) : Registry × List ClientEvent :=
  (r.remove device, if r.contains device then [.deviceRemoved device] else [])

def failed (device : DeviceId) (operation : ProvisioningOperation) (status : Int) : ClientEvent :=
  .provisioningFailed ⟨device, operation, status⟩

/-- Applies an outcome and tells the events of it. A failure leaves the registry as it is, with one
exception: a device that did not take its access control entry is out. -/
def apply (r : Registry) : OnboardingEvent → Registry × List ClientEvent
  | .unownedDevice device endpoints =>
    let (entry, r) := r.mergeUnowned device endpoints
    (r, [.deviceUpdated entry])
  | .ownedDevice device endpoints =>
    let (entry, r) := r.mergeOwned device endpoints
    (r, [.deviceUpdated entry])
  | .ownershipTransferred device status =>
    if status < 0 then (r, [failed device .takeOwnership status])
    else r.transition device .owned
  | .credentialsProvisioned first second status =>
    if status < 0 then (r, [failed first .pairwiseCredentials status])
    else (r.addCredentials first second, [.credentialsProvisioned first second])
  | .accessProvisioned device status =>
    if status < 0 then
      let (r, events) := r.evict device
      (r, failed device .accessEntry status :: events)
    else r.transition device .aceProvisioned
  | .deviceReset device status =>
    if status < 0 then (r, [failed device .reset status])
    else r.evict device

end Registry

end DeviceClient
