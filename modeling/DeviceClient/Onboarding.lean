import DeviceClient.AccessEntry
import DeviceClient.Endpoint.Basic

namespace DeviceClient

inductive OnboardingCall where
  | configureStorage (path : String)
  | discoverUnowned
  | discoverOwned
  | takeOwnership (device : DeviceId)
  | provisionCredentials (first second : DeviceId)
  | provisionAccess (device : DeviceId) (entry : AccessEntry)
  | reset (device : DeviceId)
  deriving DecidableEq

inductive OnboardingEvent where
  | unownedDevice (device : DeviceId) (endpoints : List Endpoint)
  | ownedDevice (device : DeviceId) (endpoints : List Endpoint)
  | ownershipTransferred (device : DeviceId) (status : Int)
  | credentialsProvisioned (first second : DeviceId) (status : Int)
  | accessProvisioned (device : DeviceId) (status : Int)
  | deviceReset (device : DeviceId) (status : Int)
  deriving DecidableEq

/-- The devices that an event is about. -/
def OnboardingEvent.devices : OnboardingEvent → List DeviceId
  | unownedDevice d _ | ownedDevice d _ | ownershipTransferred d _ | accessProvisioned d _
  | deviceReset d _ => [d]
  | credentialsProvisioned a b _ => [a, b]

inductive ProvisioningOperation where
  | takeOwnership | pairwiseCredentials | accessEntry | reset
  deriving DecidableEq

def ProvisioningOperation.text : ProvisioningOperation → String
  | takeOwnership => "take ownership"
  | pairwiseCredentials => "provision pairwise credentials"
  | accessEntry => "provision access control entry"
  | reset => "reset"

/-- An operation that failed on a device, with the status that was reported. -/
structure ProvisioningFailure where
  device : DeviceId
  operation : ProvisioningOperation
  status : Int
  deriving DecidableEq

def ProvisioningFailure.text (f : ProvisioningFailure) : String :=
  f.operation.text ++ " failed on device " ++ f.device.text ++ " with status " ++ toString f.status

end DeviceClient
