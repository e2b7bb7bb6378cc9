import DeviceClient.Chain
import DeviceClient.Onboarding
import DeviceClient.Registry

namespace DeviceClient

inductive ClientEvent where
  | resourceDiscovered (resource : Resource)
  | chainResponse (index : Nat) (method : Method) (status : Status)
      (representation : Representation)
  | notification (sequence : UInt32) (status : Status) (representation : Representation)
  | observationStopped (reason : StopReason)
  | deviceUpdated (entry : RegistryEntry)
  | deviceRemoved (device : DeviceId)
  | credentialsProvisioned (first second : DeviceId)
  | provisioningFailed (failure : ProvisioningFailure)

def ClientEvent.text : ClientEvent → String
  | resourceDiscovered r => "Discovered \x60" ++ r.uri ++ "\x60 at \x60" ++ r.anchor ++ "\x60"
  | chainResponse index method status representation =>
    method.text ++ " response " ++ toString index ++ ": " ++ status.text ++ " with " ++
      toString representation.length ++ " properties"
  | notification sequence status _ =>
    "Notification " ++ toString sequence.toNat ++ ": " ++ status.text
  | observationStopped reason => "Observation stopped: " ++ reason.name
  | deviceUpdated entry => "Device " ++ entry.device.text ++ " is " ++ entry.state.name
  | deviceRemoved device => "Device " ++ device.text ++ " removed"
  | credentialsProvisioned first second =>
    "Credentials provisioned between " ++ first.text ++ " and " ++ second.text
  | provisioningFailed failure => failure.text

end DeviceClient
