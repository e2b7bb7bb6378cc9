import DeviceClient.Onboarding
import DeviceClient.Payload.Decoding
import DeviceClient.Payload.Encoding
import DeviceClient.Registry

namespace DeviceClient

inductive ErrorKind where
  | encoding | decoding | protocolStatus | provisioning | transport | unknownDevice | shutdown
  deriving DecidableEq

def ErrorKind.text : ErrorKind → String
  | encoding => "Encoding"
  | decoding => "Decoding"
  | protocolStatus => "Protocol Status"
  | provisioning => "Provisioning"
  | transport => "Transport"
  | unknownDevice => "Unknown Device"
  | shutdown => "Shutdown"

inductive ClientError where
  /-- What the transport or the onboarding reports in its own words. -/
  | reported (kind : ErrorKind) (description : String)
  | encoding (error : EncodingError)
  | decoding (error : DecodeError)
  | failed (failure : ProvisioningFailure)
  | noEndpoint (uri : String)
  | unknownDevice (device : DeviceId)
  | notUnowned (device : DeviceId) (state : ProvisioningState)
  | notOwned (device : DeviceId) (state : ProvisioningState)
  | sameDevice (device : DeviceId)
  | invalidEntry (fault : AccessEntry.Fault)
  | shutdown
  deriving DecidableEq

namespace ClientError

def kind : ClientError → ErrorKind
  | reported kind _ => kind
  | encoding _ => .encoding
  | decoding _ => .decoding
  | failed _ | sameDevice _ | invalidEntry _ => .provisioning
  | noEndpoint _ => .transport
  | unknownDevice _ | notUnowned _ _ | notOwned _ _ => .unknownDevice
  | shutdown => .shutdown

def description : ClientError → String
  | reported _ description => description
  | encoding error => error.message
  | decoding error => error.message
  | failed failure => failure.text
  | noEndpoint uri => "Resource \x60" ++ uri ++ "\x60 has no endpoints."
  | unknownDevice d => "Device " ++ d.text ++ " is not in the registry."
  | notUnowned d state => "Device " ++ d.text ++ " is not unowned but " ++ state.name ++ "."
  | notOwned d state => "Device " ++ d.text ++ " is not owned but " ++ state.name ++ "."
  | sameDevice d =>
    "Pairwise credentials need two distinct devices, got " ++ d.text ++ " twice."
  | invalidEntry fault => fault.message
  | shutdown => "The client engine has been shut down."

def text (e : ClientError) : String := e.kind.text ++ ": " ++ e.description

end ClientError

end DeviceClient
