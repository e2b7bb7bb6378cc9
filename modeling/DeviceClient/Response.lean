import DeviceClient.ClientError
import DeviceClient.Request
import DeviceClient.Status

namespace DeviceClient

structure Response where
  token : Token
  status : Status
  /-- The sequence number of a notification. -/
  sequence : Option UInt32
  payload : List UInt8
  deriving DecidableEq

namespace Response

def decode (r : Response) : Except ClientError Payload :=
  (Payload.decode r.payload).mapError .decoding

/-- The payload as one object: of an array, the first object or an empty one. -/
def representation (r : Response) : Except ClientError Representation := r.decode.map Payload.first

/-- The payload as one object, which is empty when the payload cannot be decoded. -/
def representationOrEmpty (r : Response) : Representation := (r.representation).toOption.getD []

end Response

end DeviceClient
