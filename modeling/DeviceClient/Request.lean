import DeviceClient.Endpoint.Basic
import DeviceClient.Text.Hex
import DeviceClient.BigEndian

namespace DeviceClient

/-- Eight bytes that tie the responses to their request. -/
structure Token where
  number : UInt64
  deriving DecidableEq

namespace Token

def bytes (t : Token) : List UInt8 := BigEndian.encode 8 t.number.toNat

def text (t : Token) : String := Hex.text t.bytes

def ofBytes? (bs : List UInt8) : Option Token :=
  if bs.length = 8 then some ⟨UInt64.ofNat (BigEndian.decode bs)⟩ else none

end Token

inductive Method where
  | get | post | put | delete
  deriving DecidableEq

def Method.text : Method → String
  | get => "GET"
  | post => "POST"
  | put => "PUT"
  | delete => "DELETE"

/-- The quality of service of a request: repeated until it is acknowledged, or sent once. -/
inductive Qos where
  | high | low
  deriving DecidableEq

/-- What a request does to an observation of its resource. -/
inductive ObserveAction where
  | register | deregister
  deriving DecidableEq

structure Request where
  token : Token
  method : Method
  /-- Where the request goes; without an endpoint it goes to every device. -/
  endpoint : Option Endpoint
  uri : String
  query : Option String := none
  qos : Qos
  observe : Option ObserveAction := none
  payload : List UInt8 := []
  deriving DecidableEq

namespace Request

/-- The path of the resource that lists the resources of a device. -/
def discoveryUri : String := "/oic/res"

/-- Asks every device for its resources, or for those of one type. -/
def discovery (token : Token) (type : Option String) : Request where
  token := token
  method := .get
  endpoint := none
  uri := discoveryUri
  query := type.map ("rt=" ++ ·)
  qos := .low

def unicast (token : Token) (method : Method) (endpoint : Endpoint) (uri : String) (qos : Qos) :
    Request where
  token := token
  method := method
  endpoint := some endpoint
  uri := uri
  qos := qos

end Request

end DeviceClient
