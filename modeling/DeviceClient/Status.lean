namespace DeviceClient

inductive Status where
  | ok | created | changed | deleted | notModified
  | badRequest | unauthorized | badOption | forbidden | notFound | methodNotAllowed
  | notAcceptable | requestEntityTooLarge | unsupportedMediaType
  | internalServerError | notImplemented | badGateway | serviceUnavailable | gatewayTimeout
  | proxyingNotSupported
  deriving DecidableEq

namespace Status

def all : List Status :=
  [ok, created, changed, deleted, notModified, badRequest, unauthorized, badOption, forbidden,
    notFound, methodNotAllowed, notAcceptable, requestEntityTooLarge, unsupportedMediaType,
    internalServerError, notImplemented, badGateway, serviceUnavailable, gatewayTimeout,
    proxyingNotSupported]

/-- The class and the detail of a status. -/
def classDetail : Status → Nat × Nat
  | ok => (2, 5)
  | created => (2, 1)
  | changed => (2, 4)
  | deleted => (2, 2)
  | notModified => (2, 3)
  | badRequest => (4, 0)
  | unauthorized => (4, 1)
  | badOption => (4, 2)
  | forbidden => (4, 3)
  | notFound => (4, 4)
  | methodNotAllowed => (4, 5)
  | notAcceptable => (4, 6)
  | requestEntityTooLarge => (4, 13)
  | unsupportedMediaType => (4, 15)
  | internalServerError => (5, 0)
  | notImplemented => (5, 1)
  | badGateway => (5, 2)
  | serviceUnavailable => (5, 3)
  | gatewayTimeout => (5, 4)
  | proxyingNotSupported => (5, 5)

def code (s : Status) : Nat := 32 * s.classDetail.1 + s.classDetail.2

def ofCode? (code : Nat) : Option Status := all.find? fun s => s.code == code

def isSuccess (s : Status) : Bool := s.classDetail.1 == 2

def name : Status → String
  | ok => "Ok"
  | created => "Created"
  | changed => "Changed"
  | deleted => "Deleted"
  | notModified => "NotModified"
  | badRequest => "BadRequest"
  | unauthorized => "Unauthorized"
  | badOption => "BadOption"
  | forbidden => "Forbidden"
  | notFound => "NotFound"
  | methodNotAllowed => "MethodNotAllowed"
  | notAcceptable => "NotAcceptable"
  | requestEntityTooLarge => "RequestEntityTooLarge"
  | unsupportedMediaType => "UnsupportedMediaType"
  | internalServerError => "InternalServerError"
  | notImplemented => "NotImplemented"
  | badGateway => "BadGateway"
  | serviceUnavailable => "ServiceUnavailable"
  | gatewayTimeout => "GatewayTimeout"
  | proxyingNotSupported => "ProxyingNotSupported"

def ofName? (name : String) : Option Status := all.find? fun s => s.name == name

/-- The name followed by the class and a detail of two digits, such as `Changed (2.04)`. -/
def text (s : Status) : String :=
  let (cls, detail) := s.classDetail
  let pad := if detail < 10 then "0" else ""
  s.name ++ " (" ++ toString cls ++ "." ++ pad ++ toString detail ++ ")"

end Status

end DeviceClient
