import DeviceClient.Endpoint.Basic

namespace DeviceClient

/-- Why a text is not an endpoint. -/
inductive EndpointError where
  | unknownScheme | invalidAddress | invalidPort
  deriving DecidableEq

def EndpointError.message : EndpointError → String
  | unknownScheme => "unknown endpoint scheme"
  | invalidAddress => "invalid endpoint address"
  | invalidPort => "invalid endpoint port"

/-- The scheme of a text form. -/
structure Scheme where
  secured : Bool
  stream : Bool
  deriving DecidableEq

namespace Scheme

def chars : Scheme → List Char
  | ⟨false, false⟩ => "coap".toList
  | ⟨true, false⟩ => "coaps".toList
  | ⟨false, true⟩ => "coap+tcp".toList
  | ⟨true, true⟩ => "coaps+tcp".toList

def all : List Scheme := [⟨false, false⟩, ⟨true, false⟩, ⟨false, true⟩, ⟨true, true⟩]

def ofChars? (cs : List Char) : Option Scheme := all.find? fun s => s.chars == cs

def flags (s : Scheme) : TransportFlags :=
  .ofList ((if s.secured then [.secured] else []) ++ if s.stream then [.tcp] else [])

/-- The port of an address without one. -/
def defaultPort (s : Scheme) : UInt16 := if s.secured then 5684 else 5683

end Scheme

namespace Endpoint

def scheme (e : Endpoint) : Scheme := ⟨e.flags.contains .secured, e.flags.contains .tcp⟩

def hexPair (b : UInt8) : List Char := (Hex.ofByte b).map Hex.digit

def chars (e : Endpoint) : List Char :=
  match e.address with
  | .ipv4 host port =>
    e.scheme.chars ++ "://".toList ++ host.chars ++ ':' :: Numeral.decimal port.toNat
  | .ipv6 host port _ =>
    e.scheme.chars ++ "://[".toList ++ host.chars ++ "]:".toList ++ Numeral.decimal port.toNat
  | .bluetooth address =>
    "gatt://".toList ++ List.intercalate [':'] (address.octets.map hexPair)

def text (e : Endpoint) : String := .ofList e.chars

/-- Reads what follows a host: nothing, or a colon and a port. -/
def readPort (default : UInt16) : List Char → Except EndpointError UInt16
  | [] => .ok default
  | ':' :: cs =>
    match Numeral.toUInt16? cs with
    | some port => .ok port
    | none => .error .invalidPort
  | _ => .error .invalidPort

/-- Reads a host in square brackets, given the text after the opening one. -/
def readBracketed (scheme : Scheme) (cs : List Char) : Except EndpointError Endpoint :=
  match Split.atFirst [']'] cs with
  | none => .error .invalidAddress
  | some (host, after) =>
    match Ipv6Address.ofChars? host with
    | none => .error .invalidAddress
    | some host => do return ipv6 host (← readPort scheme.defaultPort after) scheme.flags

/-- Reads a host without brackets. A wrong port is found before a wrong host. -/
def readPlain (scheme : Scheme) (cs : List Char) : Except EndpointError Endpoint := do
  let host := cs.takeWhile (· ≠ ':')
  let port ← readPort scheme.defaultPort (cs.dropWhile (· ≠ ':'))
  match Ipv4Address.ofChars? host with
  | none => .error .invalidAddress
  | some host => return ipv4 host port scheme.flags

/-- Reads an endpoint and the path after it, which starts at the first slash. -/
def readWithPath (cs : List Char) : Except EndpointError (Endpoint × Option (List Char)) :=
  match Split.atFirst "://".toList cs with
  | none => .error .unknownScheme
  | some (schemeChars, rest) =>
    match Scheme.ofChars? schemeChars with
    | none => .error .unknownScheme
    | some scheme => do
      let authority := rest.takeWhile (· ≠ '/')
      let path := rest.dropWhile (· ≠ '/')
      let endpoint ← match authority with
        | '[' :: inner => readBracketed scheme inner
        | _ => readPlain scheme authority
      return (endpoint, if path.isEmpty then none else some path)

def parseWithPath (text : String) : Except EndpointError (Endpoint × Option String) := do
  let (endpoint, path) ← readWithPath text.toList
  return (endpoint, path.map String.ofList)

/-- Reads an endpoint and leaves the path after it aside. -/
def parse (text : String) : Except EndpointError Endpoint := do
  let (endpoint, _) ← readWithPath text.toList
  return endpoint

end Endpoint

end DeviceClient
