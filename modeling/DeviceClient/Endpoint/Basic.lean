import DeviceClient.Address.Ipv6
import DeviceClient.FlagSet

namespace DeviceClient

inductive TransportFlag where
  | discovery | secured | ipv4 | ipv6 | tcp | gatt | multicast
  deriving DecidableEq

namespace TransportFlag

def position : TransportFlag → Nat
  | discovery => 0
  | secured => 1
  | ipv4 => 2
  | ipv6 => 3
  | tcp => 4
  | gatt => 5
  | multicast => 6

def name : TransportFlag → String
  | discovery => "DISCOVERY"
  | secured => "SECURED"
  | ipv4 => "IPV4"
  | ipv6 => "IPV6"
  | tcp => "TCP"
  | gatt => "GATT"
  | multicast => "MULTICAST"

instance : FlagFamily TransportFlag where
  width := 16
  all := [discovery, secured, ipv4, ipv6, tcp, gatt, multicast]
  mem_all f := by cases f <;> decide
  position := position
  position_lt f := by cases f <;> decide
  name := name

end TransportFlag

abbrev TransportFlags := FlagSet TransportFlag

/-- The protocol version that an endpoint speaks. -/
inductive ProtocolVersion where
  | ocf100 | oic110
  deriving DecidableEq

namespace ProtocolVersion

def number : ProtocolVersion → Nat
  | ocf100 => 2048
  | oic110 => 2112

def text : ProtocolVersion → String
  | ocf100 => "OCF 1.0.0"
  | oic110 => "OIC 1.1.0"

def ofNumber? (n : Nat) : Option ProtocolVersion := [ocf100, oic110].find? fun v => v.number == n

end ProtocolVersion

/-- An address of six octets on a Bluetooth link. -/
structure BluetoothAddress where
  kind : UInt8
  octets : List UInt8
  length_octets : octets.length = 6
  deriving DecidableEq

inductive DeviceAddress where
  | ipv4 (host : Ipv4Address) (port : UInt16)
  | ipv6 (host : Ipv6Address) (port : UInt16) (scope : UInt8)
  | bluetooth (address : BluetoothAddress)
  deriving DecidableEq

structure Endpoint where
  flags : TransportFlags
  address : DeviceAddress
  /-- The number of the device that owns the endpoint. -/
  device : UInt64 := 0
  /-- The number of the network interface on which the endpoint was seen. -/
  interfaceIndex : UInt32 := 0
  version : ProtocolVersion := .ocf100
  deriving DecidableEq

namespace Endpoint

/-- The flag of the family comes on top of the given ones. -/
def ipv4 (host : Ipv4Address) (port : UInt16) (flags : TransportFlags) : Endpoint where
  flags := flags.union (.singleton .ipv4)
  address := .ipv4 host port

/-- The flag of the family comes on top of the given ones. -/
def ipv6 (host : Ipv6Address) (port : UInt16) (flags : TransportFlags) : Endpoint where
  flags := flags.union (.singleton .ipv6)
  address := .ipv6 host port 0

def bluetooth (address : BluetoothAddress) : Endpoint where
  flags := .singleton .gatt
  address := .bluetooth address

def port? (e : Endpoint) : Option UInt16 :=
  match e.address with
  | .ipv4 _ port => some port
  | .ipv6 _ port _ => some port
  | .bluetooth _ => none

def isSecured (e : Endpoint) : Bool := e.flags.contains .secured

def isLinkLocal (e : Endpoint) : Bool :=
  match e.address with
  | .ipv6 host _ _ => host.isLinkLocal
  | _ => false

def scope? (e : Endpoint) : Option UInt8 :=
  match e.address with
  | .ipv6 _ _ scope => some scope
  | _ => none

/-- Sets the scope of an address that has one. -/
def withScope (e : Endpoint) (scope : UInt8) : Endpoint :=
  match e.address with
  | .ipv6 host port _ => { e with address := .ipv6 host port scope }
  | _ => e

/-- The address and the port in full, for the family that the flags name first. -/
def addressText? (e : Endpoint) : Option String :=
  if e.flags.contains .ipv4 then
    match e.address with
    | .ipv4 host port => some (.ofList (host.chars ++ ':' :: Numeral.decimal port.toNat))
    | _ => none
  else if e.flags.contains .ipv6 then
    match e.address with
    | .ipv6 host port _ => some (.ofList (host.fullChars ++ ':' :: Numeral.decimal port.toNat))
    | _ => none
  else none

end Endpoint

end DeviceClient
