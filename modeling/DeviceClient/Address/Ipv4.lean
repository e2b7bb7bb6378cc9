import DeviceClient.Text.Numeral
import DeviceClient.Text.Split

namespace DeviceClient

structure Ipv4Address where
  a : UInt8
  b : UInt8
  c : UInt8
  d : UInt8
  deriving DecidableEq

namespace Ipv4Address

def octets (x : Ipv4Address) : List UInt8 := [x.a, x.b, x.c, x.d]

def ofBytes? : List UInt8 → Option Ipv4Address
  | [a, b, c, d] => some ⟨a, b, c, d⟩
  | _ => none

def chars (x : Ipv4Address) : List Char :=
  Numeral.decimal x.a.toNat ++ '.' :: (Numeral.decimal x.b.toNat ++
    '.' :: (Numeral.decimal x.c.toNat ++ '.' :: Numeral.decimal x.d.toNat))

/-- Reads one octet with all the digits at the front of the text. -/
def readOctet (cs : List Char) : Option (UInt8 × List Char) :=
  match Numeral.run Numeral.digit? cs with
  | ([], _) => none
  | (first :: more, rest) =>
    let n := Numeral.value 10 (first :: more)
    if 2 < more.length || (first == 0 && !more.isEmpty) || 255 < n then none
    else some (UInt8.ofNat n, rest)

/-- Reads an address off the front of a text. -/
def read (cs : List Char) : Option (Ipv4Address × List Char) := do
  let (a, cs) ← readOctet cs
  let (b, cs) ← readOctet (← Split.expect '.' cs)
  let (c, cs) ← readOctet (← Split.expect '.' cs)
  let (d, cs) ← readOctet (← Split.expect '.' cs)
  return (⟨a, b, c, d⟩, cs)

/-- The address that a whole text writes. -/
def ofChars? (cs : List Char) : Option Ipv4Address :=
  match read cs with
  | some (x, []) => some x
  | _ => none

end Ipv4Address

end DeviceClient
