import DeviceClient.BigEndian
import DeviceClient.Power

namespace DeviceClient.Cbor

/-- The head of an item. Its first byte holds the major type in the high three bits; the low five are the
argument itself, or tell how many bytes of argument follow, or mark an item of indefinite length. -/
structure Head where
  major : Nat
  argument : Nat
  deriving DecidableEq

/-- The major types. -/
def unsigned : Nat := 0
def negative : Nat := 1
def byteString : Nat := 2
def textString : Nat := 3
def arrayItem : Nat := 4
def mapItem : Nat := 5
def tagItem : Nat := 6
def simpleItem : Nat := 7

/-- The byte that ends an item of indefinite length. -/
def stopByte : UInt8 := 0xff

/-- The first byte of an item of indefinite length. -/
def indefinite (major : Nat) : UInt8 := UInt8.ofNat (32 * major + 31)

/-- Splits a number of bytes off the front. -/
def splitBytes (n : Nat) (bs : List UInt8) : Option (List UInt8 × List UInt8) :=
  if n ≤ bs.length then some (bs.take n, bs.drop n) else none

/-- The argument that the low five bits of a first byte announce. -/
def readArgument (info : Nat) (bs : List UInt8) : Option (Nat × List UInt8) :=
  if info < 24 then some (info, bs)
  else if info < 28 then do
    let (ns, rest) ← splitBytes (2 ^ (info - 24)) bs
    return (BigEndian.decode ns, rest)
  else none

def readHead : List UInt8 → Option (Head × List UInt8)
  | [] => none
  | b :: bs => do
    let (n, rest) ← readArgument (b.toNat % 32) bs
    return (⟨b.toNat / 32, n⟩, rest)

/-- The writes that put down the shortest head with an argument. A long argument is a write of its
own. -/
def Head.writes (h : Head) : List (List UInt8) :=
  let first (info : Nat) : UInt8 := UInt8.ofNat (32 * h.major + info)
  if h.argument < 24 then [[first h.argument]]
  else if h.argument < 2 ^ 8 then [first 24 :: BigEndian.encode 1 h.argument]
  else if h.argument < 2 ^ 16 then [[first 25], BigEndian.encode 2 h.argument]
  else if h.argument < 2 ^ 32 then [[first 26], BigEndian.encode 4 h.argument]
  else [[first 27], BigEndian.encode 8 h.argument]

end DeviceClient.Cbor
