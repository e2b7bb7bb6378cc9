import DeviceClient.Cbor.Head
import DeviceClient.Double
import DeviceClient.Text.Utf8

namespace DeviceClient.Cbor

/-- What the first byte says about an item. -/
inductive Kind where
  | integer | bytes | text | array | map | tag | simple | bool | null | undefined | float
  | stop | unknown
  deriving DecidableEq

def Kind.ofByte (b : UInt8) : Kind :=
  let n := b.toNat
  if n ≤ 0x1b then .integer
  else if 0x20 ≤ n ∧ n ≤ 0x3b then .integer
  else if (0x40 ≤ n ∧ n ≤ 0x5b) ∨ n = 0x5f then .bytes
  else if (0x60 ≤ n ∧ n ≤ 0x7b) ∨ n = 0x7f then .text
  else if (0x80 ≤ n ∧ n ≤ 0x9b) ∨ n = 0x9f then .array
  else if (0xa0 ≤ n ∧ n ≤ 0xbb) ∨ n = 0xbf then .map
  else if 0xc0 ≤ n ∧ n ≤ 0xdb then .tag
  else if (0xe0 ≤ n ∧ n ≤ 0xf3) ∨ n = 0xf8 then .simple
  else if n = 0xf4 ∨ n = 0xf5 then .bool
  else if n = 0xf6 then .null
  else if n = 0xf7 then .undefined
  else if 0xf9 ≤ n ∧ n ≤ 0xfb then .float
  else if n = 0xff then .stop
  else .unknown

/-- The kind of the item at the front. There is none at the end of the input, nor for a negative
integer whose argument is missing altogether. -/
def kind? : List UInt8 → Option Kind
  | [] => none
  | b :: rest =>
    if 0x38 ≤ b.toNat ∧ b.toNat ≤ 0x3b ∧ rest.isEmpty then none else some (Kind.ofByte b)

def readInt (bs : List UInt8) : Option (Int × List UInt8) := do
  let (h, rest) ← readHead bs
  if h.major = unsigned then return (Int.ofNat h.argument, rest)
  else if h.major = negative then return (Int.negSucc h.argument, rest)
  else none

def readBool : List UInt8 → Option (Bool × List UInt8)
  | 0xf4 :: rest => some (false, rest)
  | 0xf5 :: rest => some (true, rest)
  | _ => none

/-- Reads a floating point number of any width. -/
def readDouble : List UInt8 → Option (Double × List UInt8)
  | 0xf9 :: bs => do
    let (ns, rest) ← splitBytes 2 bs
    return (.ofHalf (BigEndian.decode ns), rest)
  | 0xfa :: bs => do
    let (ns, rest) ← splitBytes 4 bs
    return (.ofSingle (BigEndian.decode ns), rest)
  | 0xfb :: bs => do
    let (ns, rest) ← splitBytes 8 bs
    return (⟨UInt64.ofNat (BigEndian.decode ns)⟩, rest)
  | _ => none

/-- Reads a string of definite length. -/
def readDefinite (major : Nat) (bs : List UInt8) : Option (List UInt8 × List UInt8) := do
  let (h, rest) ← readHead bs
  if h.major = major then splitBytes h.argument rest else none

/-- Reads strings of definite length up to a stop byte. Each takes at least one byte, so as many
rounds as there are bytes are enough. -/
def readPieces (major : Nat) :
    (rounds : Nat) → List UInt8 → Option (List (List UInt8) × List UInt8)
  | 0, _ => none
  | rounds + 1, bs =>
    match bs with
    | [] => none
    | b :: rest =>
      if b = stopByte then some ([], rest)
      else do
        let (piece, rest) ← readDefinite major (b :: rest)
        let (pieces, rest) ← readPieces major rounds rest
        return (piece :: pieces, rest)

/-- Reads a string of either form as the pieces that it is made of. -/
def readString (major : Nat) : List UInt8 → Option (List (List UInt8) × List UInt8)
  | [] => none
  | b :: bs =>
    if b = indefinite major then readPieces major bs.length bs
    else do
      let (piece, rest) ← readDefinite major (b :: bs)
      return ([piece], rest)

/-- Reads a text, each piece of which has to be UTF-8. -/
def readText (bs : List UInt8) : Option (String × List UInt8) := do
  let (pieces, rest) ← readString textString bs
  let texts ← pieces.mapM Utf8.decode?
  return (String.join texts, rest)

def readBytes (bs : List UInt8) : Option (List UInt8 × List UInt8) := do
  let (pieces, rest) ← readString byteString bs
  return (pieces.flatten, rest)

/-- Reads the head of an array or a map: the number of its entries, or none when they go on to a
stop byte. -/
def readCount (major : Nat) : List UInt8 → Option (Option Nat × List UInt8)
  | [] => none
  | b :: bs =>
    if b = indefinite major then some (none, bs)
    else do
      let (h, rest) ← readHead (b :: bs)
      if h.major = major then return (some h.argument, rest) else none

end DeviceClient.Cbor
