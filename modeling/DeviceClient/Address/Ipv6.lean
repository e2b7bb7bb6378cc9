import DeviceClient.Address.Ipv4
import DeviceClient.Text.Hex

namespace DeviceClient

structure Ipv6Address where
  groups : List UInt16
  length_groups : groups.length = 8
  deriving DecidableEq

namespace Ipv6Address

def ofGroups? (gs : List UInt16) : Option Ipv6Address :=
  if h : gs.length = 8 then some ⟨gs, h⟩ else none

def joinBytes (high low : UInt8) : UInt16 := UInt16.ofNat (256 * high.toNat + low.toNat)

def groupsOfBytes : List UInt8 → List UInt16
  | high :: low :: rest => joinBytes high low :: groupsOfBytes rest
  | _ => []

/-- The address of sixteen bytes. -/
def ofBytes? (bs : List UInt8) : Option Ipv6Address :=
  if bs.length = 16 then ofGroups? (groupsOfBytes bs) else none

def bytes (x : Ipv6Address) : List UInt8 :=
  x.groups.flatMap fun g => [UInt8.ofNat (g.toNat / 256), UInt8.ofNat g.toNat]

/-- Whether the address is valid on its own link only: its ten highest bits are `1111111010`. -/
def isLinkLocal (x : Ipv6Address) : Bool :=
  match x.groups with
  | g :: _ => g.toNat / 64 == 0x3fa
  | [] => false

def hexDigit? (c : Char) : Option Nat := (Hex.value? c.toNat).map (·.val)

/-- Reads one group of one to four digits. -/
def readGroup (cs : List Char) : Option (UInt16 × List Char) :=
  match Numeral.run hexDigit? cs with
  | (ds, rest) =>
    if ds.isEmpty || 4 < ds.length then none else some (UInt16.ofNat (Numeral.value 16 ds), rest)

/-- Passes the colon in front of every group but the first. -/
def passColon (first : Bool) (cs : List Char) : Option (List Char) :=
  if first then some cs else Split.expect ':' cs

/-- What `readGroups` has found: the groups, whether the last two of them were written as four
octets, and the text after them. -/
structure Groups where
  groups : List UInt16
  dotted : Bool
  rest : List Char

/-- Reads groups off the front of a text while there are slots for them. Four octets with dots fill
the last two groups read. -/
def readGroups : (slots : Nat) → (first : Bool) → List Char → Groups
  | 0, _, cs => ⟨[], false, cs⟩
  | slots + 1, first, cs =>
    match if 0 < slots then (passColon first cs).bind Ipv4Address.read else none with
    | some (x, rest) => ⟨[joinBytes x.a x.b, joinBytes x.c x.d], true, rest⟩
    | none =>
      match (passColon first cs).bind readGroup with
      | none => ⟨[], false, cs⟩
      | some (g, rest) =>
        let more := readGroups slots false rest
        ⟨g :: more.groups, more.dotted, more.rest⟩

/-- Reads an address off the front of a text: eight groups, or fewer with a double colon that stands
for at least one zero group. -/
def read (cs : List Char) : Option (Ipv6Address × List Char) :=
  let front := readGroups 8 true cs
  if front.groups.length = 8 then (ofGroups? front.groups).map (·, front.rest)
  else if front.dotted then none
  else do
    let rest ← Split.expect ':' (← Split.expect ':' front.rest)
    let back := readGroups (7 - front.groups.length) true rest
    let zeros := List.replicate (8 - front.groups.length - back.groups.length) 0
    let x ← ofGroups? (front.groups ++ zeros ++ back.groups)
    return (x, back.rest)

/-- The address that a whole text writes. -/
def ofChars? (cs : List Char) : Option Ipv6Address :=
  match read cs with
  | some (x, []) => some x
  | _ => none

/-- The length of the run of zero groups that starts at a place. -/
def zeroRunAt (gs : List UInt16) (place : Nat) : Nat :=
  ((gs.drop place).takeWhile (· == 0)).length

/-- The place and the length of the first of the longest runs of zero groups. -/
def longestZeroRun (gs : List UInt16) : Nat × Nat :=
  (List.range gs.length).foldl
    (fun best place =>
      if best.2 < zeroRunAt gs place then (place, zeroRunAt gs place) else best)
    (0, 0)

def groupChars (g : UInt16) : List Char := Nat.toDigits 16 g.toNat

/-- The groups with colons between them. -/
def groupsChars : List UInt16 → List Char
  | [] => []
  | [g] => groupChars g
  | g :: gs => groupChars g ++ ':' :: groupsChars gs

/-- The four octets in the lowest two groups of an address that embeds them. -/
def mapped? (x : Ipv6Address) : Option Ipv4Address :=
  match x.groups with
  | [0, 0, 0, 0, 0, 0xffff, g, h] =>
    some ⟨UInt8.ofNat (g.toNat / 256), UInt8.ofNat g.toNat,
      UInt8.ofNat (h.toNat / 256), UInt8.ofNat h.toNat⟩
  | _ => none

def chars (x : Ipv6Address) : List Char :=
  match x.mapped? with
  | some inner => "::ffff:".toList ++ inner.chars
  | none =>
    let (place, length) := longestZeroRun x.groups
    if 1 < length then
      groupsChars (x.groups.take place) ++ "::".toList ++
        groupsChars (x.groups.drop (place + length))
    else groupsChars x.groups

/-- All eight groups with four digits each. -/
def fullChars (x : Ipv6Address) : List Char :=
  let digits := Hex.ofBytes x.bytes
  List.intercalate [':']
    ((List.range 8).map fun i => ((digits.drop (4 * i)).take 4).map Hex.digit)

end Ipv6Address

end DeviceClient
