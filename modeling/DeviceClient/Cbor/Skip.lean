import DeviceClient.Cbor.Scalar
import DeviceClient.Power

namespace DeviceClient.Cbor.Skip

/-- One step of the walk through the bytes. -/
inductive Part where
  /-- An item without items inside. -/
  | leaf
  /-- The head of an array or a map with this many items inside. -/
  | counted (n : Nat)
  /-- The head of an array or a map that goes on to a stop byte. -/
  | unbounded
  /-- The head of a tag. -/
  | tag
  /-- A stop byte. -/
  | stop
  deriving DecidableEq

/-- The largest count that is kept. -/
def ceiling : Nat := 2 ^ 64 - 1

def saturate (n : Nat) : Nat := min n ceiling

def readPart : List UInt8 → Option (Part × List UInt8)
  | [] => none
  | b :: bs =>
    if b = stopByte then some (.stop, bs)
    else
      let major := b.toNat / 32
      if major = byteString then do
        let (_, rest) ← readBytes (b :: bs)
        return (.leaf, rest)
      else if major = textString then do
        let (_, rest) ← readText (b :: bs)
        return (.leaf, rest)
      else if major = arrayItem then do
        let (count, rest) ← readCount arrayItem (b :: bs)
        return (count.elim .unbounded .counted, rest)
      else if major = mapItem then do
        let (count, rest) ← readCount mapItem (b :: bs)
        return (count.elim .unbounded fun n => .counted (saturate (2 * n)), rest)
      else do
        let (_, rest) ← readHead (b :: bs)
        return (if major = tagItem then .tag else .leaf, rest)

/-- What is still to come: a number of items, a number of stop bytes, and below them the containers
on the stack, each with the items it lacks or with none when a stop byte ends it. The stack comes in
when a container of indefinite length is open; inside definite ones one number is enough. -/
structure Pending where
  items : Nat
  stops : Nat
  stack : List (Option Nat)
  deriving DecidableEq

namespace Pending

def one : Pending := ⟨1, 0, []⟩

/-- Whether nothing is counted outside the stack. -/
def atStack (p : Pending) : Bool := p.items == 0 && p.stops == 0

def isDone (p : Pending) : Bool := p.atStack && p.stack.isEmpty

/-- Takes note of a part. -/
def note (p : Pending) : Part → Pending
  | .leaf | .tag => p
  | .counted 0 => p
  | .counted n =>
    if p.atStack then { p with stack := some n :: p.stack }
    else { p with items := saturate (p.items + n) }
  | .unbounded =>
    if p.atStack then { p with stack := none :: p.stack }
    else if p.items < 2 then { p with stops := saturate (p.stops + 1) }
    else ⟨0, 0, none :: some (p.items - 1) :: (List.replicate p.stops none ++ p.stack)⟩
  | .stop =>
    if p.atStack then
      match p.stack with
      | none :: stack => { p with stack := stack }
      | _ => p
    else { p with stops := p.stops - 1 }

/-- Takes a container on the stack as one item further: complete ones leave the stack. -/
def countOnStack : List (Option Nat) → List (Option Nat)
  | some 0 :: stack => countOnStack stack
  | some (n + 1) :: stack => some n :: stack
  | stack => stack

/-- Counts the item that has just been passed. -/
def count (p : Pending) : Pending :=
  if p.atStack then { p with stack := countOnStack p.stack } else { p with items := p.items - 1 }

/-- What is to come after a part. A tag is no item yet: the item that it belongs to follows. -/
def after (p : Pending) : Part → Pending
  | .tag => p
  | part => (p.note part).count

end Pending

/-- Walks on until nothing is to come. Every part takes at least one byte, so as many rounds as
there are bytes are enough. -/
def walk : (rounds : Nat) → Pending → List UInt8 → Option (List UInt8)
  | rounds, p, bs =>
    if p.isDone then some bs
    else
      match rounds with
      | 0 => none
      | rounds + 1 => do
        let (part, rest) ← readPart bs
        walk rounds (p.after part) rest

/-- The input after the item at its front. The walk counts items instead of descending into them, and
the count is lenient: a tag with a stop byte after it is passed over as an item. -/
def skip (bs : List UInt8) : Option (List UInt8) := walk bs.length .one bs

end DeviceClient.Cbor.Skip
