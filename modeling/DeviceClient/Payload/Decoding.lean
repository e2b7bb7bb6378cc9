import DeviceClient.Cbor.Skip
import DeviceClient.Power
import DeviceClient.Representation

namespace DeviceClient

/-- Why a payload cannot be decoded. -/
inductive DecodeError where
  | malformed | unexpectedRoot | nonTextKey | emptyName | tooDeep | valueOutOfRange
  deriving DecidableEq

def DecodeError.message : DecodeError → String
  | malformed => "malformed payload"
  | unexpectedRoot => "payload root is neither an object nor an array of objects"
  | nonTextKey => "object key is not a text string"
  | emptyName => "property name is empty"
  | tooDeep => "payload is nested too deeply"
  | valueOutOfRange => "integer out of range"

namespace Decoding

/-- Something that happens while a payload is decoded. -/
inductive Step where
  | opened
  | closed
  /-- The visit of an entry begins at the input. -/
  | begun (input : List UInt8)
  /-- The visit of an entry that began at the input ends at the rest. -/
  | finished (input rest : List UInt8)
  /-- A loop has no rounds left. -/
  | exhausted

/-- What a payload is read in: reading may fail, and it tells what happens on the way. -/
class Reading (m : Type → Type) where
  fail {α : Type} : DecodeError → m α
  log : Step → m Unit

/-- What happens on the way is not kept. -/
instance : Reading (Except DecodeError) where
  fail := .error
  log _ := .ok ()

open Reading (fail log)

/-- Takes something off the front of the input. -/
abbrev ReaderIn (m : Type → Type) (α : Type) := List UInt8 → m (α × List UInt8)

abbrev Reader (α : Type) := ReaderIn (Except DecodeError) α

/-- The number of containers that may be open at once. -/
def maxDepth : Nat := 16

section

variable {m : Type → Type} [Monad m] [Reading m] {α : Type}

/-- What a reader does not find is a malformed payload. -/
def require : Option α → m α
  | some a => pure a
  | none => fail .malformed

def kind (bs : List UInt8) : m Cbor.Kind := require (Cbor.kind? bs)

/-- Tells about what is read before and after it. -/
def logging (before : Step) (after : List UInt8 → Step) (read : ReaderIn m α) : ReaderIn m α :=
  fun bs => do
    log before
    let (a, rest) ← read bs
    log (after rest)
    return (a, rest)

def visit (entry : ReaderIn m α) : ReaderIn m α := fun bs =>
  logging (.begun bs) (.finished bs) entry bs

def enclose (container : ReaderIn m α) : ReaderIn m α :=
  logging .opened (fun _ => .closed) container

/-- Visits an entry and goes on with the next ones. -/
def readNext (entry : ReaderIn m α) (go : ReaderIn m (List α)) : ReaderIn m (List α) := fun bs => do
  let (a, bs) ← visit entry bs
  let (as, bs) ← go bs
  return (a :: as, bs)

/-- Reads a given number of entries. -/
def readExactly (entry : ReaderIn m α) : Nat → ReaderIn m (List α)
  | 0, bs => return ([], bs)
  | n + 1, bs => readNext entry (readExactly entry n) bs

/-- Reads entries up to a stop byte. -/
def readUntilStop (entry : ReaderIn m α) : (rounds : Nat) → ReaderIn m (List α)
  | 0, _ => do
    log .exhausted
    fail .malformed
  | rounds + 1, bs => do
    match ← kind bs with
    | .stop => return ([], bs.drop 1)
    | _ => readNext entry (readUntilStop entry rounds) bs

/-- Reads the entries of a container after its head. Each takes at least one byte, so there are more
rounds than are needed up to a stop byte. -/
def readCounted (entry : ReaderIn m α) (count : Option Nat) : ReaderIn m (List α) := fun bs =>
  match count with
  | some n => readExactly entry n bs
  | none => readUntilStop entry (bs.length + 1) bs

/-- Reads the head of a container and its entries. -/
def readEntries (major : Nat) (entry : ReaderIn m α) : ReaderIn m (List α) :=
  enclose fun bs => do
    let (count, bs) ← require (Cbor.readCount major bs)
    readCounted entry count bs

/-- Readers of the two kinds of containers. -/
structure ContainersIn (m : Type → Type) where
  object : ReaderIn m Representation
  array : ReaderIn m Value

def readInt : ReaderIn m Value := fun bs => do
  let (n, bs) ← require (Cbor.readInt bs)
  if -2 ^ 63 ≤ n ∧ n < 2 ^ 63 then return (.int (Int64.ofInt n), bs) else fail .valueOutOfRange

/-- Reads an item as a value, or passes over an item that has none. -/
def readValue (inner : ContainersIn m) : ReaderIn m (Option Value) := fun bs => do
  match ← kind bs with
  | .bool =>
    let (b, bs) ← require (Cbor.readBool bs)
    return (some (.bool b), bs)
  | .integer =>
    let (v, bs) ← readInt bs
    return (some v, bs)
  | .float =>
    let (x, bs) ← require (Cbor.readDouble bs)
    return (some (.double x), bs)
  | .text =>
    let (s, bs) ← require (Cbor.readText bs)
    return (some (.text s), bs)
  | .bytes =>
    let (s, bs) ← require (Cbor.readBytes bs)
    return (some (.bytes s), bs)
  | .map =>
    let (properties, bs) ← inner.object bs
    return (some (.object properties), bs)
  | .array =>
    let (v, bs) ← inner.array bs
    return (some v, bs)
  | .null | .undefined | .tag | .simple => require ((Cbor.Skip.skip bs).map fun rest => (none, rest))
  | .stop | .unknown => fail .malformed

/-- Reads a name and a value; a property whose value is passed over is none. -/
def readProperty (inner : ContainersIn m) : ReaderIn m (Option (String × Value)) := fun bs => do
  match ← kind bs with
  | .text =>
    let (name, bs) ← require (Cbor.readText bs)
    if name.isEmpty then fail .emptyName
    else
      let (value, bs) ← readValue inner bs
      return (value.map (name, ·), bs)
  | _ => fail .nonTextKey

def readObject (inner : ContainersIn m) : ReaderIn m Representation := fun bs => do
  let (entries, bs) ← readEntries Cbor.mapItem (readProperty inner) bs
  return (entries.filterMap id, bs)

/-- The properties of a value that is an object. -/
def properties? : Value → Option Representation
  | .object properties => some properties
  | _ => none

/-- The array of some elements: of values when none is an object, of objects when all are. -/
def arrayOf? (elements : List Value) : Option Value :=
  match elements.filterMap properties? with
  | [] => some (.array elements)
  | members => if members.length = elements.length then some (.objects members) else none

def readArray (inner : ContainersIn m) : ReaderIn m Value := fun bs => do
  let (entries, bs) ← readEntries Cbor.arrayItem (readValue inner) bs
  let v ← require (arrayOf? (entries.filterMap id))
  return (v, bs)

/-- Reads an object in an array at the root. -/
def readRoot (inner : ContainersIn m) : ReaderIn m Representation := fun bs => do
  match ← kind bs with
  | .map => inner.object bs
  | _ => fail .unexpectedRoot

variable (m)

/-- Readers of containers that have a number of levels left. The lowest level refuses everything. -/
def containersIn : (levels : Nat) → ContainersIn m
  | 0 => ⟨fun _ => fail .tooDeep, fun _ => fail .tooDeep⟩
  | levels + 1 => ⟨readObject (containersIn levels), readArray (containersIn levels)⟩

def readPayloadIn : ReaderIn m Payload := fun bs => do
  match ← kind bs with
  | .map =>
    let (root, bs) ← (containersIn m maxDepth).object bs
    return (.object root, bs)
  | .array =>
    let (roots, bs) ← readEntries Cbor.arrayItem (readRoot (containersIn m (maxDepth - 1))) bs
    return (.objects roots, bs)
  | _ => fail .unexpectedRoot

end

end Decoding

namespace Payload

open Decoding Reading

/-- Decodes a whole payload; an empty one is an empty object. -/
def decodeIn (m : Type → Type) [Monad m] [Reading m] : List UInt8 → m Payload
  | [] => return .object []
  | bs => do
    let (p, rest) ← readPayloadIn m bs
    if rest.isEmpty then return p else fail .malformed

def decode : List UInt8 → Except DecodeError Payload := decodeIn (Except DecodeError)

/-- Decodes a payload whose root has to be an object. -/
def decodeObject (bs : List UInt8) : Except DecodeError Representation := do
  match ← decode bs with
  | .object root => return root
  | .objects _ => .error .unexpectedRoot

end Payload

end DeviceClient
