import DeviceClient.Payload.Encoding

namespace DeviceClient

structure Buffer where
  capacity : Nat
  content : List UInt8
  deriving DecidableEq

namespace Buffer

def empty (capacity : Nat) : Buffer := ⟨capacity, []⟩

/-- The capacity of a buffer that is not told another one. -/
def defaultCapacity : Nat := 1024

def reset (b : Buffer) : Buffer := { b with content := [] }

/-- Offers the writes in turn to a buffer that holds `held` bytes: the number of bytes that it holds
in the end or, where a write does not fit, the number that it would have held with that write. -/
def offer (capacity : Nat) : (held : Nat) → List Write → Except Nat Nat
  | held, [] => .ok held
  | held, w :: ws =>
    if held + w.length ≤ capacity then offer capacity (held + w.length) ws
    else .error (held + w.length)

/-- Appends the writes; a refused write leaves the buffer empty. -/
def append (b : Buffer) (ws : List Write) : Buffer × Option EncodingError :=
  match offer b.capacity b.content.length ws with
  | .ok _ => ({ b with content := b.content ++ ws.flatten }, none)
  | .error required => (b.reset, some (.bufferOverflow b.capacity required))

end Buffer

/-- The encoding of one object, property by property. The first failure stays: it empties the buffer
and answers every later call. -/
structure ObjectEncoder where
  buffer : Buffer
  failure : Option EncodingError

namespace ObjectEncoder

def fail (e : ObjectEncoder) (error : EncodingError) : ObjectEncoder :=
  ⟨e.buffer.reset, e.failure.or (some error)⟩

def append (e : ObjectEncoder) (ws : List Write) : ObjectEncoder :=
  match e.failure with
  | some _ => e
  | none =>
    match e.buffer.append ws with
    | (buffer, failure) => ⟨buffer, failure⟩

/-- Starts an object in an emptied buffer. -/
def start (b : Buffer) : ObjectEncoder := append ⟨b.reset, none⟩ [Encoding.openObject]

/-- Adds a property whose value is already known to have an encoding. -/
def setWrites (e : ObjectEncoder) (name : String) (ws : List Write) : ObjectEncoder :=
  let e := if name.isEmpty then e.fail .emptyName else e
  e.append (Encoding.text name ++ ws)

def setInt (e : ObjectEncoder) (name : String) (n : Int64) : ObjectEncoder :=
  e.setWrites name (Encoding.int n)

def setBool (e : ObjectEncoder) (name : String) (b : Bool) : ObjectEncoder :=
  e.setWrites name [Encoding.bool b]

def setDouble (e : ObjectEncoder) (name : String) (x : Double) : ObjectEncoder :=
  e.setWrites name (Encoding.double x)

def setText (e : ObjectEncoder) (name s : String) : ObjectEncoder :=
  e.setWrites name (Encoding.text s)

def setBytes (e : ObjectEncoder) (name : String) (bs : List UInt8) : ObjectEncoder :=
  e.setWrites name (Encoding.bytes bs)

/-- Adds a property. A fault inside the value is found before an empty name. -/
def set (e : ObjectEncoder) (name : String) (value : Value) : ObjectEncoder :=
  let e := match value.fault? with
    | some error => e.fail error
    | none => e
  e.setWrites name value.writes

/-- What a call that adds a property answers. -/
def answer (e : ObjectEncoder) : Except EncodingError Unit :=
  match e.failure with
  | some error => .error error
  | none => .ok ()

/-- Closes the object and tells the size of the payload. -/
def finish (e : ObjectEncoder) : Buffer × Except EncodingError Nat :=
  let e := e.append [Encoding.close]
  match e.failure with
  | some error => (e.buffer, .error error)
  | none => (e.buffer, .ok e.buffer.content.length)

/-- Adds properties until one fails. -/
def setAll (e : ObjectEncoder) : Representation → ObjectEncoder
  | [] => e
  | (name, value) :: rest =>
    let e := e.set name value
    if e.failure.isSome then e else setAll e rest

end ObjectEncoder

namespace Buffer

/-- Encodes one object as the whole payload, and tells the size of it. -/
def encode (b : Buffer) (r : Representation) : Buffer × Except EncodingError Nat :=
  ((ObjectEncoder.start b).setAll r).finish

/-- Encodes a payload and tells the size of it. The objects of an array at the root are all checked
before the buffer is touched. -/
def encodePayload (b : Buffer) : Payload → Buffer × Except EncodingError Nat
  | .object root => b.encode root
  | .objects roots =>
    match Value.faultOfObjects? roots with
    | some error => (b, .error error)
    | none =>
      match b.reset.append (Value.writes (.objects roots)) with
      | (b, some error) => (b, .error error)
      | (b, none) => (b, .ok b.content.length)

end Buffer

end DeviceClient
