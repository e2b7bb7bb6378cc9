import DeviceClient.Cbor.Head
import DeviceClient.Representation
import DeviceClient.Text.Utf8

namespace DeviceClient

/-- Why a payload cannot be encoded. -/
inductive EncodingError where
  /-- The buffer refused a write; with it the payload would have had `required` bytes. -/
  | bufferOverflow (capacity required : Nat)
  | emptyName
  /-- An array of values holds an object. -/
  | objectInArray
  deriving DecidableEq

def EncodingError.message : EncodingError → String
  | bufferOverflow capacity required =>
    "payload needs at least " ++ toString required ++ " bytes but the buffer holds " ++
      toString capacity
  | emptyName => "property name is empty"
  | objectInArray => "objects must be carried by an object array, not by an array"

/-- One write into a buffer, which takes it whole or not at all. -/
abbrev Write := List UInt8

namespace Encoding

def openObject : Write := [Cbor.indefinite Cbor.mapItem]

def openArray : Write := [Cbor.indefinite Cbor.arrayItem]

def close : Write := [Cbor.stopByte]

def int (n : Int64) : List Write :=
  match n.toInt with
  | .ofNat n => Cbor.Head.writes ⟨Cbor.unsigned, n⟩
  | .negSucc n => Cbor.Head.writes ⟨Cbor.negative, n⟩

def bool (b : Bool) : Write := [if b then 0xf5 else 0xf4]

def double (x : Double) : List Write := [[0xfb], BigEndian.encode 8 x.bits.toNat]

def bytes (bs : List UInt8) : List Write :=
  Cbor.Head.writes ⟨Cbor.byteString, bs.length⟩ ++ [bs]

def text (s : String) : List Write :=
  Cbor.Head.writes ⟨Cbor.textString, (Utf8.encode s).length⟩ ++ [Utf8.encode s]

end Encoding

namespace Value

mutual

def writes : Value → List Write
  | .int n => Encoding.int n
  | .bool b => [Encoding.bool b]
  | .double x => Encoding.double x
  | .text s => Encoding.text s
  | .bytes bs => Encoding.bytes bs
  | .array values => Encoding.openArray :: (writesOfValues values ++ [Encoding.close])
  | .object properties =>
    Encoding.openObject :: (writesOfProperties properties ++ [Encoding.close])
  | .objects members => Encoding.openArray :: (writesOfObjects members ++ [Encoding.close])
termination_by structural v => v

def writesOfValues : List Value → List Write
  | [] => []
  | v :: vs => writes v ++ writesOfValues vs
termination_by structural vs => vs

def writesOfProperty : String × Value → List Write
  | (name, v) => Encoding.text name ++ writes v
termination_by structural p => p

def writesOfProperties : List (String × Value) → List Write
  | [] => []
  | p :: ps => writesOfProperty p ++ writesOfProperties ps
termination_by structural ps => ps

def writesOfObjects : List (List (String × Value)) → List Write
  | [] => []
  | o :: os =>
    Encoding.openObject :: (writesOfProperties o ++ Encoding.close :: writesOfObjects os)
termination_by structural os => os

end

def isObject : Value → Bool
  | .object _ => true
  | _ => false

mutual

/-- The first property or element that keeps a value from being encoded: a name without characters,
or an object among the elements of an array of values. -/
def fault? : Value → Option EncodingError
  | .array values => faultOfValues? values
  | .object properties => faultOfProperties? properties
  | .objects members => faultOfObjects? members
  | _ => none
termination_by structural v => v

def faultOfValues? : List Value → Option EncodingError
  | [] => none
  | v :: vs =>
    if v.isObject then some .objectInArray else (fault? v).or (faultOfValues? vs)
termination_by structural vs => vs

def faultOfProperty? : String × Value → Option EncodingError
  | (name, v) => if name.isEmpty then some .emptyName else fault? v
termination_by structural p => p

def faultOfProperties? : List (String × Value) → Option EncodingError
  | [] => none
  | p :: ps => (faultOfProperty? p).or (faultOfProperties? ps)
termination_by structural ps => ps

def faultOfObjects? : List (List (String × Value)) → Option EncodingError
  | [] => none
  | o :: os => (faultOfProperties? o).or (faultOfObjects? os)
termination_by structural os => os

end

end Value

namespace Representation

/-- The bytes of an object. -/
def encode (r : Representation) : List UInt8 := (Value.writes (.object r)).flatten

def fault? (r : Representation) : Option EncodingError := Value.faultOfProperties? r

end Representation

namespace Payload

def writes : Payload → List Write
  | .object root => Value.writes (.object root)
  | .objects roots => Value.writes (.objects roots)

/-- The bytes of a payload. -/
def encode (p : Payload) : List UInt8 := p.writes.flatten

def fault? : Payload → Option EncodingError
  | .object root => Value.faultOfProperties? root
  | .objects roots => Value.faultOfObjects? roots

end Payload

end DeviceClient
