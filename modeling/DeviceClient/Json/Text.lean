import DeviceClient.Double.Shortest
import DeviceClient.Json.Basic
import DeviceClient.Power
import DeviceClient.Text.Hex
import DeviceClient.Text.Numeral

namespace DeviceClient.Json

/-- Takes a value off the front of a text. -/
abbrev Reader (α : Type) := List Char → Option (α × List Char)

def skipBlanks (cs : List Char) : List Char :=
  cs.dropWhile fun c => c == ' ' || c == '\n' || c == '\t' || c == '\r'

/-- The number that four hexadecimal digits write. -/
def unit? (a b c d : Char) : Option Nat :=
  [a, b, c, d].foldlM (fun n c => (Hex.value? c.toNat).map (16 * n + ·.val)) 0

def isHighSurrogate (n : Nat) : Bool := 0xd800 ≤ n && n < 0xdc00

def isLowSurrogate (n : Nat) : Bool := 0xdc00 ≤ n && n < 0xe000

/-- The character that a letter after a backslash stands for. -/
def escaped? : Char → Option Char
  | 'n' => some '\n'
  | 't' => some '\t'
  | 'r' => some '\r'
  | 'b' => some (Char.ofNat 8)
  | 'f' => some (Char.ofNat 12)
  | '"' => some '"'
  | '\\' => some '\\'
  | '/' => some '/'
  | _ => none

/-- Reads a string, given the text after its opening quote. A character beyond the first plane may
be written as two units, and half of such a pair is no character. -/
def readString : Reader (List Char)
  | '"' :: cs => some ([], cs)
  | '\\' :: 'u' :: a :: b :: c :: d :: cs => do
    let n ← unit? a b c d
    if isLowSurrogate n then none
    else if isHighSurrogate n then
      match cs with
      | '\\' :: 'u' :: e :: f :: g :: h :: cs =>
        let low ← unit? e f g h
        if !isLowSurrogate low then none
        let (rest, after) ← readString cs
        return (Char.ofNat (0x10000 + (n - 0xd800) * 0x400 + (low - 0xdc00)) :: rest, after)
      | _ => none
    else
      let (rest, after) ← readString cs
      return (Char.ofNat n :: rest, after)
  | '\\' :: c :: cs => do
    let plain ← escaped? c
    let (rest, after) ← readString cs
    return (plain :: rest, after)
  | c :: cs => do
    let (rest, after) ← readString cs
    return (c :: rest, after)
  | [] => none

/-- Reads the fraction of a number, if there is one. -/
def readFraction : List Char → List Nat × List Char
  | '.' :: cs => Numeral.run Numeral.digit? cs
  | cs => ([], cs)

/-- Reads the exponent of a number, if there is one. -/
def readExponent : List Char → Option Int × List Char
  | 'e' :: cs | 'E' :: cs =>
    let (down, cs) := match cs with
      | '-' :: cs => (true, cs)
      | '+' :: cs => (false, cs)
      | cs => (false, cs)
    let (ds, cs) := Numeral.run Numeral.digit? cs
    let n : Int := Int.ofNat (Numeral.value 10 ds)
    (some (if down then -n else n), cs)
  | cs => (none, cs)

/-- Whether 64 bits, with or without a sign, hold an integer. -/
def isInteger (n : Int) : Bool := -2 ^ 63 ≤ n && n < 2 ^ 64

/-- Reads a number. Without a fraction and an exponent it is an integer, except for a negative zero
and for what 64 bits do not hold. -/
def readNumber (cs : List Char) : Option (Json × List Char) :=
  let (negative, cs) := match cs with
    | '-' :: cs => (true, cs)
    | cs => (false, cs)
  let (whole, cs) := Numeral.run Numeral.digit? cs
  let (fraction, cs) := readFraction cs
  let (exponent, cs) := readExponent cs
  let n : Int := Int.ofNat (Numeral.value 10 whole)
  let n := if negative then -n else n
  if whole.isEmpty then none
  else if fraction.isEmpty && exponent.isNone && isInteger n && !(negative && n == 0) then
    some (.integer n, cs)
  else
    let scale := exponent.getD 0 - Int.ofNat fraction.length
    some (.number (.ofDecimal negative (Numeral.value 10 (whole ++ fraction)) scale), cs)

/-- Of fields with the same key the last one counts. -/
def lastOfEachKey : List (String × Json) → List (String × Json)
  | [] => []
  | (key, j) :: fields =>
    if fields.any (·.1 == key) then lastOfEachKey fields else (key, j) :: lastOfEachKey fields

mutual

/-- Reads a value. Each round passes a character or descends once, so twice as many rounds as there
are characters are enough. -/
def readValue : (rounds : Nat) → Reader Json
  | 0, _ => none
  | rounds + 1, cs =>
    match skipBlanks cs with
    | '"' :: cs => do
      let (s, cs) ← readString cs
      return (.text (String.ofList s), cs)
    | '[' :: cs =>
      match skipBlanks cs with
      | ']' :: cs => some (.array [], cs)
      | cs => do
        let (items, cs) ← readItems rounds cs
        return (.array items, cs)
    | '\x7b' :: cs =>
      match skipBlanks cs with
      | '\x7d' :: cs => some (.object [], cs)
      | cs => do
        let (fields, cs) ← readFields rounds cs
        return (.object (lastOfEachKey fields), cs)
    | 't' :: 'r' :: 'u' :: 'e' :: cs => some (.bool true, cs)
    | 'f' :: 'a' :: 'l' :: 's' :: 'e' :: cs => some (.bool false, cs)
    | 'n' :: 'u' :: 'l' :: 'l' :: cs => some (.null, cs)
    | cs => readNumber cs

def readItems : (rounds : Nat) → Reader (List Json)
  | 0, _ => none
  | rounds + 1, cs => do
    let (item, cs) ← readValue rounds cs
    match skipBlanks cs with
    | ',' :: cs =>
      let (items, cs) ← readItems rounds cs
      return (item :: items, cs)
    | ']' :: cs => return ([item], cs)
    | _ => none

def readFields : (rounds : Nat) → Reader (List (String × Json))
  | 0, _ => none
  | rounds + 1, cs => do
    match skipBlanks cs with
    | '"' :: cs =>
      let (key, cs) ← readString cs
      match skipBlanks cs with
      | ':' :: cs =>
        let (value, cs) ← readValue rounds cs
        match skipBlanks cs with
        | ',' :: cs =>
          let (fields, cs) ← readFields rounds cs
          return ((String.ofList key, value) :: fields, cs)
        | '\x7d' :: cs => return ([(String.ofList key, value)], cs)
        | _ => none
      | _ => none
    | _ => none

end

/-- The value that a whole text writes. -/
def parse (text : String) : Option Json :=
  let cs := text.toList
  match readValue (2 * cs.length + 2) cs with
  | some (j, rest) => if (skipBlanks rest).isEmpty then some j else none
  | none => none

/-- A character inside a string: quotes, backslashes and control characters are escaped. -/
def escape (c : Char) : List Char :=
  if c == '"' || c == '\\' then ['\\', c]
  else if c.toNat < 32 then '\\' :: 'u' :: (Nat.toDigits 16 (0x10000 + c.toNat)).drop 1
  else [c]

def quote (s : String) : String := String.ofList ('"' :: (s.toList.flatMap escape ++ ['"']))

/-- The text of a positive decimal. From `10 ^ -5` up to `10 ^ 16` all places are written out, with
at least one after the point; beyond there is one digit before the point, and an exponent. -/
def decimalText (d : Decimal) : List Char :=
  let written := Numeral.decimal d.digits
  let point := written.length + d.scale
  let ds := (written.reverse.dropWhile (· == '0')).reverse
  if 0 < point ∧ point ≤ 16 then
    let whole := point.toNat
    ds.take whole ++ List.replicate (whole - ds.length) '0' ++
      '.' :: (if ds.length ≤ whole then ['0'] else ds.drop whole)
  else if -5 < point ∧ point ≤ 0 then
    '0' :: '.' :: (List.replicate (-point).toNat '0' ++ ds)
  else
    let fraction := ds.drop 1
    ds.take 1 ++ (if fraction.isEmpty then [] else '.' :: fraction) ++
      'e' :: (toString (point - 1)).toList

/-- What is no finite number has no text of its own. -/
def numberText (x : Double) : String :=
  if x.isNaN || x.isInfinite then "null"
  else
    let digits := if x.isZero then "0.0".toList else decimalText x.shortest
    String.ofList (if x.isNegative then '-' :: digits else digits)

mutual

def render : Json → String
  | .null => "null"
  | .bool b => if b then "true" else "false"
  | .integer n => toString n
  | .number x => numberText x
  | .text s => quote s
  | .array items => "[" ++ ",".intercalate (renderItems items) ++ "]"
  | .object fields => "\x7b" ++ ",".intercalate (renderFields fields) ++ "\x7d"
termination_by structural j => j

def renderItems : List Json → List String
  | [] => []
  | j :: js => render j :: renderItems js
termination_by structural js => js

def renderField : String × Json → String
  | (key, j) => quote key ++ ":" ++ render j
termination_by structural p => p

def renderFields : List (String × Json) → List String
  | [] => []
  | p :: ps => renderField p :: renderFields ps
termination_by structural ps => ps

end

end DeviceClient.Json
