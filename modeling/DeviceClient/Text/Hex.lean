namespace DeviceClient

/-- The value of one hexadecimal digit. -/
abbrev Nibble := Fin 16

namespace Hex

def digit (n : Nibble) : Char :=
  if n.val < 10 then Char.ofNat (48 + n.val) else Char.ofNat (87 + n.val)

/-- Whether the character with this code is a digit as `digit` writes it. -/
def isLowerDigit (code : Nat) : Bool :=
  (48 ≤ code && code ≤ 57) || (97 ≤ code && code ≤ 102)

/-- The digit written by the character with this code. -/
def value? (code : Nat) : Option Nibble :=
  if h : 48 ≤ code ∧ code ≤ 57 then some ⟨code - 48, by omega⟩
  else if h : 97 ≤ code ∧ code ≤ 102 then some ⟨code - 87, by omega⟩
  else if h : 65 ≤ code ∧ code ≤ 70 then some ⟨code - 55, by omega⟩
  else none

theorem value?_digit (n : Nibble) : value? (digit n).toNat = some n := by
  revert n; decide

def ofByte (b : UInt8) : List Nibble :=
  [⟨b.toNat / 16, by have := b.toNat_lt; omega⟩, ⟨b.toNat % 16, by omega⟩]

/-- Two digits for each byte, the high one first. -/
def ofBytes (bs : List UInt8) : List Nibble := bs.flatMap ofByte

def toByte (high low : Nibble) : UInt8 := UInt8.ofNat (16 * high.val + low.val)

/-- The bytes that the digits spell pair by pair; a last digit without a partner is dropped. -/
def toBytes : List Nibble → List UInt8
  | high :: low :: rest => toByte high low :: toBytes rest
  | _ => []

/-- The bytes written in hexadecimal, without separators. -/
def text (bs : List UInt8) : String := String.ofList ((ofBytes bs).map digit)

/-- The bytes that a text of pairs of digits spells. -/
def ofText? (s : String) : Option (List UInt8) := do
  let digits ← s.toList.mapM fun c => value? c.toNat
  if digits.length % 2 = 0 then some (toBytes digits) else none

end Hex

end DeviceClient
