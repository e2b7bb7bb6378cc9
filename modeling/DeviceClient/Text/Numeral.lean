import DeviceClient.Power

namespace DeviceClient.Numeral

/-- The value that a list of digits has in a base. -/
def value (base : Nat) (digits : List Nat) : Nat :=
  digits.foldl (fun n d => base * n + d) 0

/-- The value of a decimal digit. -/
def digit? (c : Char) : Option Nat :=
  if 48 ≤ c.toNat ∧ c.toNat ≤ 57 then some (c.toNat - 48) else none

/-- The digits at the front of a text, with the text after them. -/
def run (digit? : Char → Option Nat) : List Char → List Nat × List Char
  | [] => ([], [])
  | c :: cs =>
    match digit? c with
    | some d => let r := run digit? cs; (d :: r.1, r.2)
    | none => ([], c :: cs)

/-- A number below `2 ^ 16` written in decimal digits only. Leading zeros and one leading plus sign
are allowed. -/
def toUInt16? (cs : List Char) : Option UInt16 :=
  let body := match cs with
    | '+' :: rest => rest
    | _ => cs
  match run digit? body with
  | (d :: ds, []) =>
    let n := value 10 (d :: ds)
    if n < 2 ^ 16 then some (UInt16.ofNat n) else none
  | _ => none

/-- The decimal digits of a number. -/
def decimal (n : Nat) : List Char := Nat.toDigits 10 n

end DeviceClient.Numeral
