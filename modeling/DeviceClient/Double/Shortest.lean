import DeviceClient.Double
import DeviceClient.Power
import DeviceClient.Text.Numeral

namespace DeviceClient

/-- The decimal number `digits * 10 ^ scale`. -/
structure Decimal where
  digits : Nat
  scale : Int
  deriving DecidableEq

namespace Double

/-- The magnitude of a finite double as a ratio. -/
def ratio (x : Double) : Nat × Nat :=
  let exponent := x.magnitude / 2 ^ 52
  let fraction := x.magnitude % 2 ^ 52
  let significand := if exponent = 0 then fraction else 2 ^ 52 + fraction
  (significand * 2 ^ (exponent - 1075), 2 ^ (1075 - max exponent 1))

/-- The least power of ten above a positive ratio. -/
def decimalPlace (num den : Nat) : Int :=
  if den ≤ num then (Numeral.decimal (num / den)).length
  else 1 - ((Numeral.decimal ((den - 1) / num)).length : Int)

/-- The decimals with a number of digits on both sides of a ratio, the nearer one first. On a tie
that is the even one. -/
def decimalNeighbours (num den count : Nat) : List Decimal :=
  let scale := decimalPlace num den - count
  let scaled := num * 10 ^ (-scale).toNat
  let divisor := den * 10 ^ scale.toNat
  let down : Decimal := ⟨scaled / divisor, scale⟩
  let up : Decimal := ⟨scaled / divisor + 1, scale⟩
  let rest := 2 * (scaled % divisor)
  if rest < divisor || (rest == divisor && down.digits % 2 == 0) then [down, up] else [up, down]

/-- Whether a decimal is read as the magnitude of a double. -/
def isReadFrom (x : Double) (d : Decimal) : Bool :=
  ofDecimal false d.digits d.scale == ⟨UInt64.ofNat x.magnitude⟩

/-- The shortest decimal for the magnitude of a finite double. -/
def shortest (x : Double) : Decimal :=
  let (num, den) := x.ratio
  let found := (List.range 17).findSome? fun n =>
    (decimalNeighbours num den (n + 1)).find? x.isReadFrom
  found.getD ⟨num * 5 ^ den.log2, -(den.log2 : Int)⟩

end Double

end DeviceClient
