import DeviceClient.Power

namespace DeviceClient

structure Double where
  bits : UInt64
  deriving DecidableEq

namespace Double

def ofParts (negative : Bool) (exponent fraction : Nat) : Double :=
  ⟨UInt64.ofNat ((if negative then 2 ^ 63 else 0) + exponent * 2 ^ 52 + fraction)⟩

/-- The bits below the sign. -/
def magnitude (x : Double) : Nat := x.bits.toNat % 2 ^ 63

def isNaN (x : Double) : Bool := 2047 * 2 ^ 52 < x.magnitude

def isNegative (x : Double) : Bool := 2 ^ 63 ≤ x.bits.toNat

def isInfinite (x : Double) : Bool := x.magnitude == 2047 * 2 ^ 52

def isZero (x : Double) : Bool := x.magnitude == 0

/-- Numeric equality: the two zeros are equal, and what is no number equals nothing. -/
def agrees (x y : Double) : Bool :=
  !x.isNaN && !y.isNaN && (x == y || (x.isZero && y.isZero))

/-- The same number in a narrower format, whose widths of exponent and fraction are given. What is
no number in the narrow format becomes a quiet one of its kind. -/
def widen (exponentBits fractionBits n : Nat) : Double :=
  let bias := 2 ^ (exponentBits - 1) - 1
  let negative := n / 2 ^ (exponentBits + fractionBits) % 2 == 1
  let exponent := n / 2 ^ fractionBits % 2 ^ exponentBits
  let fraction := n % 2 ^ fractionBits
  if exponent = 2 ^ exponentBits - 1 then
    let payload := fraction * 2 ^ (52 - fractionBits)
    ofParts negative 2047 (if fraction = 0 then 0 else payload ||| 2 ^ 51)
  else if exponent = 0 then
    if fraction = 0 then ofParts negative 0 0
    else
      let top := Nat.log2 fraction
      ofParts negative (top + 1024 - bias - fractionBits)
        ((fraction - 2 ^ top) * 2 ^ (52 - top))
  else ofParts negative (exponent + 1023 - bias) (fraction * 2 ^ (52 - fractionBits))

def ofHalf (n : Nat) : Double := widen 5 10 n

def ofSingle (n : Nat) : Double := widen 8 23 n

/-- The place of the lowest bit of a double near a positive ratio, as a power of two. -/
def unitExponent (num den : Nat) : Int :=
  let guess : Int := (Nat.log2 num : Int) - (Nat.log2 den : Int) - 52
  let exponent :=
    if num * 2 ^ (-guess).toNat < den * 2 ^ (52 + guess.toNat) then guess - 1 else guess
  max exponent (-1074)

/-- The double nearest to a ratio; a tie goes to the even fraction, and what is too large becomes
infinite. -/
def ofRatio (negative : Bool) (num den : Nat) : Double :=
  if num = 0 then ofParts negative 0 0
  else
    let exponent := unitExponent num den
    let scaled := num * 2 ^ (-exponent).toNat
    let divisor := den * 2 ^ exponent.toNat
    let quotient := scaled / divisor
    let rest := 2 * (scaled % divisor)
    let up := divisor < rest || (rest == divisor && quotient % 2 == 1)
    let rounded := quotient + if up then 1 else 0
    let magnitude := if quotient < 2 ^ 52 then rounded
      else (exponent + 1074).toNat * 2 ^ 52 + rounded
    ofParts negative 0 (min magnitude (2047 * 2 ^ 52))

/-- The double nearest to an integer. -/
def ofInt (n : Int) : Double := ofRatio (n < 0) n.natAbs 1

/-- The double nearest to a decimal number `digits * 10 ^ scale`. -/
def ofDecimal (negative : Bool) (digits : Nat) (scale : Int) : Double :=
  ofRatio negative (digits * 10 ^ scale.toNat) (10 ^ (-scale).toNat)

end Double

end DeviceClient
