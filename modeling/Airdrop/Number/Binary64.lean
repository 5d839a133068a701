import Airdrop.Number.Power

/-!
# Binary64 numbers

A `Binary64` is the bit pattern of an IEEE 754 double. A finite one is `mantissa * 2 ^ exponent` up to its sign.

* `Binary64.ofRatio` : the number nearest to a quotient, a tie going to the even mantissa.
* `Binary64.ofDecimal` : the number nearest to `digits * 10 ^ exponent`.
* `Binary64.toInt?` : the integer a number is, if it is one; `Binary64.truncate` : its integral part.
* `Binary64.ltInt`, `Binary64.geInt` : comparison with an integer.
-/

namespace Airdrop

/-- The bit pattern of a double: a sign bit, eleven bits of exponent and fifty-two of fraction. -/
structure Binary64 where
  bits : UInt64
  deriving DecidableEq

namespace Binary64

def isNegative (x : Binary64) : Bool := 2 ^ 63 ≤ x.bits.toNat

def exponentField (x : Binary64) : Nat := x.bits.toNat / 2 ^ 52 % 2048

def fraction (x : Binary64) : Nat := x.bits.toNat % 2 ^ 52

def isNaN (x : Binary64) : Bool := x.exponentField == 2047 && x.fraction != 0

def isInfinite (x : Binary64) : Bool := x.exponentField == 2047 && x.fraction == 0

def isFinite (x : Binary64) : Bool := x.exponentField != 2047

/-- The integer factor of a finite number's magnitude. -/
def mantissa (x : Binary64) : Nat := if x.exponentField = 0 then x.fraction else x.fraction + 2 ^ 52

def exponent (x : Binary64) : Int := if x.exponentField = 0 then -1074 else x.exponentField - 1075

def isZero (x : Binary64) : Bool := x.exponentField == 0 && x.fraction == 0

/-- The number with the given sign and the magnitude bits. -/
def ofMagnitude (negative : Bool) (bits : Nat) : Binary64 :=
  ⟨UInt64.ofNat (bits + if negative then 2 ^ 63 else 0)⟩

def infinity (negative : Bool) : Binary64 := ofMagnitude negative (2047 * 2 ^ 52)

def nan : Binary64 := ofMagnitude false (2047 * 2 ^ 52 + 2 ^ 51)

/-- The numerator of `n * base ^ e` over the denominator `base ^ -e`. -/
def scale (n base : Nat) (e : Int) : Nat × Nat := (n * base ^ e.toNat, base ^ (-e).toNat)

def ratio (x : Binary64) : Nat × Nat := scale x.mantissa 2 x.exponent

/-- The integer nearest to a quotient, a tie going to the even one. -/
def roundEven (num den : Nat) : Nat :=
  let q := num / den
  let twice := 2 * (num % den)
  if twice < den then q else if twice > den then q + 1 else q + q % 2

/-- The greatest `e` with `2 ^ e ≤ num / den`, for positive numbers. -/
def floorLog2 (num den : Nat) : Int :=
  let e : Int := num.log2 - den.log2
  let (p, q) := scale den 2 e
  if p ≤ num * q then e else e - 1

/-- The number nearest to `num / den`, a tie going to the even mantissa. -/
def ofRatio (negative : Bool) (num den : Nat) : Binary64 :=
  if num = 0 then ofMagnitude negative 0
  else
    let e := max (floorLog2 num den - 52) (-1074)
    let (p, q) := scale den 2 e
    let m := roundEven (num * q) p
    let bits := if e = -1074 then m else (e + 1074).toNat * 2 ^ 52 + m
    if 2047 * 2 ^ 52 ≤ bits then infinity negative else ofMagnitude negative bits

/-- The number nearest to `n * 10 ^ e`. Powers beyond the range of the format are settled by the number of digits. -/
def ofDecimal (negative : Bool) (n : Nat) (e : Int) : Binary64 :=
  let digits : Int := n.log2 * 30103 / 100000
  if n = 0 then ofMagnitude negative 0
  else if digits + e > 310 then infinity negative
  else if digits + e < -330 then ofMagnitude negative 0
  else
    let (num, den) := scale n 10 e
    ofRatio negative num den

def ofInt (n : Int) : Binary64 := ofRatio (n < 0) n.natAbs 1

def truncate (x : Binary64) : Int :=
  let (num, den) := x.ratio
  if x.isNegative then -((num / den : Nat) : Int) else (num / den : Nat)

def isIntegral (x : Binary64) : Bool :=
  let (num, den) := x.ratio
  x.isFinite && num % den == 0

def toInt? (x : Binary64) : Option Int := if x.isIntegral then some x.truncate else none

/-- The number is at least the integer; no comparison with `NaN` holds. -/
def geInt (x : Binary64) (n : Int) : Bool :=
  if x.isNaN then false
  else if x.isInfinite then !x.isNegative
  else
    let (num, den) := x.ratio
    let signed : Int := if x.isNegative then -num else num
    n * den ≤ signed

/-- The number is below the integer; no comparison with `NaN` holds. -/
def ltInt (x : Binary64) (n : Int) : Bool := !x.isNaN && !x.geInt n

end Binary64
end Airdrop
