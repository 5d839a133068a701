import Airdrop.Number.Layout

/-!
# Decimals of a given precision

The magnitude of a finite number with a given number of digits, correctly rounded: `Fixed.places` counts the digits
after the decimal point, `Fixed.scientific` those after the first digit, and `Fixed.significant` all of them and chooses
between the two forms.
-/

namespace Airdrop.Fixed

/-- Digits with a point in front of the last `places` of them. -/
def withPoint (digits : List Char) (places : Nat) (keepPoint : Bool) : List Char :=
  let digits := List.replicate (places + 1 - digits.length) '0' ++ digits
  let whole := digits.take (digits.length - places)
  if places = 0 then if keepPoint then whole ++ ['.'] else whole else whole ++ '.' :: digits.drop whole.length

/-- A quotient with a number of places after the decimal point. -/
def places (num den precision : Nat) (keepPoint : Bool) : List Char :=
  withPoint (Radix.decimal (Binary64.roundEven (num * 10 ^ precision) den)) precision keepPoint

/-- The digits of a quotient, one and `precision` more, and the exponent of the first one. -/
def leading (num den precision : Nat) : Nat × Int :=
  if num = 0 then (0, 0)
  else
    let e := Shortest.floorLog10 num den
    let (p, q) := Binary64.scale den 10 (e - precision)
    let digits := Binary64.roundEven (num * q) p
    if digits = 10 ^ (precision + 1) then (10 ^ precision, e + 1) else (digits, e)

/-- A quotient with one digit before the point and an exponent. -/
def scientific (num den precision : Nat) (keepPoint : Bool) : List Char :=
  let (digits, e) := leading num den precision
  withPoint (Radix.decimal digits) precision keepPoint ++ 'e' :: Layout.exponentText 2 e

/-- The text without zeros at its end, and without a point that they leave behind. -/
def stripZeros (cs : List Char) : List Char :=
  if cs.contains '.' then
    let kept := (cs.reverse.dropWhile (· == '0')).reverse
    if kept.getLast? = some '.' then kept.dropLast else kept
  else cs

/-- A quotient with a number of digits in all; very large and very small ones have an exponent. Zeros at the end are
left out unless they are to be kept. -/
def significant (num den precision : Nat) (keepZeros : Bool) : List Char :=
  let precision := max precision 1
  let (digits, e) := leading num den (precision - 1)
  if -4 ≤ e ∧ e < precision then
    let text := places num den (precision - 1 - e).toNat keepZeros
    if keepZeros then text else stripZeros text
  else
    let text := withPoint (Radix.decimal digits) (precision - 1) keepZeros
    (if keepZeros then text else stripZeros text) ++ 'e' :: Layout.exponentText 2 e

end Airdrop.Fixed
