import Airdrop.Number.Shortest

/-!
# Number layouts

How the digits of a number become text. `Layout.general` writes the floating-point values of this library's own
messages and documents; `Layout.canonical` is the number format of canonical JSON.
-/

namespace Airdrop

/-- The decisions a number format takes once the digits are known. -/
structure Layout where
  /-- Positional while the point stands after more than this many places, counted from the first digit. -/
  minPoint : Int
  /-- Positional while the point stands after at most this many places. -/
  maxPoint : Int
  /-- What follows the digits of an integral number in positional form. -/
  integralTail : List Char
  /-- Least number of exponent digits. -/
  exponentWidth : Nat
  /-- The sign of zero is kept. -/
  signedZero : Bool
  infinityText : List Char
  nanText : List Char

namespace Layout

/-- Positional from 0.0001 up to below 10^16, integral values with `.0`, exponents of two digits. -/
def general : Layout := ⟨-4, 16, ['.', '0'], 2, true, "inf".toList, "nan".toList⟩

/-- Positional from 10^-6 up to below 10^21, no tail, exponents without padding, one zero. -/
def canonical : Layout := ⟨-6, 21, [], 1, false, "Infinity".toList, "NaN".toList⟩

def exponentText (width : Nat) (e : Int) : List Char :=
  let ds := Radix.decimal e.natAbs
  (if e < 0 then '-' else '+') :: List.replicate (width - ds.length) '0' ++ ds

def place (f : Layout) (ds : List Char) (point : Int) : List Char :=
  if f.minPoint < point ∧ point ≤ f.maxPoint then
    if point ≤ 0 then '0' :: '.' :: List.replicate (-point).toNat '0' ++ ds
    else if ds.length ≤ point.toNat then ds ++ List.replicate (point.toNat - ds.length) '0' ++ f.integralTail
    else ds.take point.toNat ++ '.' :: ds.drop point.toNat
  else
    let fractional := match ds.tail with
      | [] => []
      | rest => '.' :: rest
    ds.take 1 ++ fractional ++ 'e' :: exponentText f.exponentWidth (point - 1)

def text (f : Layout) (x : Binary64) : List Char :=
  if x.isNaN then f.nanText
  else
    let sign := if x.isNegative && (f.signedZero || !x.isZero) then ['-'] else []
    if x.isInfinite then sign ++ f.infinityText
    else if x.isZero then sign ++ '0' :: f.integralTail
    else
      let (ds, point) := Shortest.digits x
      sign ++ f.place ds point

end Layout
end Airdrop
