import Airdrop.Number.Binary64
import Airdrop.Number.Radix

/-!
# The shortest decimal of a binary64 number

Of all decimals that read back as a given finite positive number, `Shortest.decimal` is one with the fewest digits and
among those the nearest; of two equally near it takes the even one. The search tries grids of one, two, up to seventeen
digits and looks at the two grid points around the number.
-/

namespace Airdrop.Shortest

/-- A decimal `digits * 10 ^ exponent`. -/
structure Decimal where
  digits : Nat
  exponent : Int

def Decimal.ratio (d : Decimal) : Nat × Nat := Binary64.scale d.digits 10 d.exponent

/-- Twice the ends of the interval of reals that round to a positive finite number, over a common denominator, and
whether the ends belong to it. The lower gap is halved at a power of two above the least exponent. -/
def interval (x : Binary64) : Nat × Nat × Nat × Bool :=
  let m := x.mantissa
  let low := if m = 2 ^ 52 ∧ -1074 < x.exponent then 4 * m - 1 else 4 * m - 2
  let (num, den) := Binary64.scale 1 2 (x.exponent - 2)
  (low * num, (4 * m + 2) * num, den, m % 2 == 0)

/-- The decimal lies in the interval of reals that round to the number. -/
def readsBack (x : Binary64) (d : Decimal) : Bool :=
  let (low, high, den, ends) := interval x
  let (n, k) := d.ratio
  d.digits != 0 && if ends then low * k ≤ n * den && n * den ≤ high * k else low * k < n * den && n * den < high * k

/-- The greatest `e` with `10 ^ e ≤ num / den`, for positive numbers. -/
def floorLog10 (num den : Nat) : Int :=
  let guess := Binary64.floorLog2 num den * 30103 / 100000
  let atLeast (e : Int) : Bool :=
    let (p, q) := Binary64.scale den 10 e
    p ≤ num * q
  if !atLeast guess then guess - 1 else if atLeast (guess + 1) then guess + 1 else guess

/-- The best decimal with exponent `e` that reads back. -/
def onGrid (x : Binary64) (e : Int) : Option Decimal :=
  let (num, den) := x.ratio
  let (p, q) := Binary64.scale den 10 e
  let below : Decimal := ⟨num * q / p, e⟩
  let above : Decimal := ⟨num * q / p + 1, e⟩
  match readsBack x below, readsBack x above with
  | true, true => some ⟨Binary64.roundEven (num * q) p, e⟩
  | true, false => some below
  | false, true => some above
  | false, false => none

def search (x : Binary64) : (count : Nat) → (e : Int) → Decimal
  | 0, e => ⟨x.ratio.1, e⟩
  | count + 1, e => (onGrid x e).getD (search x count (e - 1))

/-- Moves zeros at the end of the digits into the exponent. -/
def Decimal.strip : (fuel : Nat) → Decimal → Decimal
  | 0, d => d
  | fuel + 1, d => if d.digits ≠ 0 ∧ d.digits % 10 = 0 then strip fuel ⟨d.digits / 10, d.exponent + 1⟩ else d

def decimal (x : Binary64) : Decimal :=
  let (num, den) := x.ratio
  (search x 17 (floorLog10 num den)).strip 20

/-- The digits of the shortest decimal as text, and the number of them before the decimal point. -/
def digits (x : Binary64) : List Char × Int :=
  let d := decimal x
  let text := Radix.decimal d.digits
  (text, text.length + d.exponent)

end Airdrop.Shortest
