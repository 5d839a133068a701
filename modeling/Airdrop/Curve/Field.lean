import Airdrop.Number.Power

/-!
# The field of the curve

Residues modulo the prime `2 ^ 255 - 19`, as natural numbers below it.

* `Field.pow` : square and multiply over a given number of exponent bits.
* `Field.inverse`, `Field.isSquare`, `Field.sqrt?` : inverses, squares and square roots by exponentiation.
-/

namespace Airdrop.Field

/-- The prime. -/
def p : Nat := 2 ^ 255 - 19

/-- `a ^ n % m` over the `bits` low bits of `n`. -/
def powMod (m : Nat) : (bits a n : Nat) → Nat
  | 0, _, _ => 1 % m
  | bits + 1, a, n =>
    let r := powMod m bits (a * a % m) (n / 2)
    if n % 2 = 1 then r * a % m else r

/-- A power with an exponent below `2 ^ 255`. -/
def pow (a n : Nat) : Nat := powMod p 255 a n

/-- The inverse of a residue other than zero, by Fermat's theorem. -/
def inverse (a : Nat) : Nat := pow a (p - 2)

def add (a b : Nat) : Nat := (a + b) % p
def sub (a b : Nat) : Nat := (a + (p - b % p)) % p
def mul (a b : Nat) : Nat := a * b % p

/-- A residue is zero or a power of one half of the exponents gives one. -/
def isSquare (a : Nat) : Bool := a == 0 || pow a ((p - 1) / 2) == 1

def sqrtMinusOne : Nat := pow 2 ((p - 1) / 4)

def sqrt? (a : Nat) : Option Nat :=
  let r := pow a ((p + 3) / 8)
  if mul r r = a then some r
  else
    let r := mul r sqrtMinusOne
    if mul r r = a then some r else none

/-- The curve's constant, `-121665 / 121666`. -/
def d : Nat := mul (p - 121665) (inverse 121666)

end Airdrop.Field
