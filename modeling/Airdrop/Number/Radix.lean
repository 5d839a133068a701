/-!
# Positional numerals

* `Radix.digits` : the digits of a number in a base, least significant first and without a leading zero, so that
  zero has none.
* `Radix.value` : the number that digits write, most significant first.
* `Radix.text` : decimal text, `"0"` for zero.
* `Radix.isLong` : an integer has more than `Radix.maxDigits` digits. Such integers are neither written in decimal nor
  read; `Radix.integerText?` gives the text of all others.
-/

namespace Airdrop.Radix

/-- Division by the base, `fuel` times at most. -/
def digitsFrom (base : Nat) : (fuel : Nat) → Nat → List Nat
  | 0, _ => []
  | fuel + 1, n => if n = 0 then [] else n % base :: digitsFrom base fuel (n / base)

/-- The digits of a number, least significant first; a number has at most as many digits as bits. -/
def digits (base n : Nat) : List Nat := digitsFrom base (n.log2 + 1) n

/-- The number that digits write, most significant first. -/
def value (base : Nat) (ds : List Nat) : Nat := ds.foldl (fun n d => n * base + d) 0

def digitChar (d : Nat) : Char := Char.ofNat (48 + d)

def decimal (n : Nat) : List Char :=
  if n = 0 then ['0'] else (digits 10 n).reverse.map digitChar

/-- The digits of an integer after its sign, however many they are. -/
def integer : Int → List Char
  | .ofNat n => decimal n
  | .negSucc n => '-' :: decimal (n + 1)

def text (n : Nat) : String := String.ofList (decimal n)

/-- The greatest number of digits with which integers are written and read in decimal. -/
def maxDigits : Nat := 4300

/-- The integer has more digits than are written. The sign does not count. -/
def isLong (n : Int) : Bool := maxDigits < (decimal n.natAbs).length

def integerText? (n : Int) : Option String := if isLong n then none else some (String.ofList (integer n))

end Airdrop.Radix
