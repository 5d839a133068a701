/-!
# UTF-16 code units

`Text.units16` writes a text in 16-bit units, a character beyond U+FFFF as a surrogate pair. `Text.unitsLess` is the
order of texts by their units, in which such a character comes before U+E000.
-/

namespace Airdrop.Text

def units16Char (c : Char) : List Nat :=
  let n := c.toNat
  if n < 0x10000 then [n] else [0xD800 + (n - 0x10000) / 1024, 0xDC00 + (n - 0x10000) % 1024]

def units16 (cs : List Char) : List Nat := cs.flatMap units16Char

/-- The order of numbers, place by place; a proper beginning comes first. -/
def unitsLess : List Nat → List Nat → Bool
  | [], [] => false
  | [], _ :: _ => true
  | _ :: _, [] => false
  | a :: as, b :: bs => a < b || (a == b && unitsLess as bs)

end Airdrop.Text
