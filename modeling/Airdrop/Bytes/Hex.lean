import Airdrop.Bytes
import Airdrop.Text.Blank

/-!
# Hexadecimal text

* `Hex.encode` : two lower-case digits a byte.
* `Hex.decode` : pairs of digits of either case, with ASCII white space allowed between pairs. A refusal names the
  position of the offending character; a text that ends inside a pair is refused at its end.
-/

namespace Airdrop.Hex

def digitChar (d : Nat) : Char := if d < 10 then Char.ofNat (48 + d) else Char.ofNat (87 + d)

def digit? (c : Char) : Option Nat :=
  let n := c.toNat
  if 48 ≤ n ∧ n ≤ 57 then some (n - 48)
  else if 97 ≤ n ∧ n ≤ 102 then some (n - 87)
  else if 65 ≤ n ∧ n ≤ 70 then some (n - 55)
  else none

def byteText (b : UInt8) : List Char := [digitChar (b.toNat / 16), digitChar (b.toNat % 16)]

def encode (bs : Bytes) : List Char := bs.flatMap byteText

/-- Reads pairs of digits; `i` is the position of the first character of the text that is left. -/
def decodeFrom : (i : Nat) → List Char → Except Nat Bytes
  | _, [] => .ok []
  | i, [c] => if Text.isAsciiBlank c then .ok [] else if (digit? c).isNone then .error i else .error (i + 1)
  | i, c :: d :: rest =>
    if Text.isAsciiBlank c then decodeFrom (i + 1) (d :: rest)
    else match digit? c, digit? d with
      | none, _ => .error i
      | some _, none => .error (i + 1)
      | some hi, some lo => (decodeFrom (i + 2) rest).map (UInt8.ofNat (16 * hi + lo) :: ·)

/-- The bytes a hexadecimal text writes, or the position at which it is refused. A character beyond ASCII is refused
before anything else. -/
def decode (cs : List Char) : Except Nat Bytes :=
  match cs.findIdx? (fun c => 128 ≤ c.toNat) with
  | some i => .error i
  | none => decodeFrom 0 cs

def text (bs : Bytes) : String := String.ofList (encode bs)

end Airdrop.Hex
