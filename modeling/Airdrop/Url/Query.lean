import Airdrop.Bytes.Hex
import Airdrop.Text.Digit
import Airdrop.Text.Split
import Airdrop.Text.Utf8

/-!
# Queries of links

A query is a list of names and values with `=` and `&` between them. Spaces are written as `+`; all other characters
but letters, digits and `_.-~` as the bytes of their UTF-8 form, each a percent sign and two hexadecimal digits.

* `Query.encode`, `Query.render` : writing a text and a list of pairs.
* `Query.decode`, `Query.pairs` : reading them; a percent sign without two digits stands for itself.
-/

namespace Airdrop.Query

/-- A letter of ASCII. -/
def isLetter (c : Char) : Bool := ('a' ≤ c && c ≤ 'z') || ('A' ≤ c && c ≤ 'Z')

def isPlain (c : Char) : Bool := isLetter c || Text.isAsciiDigit c || "_.-~".toList.contains c

def upperDigit (n : Nat) : Char := Char.ofNat (if n < 10 then 48 + n else 55 + n)

def escapeByte (b : UInt8) : List Char := ['%', upperDigit (b.toNat / 16), upperDigit (b.toNat % 16)]

def encodeChar (c : Char) : List Char :=
  if isPlain c then [c] else if c = ' ' then ['+'] else (Utf8.encodeChar c).flatMap escapeByte

def encode (cs : List Char) : List Char := cs.flatMap encodeChar

def render (pairs : List (List Char × List Char)) : List Char :=
  Text.join ['&'] (pairs.map fun (name, value) => encode name ++ '=' :: encode value)

def bytes : List Char → Bytes
  | [] => []
  | '%' :: a :: b :: rest =>
    match Hex.digit? a, Hex.digit? b with
    | some hi, some lo => UInt8.ofNat (16 * hi + lo) :: bytes rest
    | _, _ => 37 :: bytes (a :: b :: rest)
  | '+' :: rest => 32 :: bytes rest
  | c :: rest => Utf8.encodeChar c ++ bytes rest

/-- The text that a text in a query stands for; bytes that are no UTF-8 become U+FFFD. -/
def decode (cs : List Char) : List Char := Utf8.decodeLossy (bytes cs)

/-- A name and its value; without `=` the value is empty. -/
def pair (cs : List Char) : List Char × List Char :=
  match Text.cut? '=' cs with
  | some (name, value) => (decode name, decode value)
  | none => (decode cs, [])

def pairs (cs : List Char) : List (List Char × List Char) :=
  ((Text.split '&' cs).filter fun piece => !piece.isEmpty).map pair

end Airdrop.Query
