import Airdrop.Bytes
import Airdrop.Number.Radix
import Airdrop.Text.Blank
import Airdrop.Value

/-!
# Base58 text

A byte string is written as the base-58 numeral of its big-endian value, after one `1` for each leading zero byte.
Reading ignores blanks at the end of the text, and only there.
-/

namespace Airdrop.Base58

/-- The fifty-eight digits: letters and digits without `0`, `O`, `I` and `l`. -/
def alphabet : List Char := "123456789ABCDEFGHJKLMNPQRSTUVWXYZabcdefghijkmnopqrstuvwxyz".toList

def digitChar (d : Nat) : Char := alphabet.getD d '1'

def digit? (c : Char) : Option Nat := alphabet.findIdx? (· == c)

def encode (bs : Bytes) : List Char :=
  (bs.takeWhile (· == 0)).map (fun _ => '1') ++ (Radix.digits 58 (Bytes.toNatBE bs)).reverse.map digitChar

/-- The big-endian bytes of a number, without a leading zero byte. -/
def minimalBytes (n : Nat) : Bytes := (Radix.digits 256 n).reverse.map UInt8.ofNat

def ofDigits? (cs : List Char) : Option Bytes :=
  let zeros := (cs.takeWhile (· == '1')).map fun _ => (0 : UInt8)
  ((cs.dropWhile (· == '1')).mapM digit?).map fun ds => zeros ++ minimalBytes (Radix.value 58 ds)

def decode? (cs : List Char) : Option Bytes := ofDigits? (Text.trimRight Text.isBlank cs)

def text (bs : Bytes) : String := String.ofList (encode bs)

def ofText? (s : String) : Option Bytes := decode? s.toList

/-- `decode?` of a text from outside; a torn text has no digits. -/
def ofRaw? : RawText → Option Bytes
  | .whole s => ofText? s
  | .torn _ => none

/-- The bytes that a Base58 value writes; a byte string counts as the ASCII text it holds. -/
def ofValue? : Value → Option Bytes
  | .text s => ofText? s
  | .bytes bs => ofDigits? (Text.trimRight Text.isAsciiBlank (bs.map fun b => Char.ofNat b.toNat))
  | _ => none

end Airdrop.Base58
