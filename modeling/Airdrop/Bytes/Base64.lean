import Airdrop.Bytes

/-!
# Base64 text

Three bytes become four characters of the standard alphabet; a last group of one or two bytes is filled up with `=`.
Reading is strict: no character outside the alphabet, no data after the filling, no missing filling. It ignores the
spare bits of the last character, and filling that follows a whole last group.
-/

namespace Airdrop.Base64

/-- The sixty-four digits. -/
def alphabet : List Char := "ABCDEFGHIJKLMNOPQRSTUVWXYZabcdefghijklmnopqrstuvwxyz0123456789+/".toList

def digitChar (d : Nat) : Char := alphabet.getD d 'A'

def digit? (c : Char) : Option Nat := alphabet.findIdx? (· == c)

def encode : Bytes → List Char
  | [] => []
  | [a] =>
    let n := a.toNat * 65536
    [digitChar (n / 262144), digitChar (n / 4096 % 64), '=', '=']
  | [a, b] =>
    let n := a.toNat * 65536 + b.toNat * 256
    [digitChar (n / 262144), digitChar (n / 4096 % 64), digitChar (n / 64 % 64), '=']
  | a :: b :: c :: rest =>
    let n := a.toNat * 65536 + b.toNat * 256 + c.toNat
    digitChar (n / 262144) :: digitChar (n / 4096 % 64) :: digitChar (n / 64 % 64) :: digitChar (n % 64) :: encode rest

/-- The bytes of a list of six-bit digits and the number of filling characters after them. -/
def decodeDigits : List Nat → (filling : Nat) → Option Bytes
  | [], _ => some []
  | [_], _ => none
  | [a, b], filling => if filling = 2 then some [UInt8.ofNat (a * 4 + b / 16)] else none
  | [a, b, c], filling =>
    if filling = 1 then some [UInt8.ofNat (a * 4 + b / 16), UInt8.ofNat (b % 16 * 16 + c / 4)] else none
  | a :: b :: c :: d :: rest, filling =>
    (decodeDigits rest filling).map fun bs =>
      UInt8.ofNat (a * 4 + b / 16) :: UInt8.ofNat (b % 16 * 16 + c / 4) :: UInt8.ofNat (c % 4 * 64 + d) :: bs

def decode? (cs : List Char) : Option Bytes :=
  let data := cs.takeWhile (· != '=')
  let filling := cs.dropWhile (· != '=')
  if data.isEmpty && !filling.isEmpty then none
  else if filling.any (· != '=') then none
  else (data.mapM digit?).bind fun ds => decodeDigits ds filling.length

def text (bs : Bytes) : String := String.ofList (encode bs)

def ofText? (s : String) : Option Bytes := decode? s.toList

end Airdrop.Base64
