import Airdrop.Bytes

/-!
# UTF-8

* `Utf8.encode` : the bytes of a text.
* `Utf8.next` : the first character of a byte string, or the rest after its longest prefix that could still have
  become one.
* `Utf8.decode?` : the text of a byte string without faults; `Utf8.decodeLossy` : with U+FFFD for every fault.
-/

namespace Airdrop.Utf8

def encodeChar (c : Char) : Bytes :=
  let n := c.toNat
  if n < 0x80 then [UInt8.ofNat n]
  else if n < 0x800 then [UInt8.ofNat (0xC0 + n / 64), UInt8.ofNat (0x80 + n % 64)]
  else if n < 0x10000 then
    [UInt8.ofNat (0xE0 + n / 4096), UInt8.ofNat (0x80 + n / 64 % 64), UInt8.ofNat (0x80 + n % 64)]
  else
    [UInt8.ofNat (0xF0 + n / 262144), UInt8.ofNat (0x80 + n / 4096 % 64), UInt8.ofNat (0x80 + n / 64 % 64),
      UInt8.ofNat (0x80 + n % 64)]

def encode (cs : List Char) : Bytes := cs.flatMap encodeChar

/-- What a lead byte promises: how many bytes follow, the bits it carries, and the range of the byte after it. The
ranges leave out overlong forms, surrogates and numbers beyond U+10FFFF. -/
def lead? (b : UInt8) : Option (Nat × Nat × Nat × Nat) :=
  let n := b.toNat
  if n < 0x80 then some (0, n, 0, 0)
  else if n < 0xC2 then none
  else if n < 0xE0 then some (1, n - 0xC0, 0x80, 0xBF)
  else if n = 0xE0 then some (2, 0, 0xA0, 0xBF)
  else if n = 0xED then some (2, 13, 0x80, 0x9F)
  else if n < 0xF0 then some (2, n - 0xE0, 0x80, 0xBF)
  else if n = 0xF0 then some (3, 0, 0x90, 0xBF)
  else if n < 0xF4 then some (3, n - 0xF0, 0x80, 0xBF)
  else if n = 0xF4 then some (3, 4, 0x80, 0x8F)
  else none

/-- Reads `count` further bytes of a character, the first of them in the given range. -/
def follow : (count low high value : Nat) → Bytes → Except Bytes (Nat × Bytes)
  | 0, _, _, value, bs => .ok (value, bs)
  | _ + 1, _, _, _, [] => .error []
  | count + 1, low, high, value, b :: bs =>
    if low ≤ b.toNat ∧ b.toNat ≤ high then follow count 0x80 0xBF (value * 64 + (b.toNat - 0x80)) bs
    else .error (b :: bs)

/-- The character at the front of `b :: bs` and what is left, or what is left after the faulty bytes. -/
def next (b : UInt8) (bs : Bytes) : Except Bytes (Char × Bytes) :=
  match lead? b with
  | none => .error bs
  | some (count, value, low, high) => (follow count low high value bs).map fun (n, rest) => (Char.ofNat n, rest)

/-- Reads at most `fuel` characters, with `none` for each fault. -/
def read : (fuel : Nat) → Bytes → List (Option Char)
  | 0, _ => []
  | _ + 1, [] => []
  | fuel + 1, b :: bs =>
    match next b bs with
    | .ok (c, rest) => some c :: read fuel rest
    | .error rest => none :: read fuel rest

def decode? (bs : Bytes) : Option (List Char) := (read bs.length bs).mapM id

/-- The text of a byte string, with U+FFFD for each longest faulty piece. -/
def decodeLossy (bs : Bytes) : List Char := (read bs.length bs).map (·.getD '\uFFFD')

def ofText (s : String) : Bytes := encode s.toList

def text? (bs : Bytes) : Option String := (decode? bs).map String.ofList

end Airdrop.Utf8
