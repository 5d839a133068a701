import Airdrop.Error
import Airdrop.Json.Writer
import Airdrop.Text.Utf8

/-!
# Canonical JSON

`Json.canonical` writes a value in the one form that signatures cover: no blanks, fields sorted by the UTF-16 units of
their names, numbers in the shortest form, strings in UTF-8 with the least escapes. Integers beyond 2^53 - 1 in
magnitude, numbers that are not finite, byte strings and torn texts have no such form.
-/

namespace Airdrop.Json

/-- The greatest integer that a binary64 number and its neighbours tell apart. -/
def maxSafeInteger : Nat := 2 ^ 53 - 1

def canonicalChar (c : Char) : List Char :=
  match shortEscape? c with
  | some e => e
  | none => if c.toNat < 0x20 then unitEscape c.toNat else [c]

def canonicalString (cs : List Char) : List Char := '"' :: cs.flatMap canonicalChar ++ ['"']

def fieldLess (a b : String × Value) : Bool := Text.unitsLess (Text.units16 a.1.toList) (Text.units16 b.1.toList)

/-- Puts a field in front of the first one whose name is greater. -/
def insertField {α : Type} (less : α → α → Bool) (f : α) : List α → List α
  | [] => [f]
  | g :: rest => if less f g then f :: g :: rest else g :: insertField less f rest

def sortFields {α : Type} (less : α → α → Bool) (fs : List α) : List α :=
  fs.foldl (fun sorted f => insertField less f sorted) []

mutual

def sorted : Value → Value
  | .list vs => .list (sortedItems vs)
  | .object fs => .object (sortFields fieldLess (sortedFields fs))
  | .null => .null
  | .bool b => .bool b
  | .int n => .int n
  | .float x => .float x
  | .text s => .text s
  | .torn t => .torn t
  | .bytes bs => .bytes bs

def sortedItems : List Value → List Value
  | [] => []
  | v :: vs => sorted v :: sortedItems vs

def sortedFields : List (String × Value) → List (String × Value)
  | [] => []
  | (k, v) :: fs => (k, sorted v) :: sortedFields fs

end

mutual

/-- The text of a value whose fields are sorted. -/
def canonicalText : Value → Except CanonicalFault (List Char)
  | .null => .ok "null".toList
  | .bool true => .ok "true".toList
  | .bool false => .ok "false".toList
  | .int n => if n.natAbs ≤ maxSafeInteger then .ok (Radix.integer n) else .error (.integer n)
  | .float x => if x.isFinite then .ok (Layout.canonical.text x) else .error (.float x)
  | .text s => .ok (canonicalString s.toList)
  | .torn _ => .error .torn
  | .bytes _ => .error .bytes
  | .list [] => .ok ['[', ']']
  | .list (v :: vs) => do
    let first ← canonicalText v
    let rest ← canonicalItems vs
    return '[' :: first ++ rest ++ [']']
  | .object [] => .ok ['\x7b', '\x7d']
  | .object ((k, v) :: fs) => do
    let first ← canonicalText v
    let rest ← canonicalFields fs
    return '\x7b' :: canonicalString k.toList ++ ':' :: first ++ rest ++ ['\x7d']

def canonicalItems : List Value → Except CanonicalFault (List Char)
  | [] => .ok []
  | v :: vs => do
    let first ← canonicalText v
    let rest ← canonicalItems vs
    return ',' :: first ++ rest

def canonicalFields : List (String × Value) → Except CanonicalFault (List Char)
  | [] => .ok []
  | (k, v) :: fs => do
    let first ← canonicalText v
    let rest ← canonicalFields fs
    return ',' :: canonicalString k.toList ++ ':' :: first ++ rest

end

def canonical (v : Value) : Except CanonicalFault Bytes := (canonicalText (sorted v)).map Utf8.encode

end Airdrop.Json
