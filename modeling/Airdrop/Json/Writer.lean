import Airdrop.Error
import Airdrop.Text.Units

/-!
# Writing JSON

`Json.pretty` writes a value over several lines, two spaces to a level, in ASCII only: a character beyond ASCII is
written by its UTF-16 units. `Json.compact` writes it on one line. Byte strings have no JSON form and are written as
their quotation. `Json.text` is the text of a document: a value with an integer that is too long has none.
-/

namespace Airdrop.Json

/-- A character inside a string, with the escapes of its own that control characters have. -/
def shortEscape? (c : Char) : Option (List Char) :=
  if c = '"' then some ['\\', '"']
  else if c = '\\' then some ['\\', '\\']
  else if c = '\n' then some ['\\', 'n']
  else if c = '\r' then some ['\\', 'r']
  else if c = '\t' then some ['\\', 't']
  else if c = '\x08' then some ['\\', 'b']
  else if c = '\x0c' then some ['\\', 'f']
  else none

def unitEscape (n : Nat) : List Char := '\\' :: 'u' :: Text.hexDigits 4 n

def asciiChar (c : Char) : List Char :=
  match shortEscape? c with
  | some e => e
  | none => if 0x20 ≤ c.toNat ∧ c.toNat < 0x7F then [c] else (Text.units16Char c).flatMap unitEscape

def asciiString (cs : List Char) : List Char := '"' :: cs.flatMap asciiChar ++ ['"']

/-- A code point inside an ASCII string. -/
def asciiCode : CodePoint → List Char
  | .char c => asciiChar c
  | .half n => unitEscape (0xD800 + n.val)

def numbers : Layout := { Layout.general with infinityText := "Infinity".toList, nanText := "NaN".toList }

def scalarText : Value → List Char
  | .null => "null".toList
  | .bool true => "true".toList
  | .bool false => "false".toList
  | .int n => Radix.integer n
  | .float x => numbers.text x
  | .text s => asciiString s.toList
  | .torn t => '"' :: t.codes.flatMap asciiCode ++ ['"']
  | .bytes bs => Text.quotedBytes bs
  | .list _ => "[]".toList
  | .object _ => ['\x7b', '\x7d']

def newline (level : Nat) : List Char := '\n' :: List.replicate (2 * level) ' '

mutual

/-- A value over several lines, whose first line stands at the given level. -/
def prettyAt : (level : Nat) → Value → List Char
  | level, .list (v :: vs) =>
    '[' :: newline (level + 1) ++ prettyAt (level + 1) v ++ prettyItems (level + 1) vs ++ newline level ++ [']']
  | level, .object ((k, v) :: fs) =>
    '\x7b' :: newline (level + 1) ++ asciiString k.toList ++ ':' :: ' ' :: prettyAt (level + 1) v ++
      prettyFields (level + 1) fs ++ newline level ++ ['\x7d']
  | _, .null => scalarText .null
  | _, .bool b => scalarText (.bool b)
  | _, .int n => scalarText (.int n)
  | _, .float x => scalarText (.float x)
  | _, .text s => scalarText (.text s)
  | _, .torn t => scalarText (.torn t)
  | _, .bytes bs => scalarText (.bytes bs)
  | _, .list [] => scalarText (.list [])
  | _, .object [] => scalarText (.object [])

/-- The further items of a list, each after a comma on a line of its own. -/
def prettyItems : (level : Nat) → List Value → List Char
  | _, [] => []
  | level, v :: vs => ',' :: newline level ++ prettyAt level v ++ prettyItems level vs

/-- The further fields of an object, each after a comma on a line of its own. -/
def prettyFields : (level : Nat) → List (String × Value) → List Char
  | _, [] => []
  | level, (k, v) :: fs =>
    ',' :: newline level ++ asciiString k.toList ++ ':' :: ' ' :: prettyAt level v ++ prettyFields level fs

end

def pretty (v : Value) : List Char := prettyAt 0 v

/-- The text of a value as a document. An integer that is too long to be written ends the writing. -/
def text (v : Value) : Except Error (List Char) :=
  if v.isWritable then .ok (pretty v) else .error (.value .tooLongToWrite)

mutual

def compact : Value → List Char
  | .list vs => '[' :: compactItems vs ++ [']']
  | .object fs => '\x7b' :: compactFields fs ++ ['\x7d']
  | .null => scalarText .null
  | .bool b => scalarText (.bool b)
  | .int n => scalarText (.int n)
  | .float x => scalarText (.float x)
  | .text s => scalarText (.text s)
  | .torn t => scalarText (.torn t)
  | .bytes bs => scalarText (.bytes bs)

def compactItems : List Value → List Char
  | [] => []
  | [v] => compact v
  | v :: w :: rest => compact v ++ ',' :: compactItems (w :: rest)

def compactFields : List (String × Value) → List Char
  | [] => []
  | [(k, v)] => asciiString k.toList ++ ':' :: compact v
  | (k, v) :: f :: rest => asciiString k.toList ++ ':' :: compact v ++ ',' :: compactFields (f :: rest)

end

end Airdrop.Json
