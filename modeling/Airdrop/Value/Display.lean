import Airdrop.Number.Layout
import Airdrop.Text.Quoted
import Airdrop.Value

/-!
# Values in messages

`Value.display` writes a value as it stands in a message; `Value.quoted` as it stands inside another value, where texts
are quoted. Neither looks at the length of integers; `Value.displayText?` does.
-/

namespace Airdrop.Value

mutual

def quoted : Value → List Char
  | null => "None".toList
  | bool true => "True".toList
  | bool false => "False".toList
  | int n => Radix.integer n
  | float x => Layout.general.text x
  | text s => Text.quoted s.toList
  | torn t => Text.quotedCodes t.codes
  | bytes bs => Text.quotedBytes bs
  | list items => '[' :: quotedItems items ++ [']']
  | object fields => '\x7b' :: quotedFields fields ++ ['\x7d']

def quotedItems : List Value → List Char
  | [] => []
  | [v] => quoted v
  | v :: w :: rest => quoted v ++ ',' :: ' ' :: quotedItems (w :: rest)

/-- The fields of an object with a comma and a space between them. -/
def quotedFields : List (String × Value) → List Char
  | [] => []
  | [(k, v)] => Text.quoted k.toList ++ ':' :: ' ' :: quoted v
  | (k, v) :: f :: rest => Text.quoted k.toList ++ ':' :: ' ' :: quoted v ++ ',' :: ' ' :: quotedFields (f :: rest)

end

/-- A value as it stands in a message: a text stands for itself. -/
def display : Value → List Char
  | text s => s.toList
  | torn t => t.codes.flatMap CodePoint.display
  | v => quoted v

/-- `display` as a string, unless an integer in the value is too long to be written. -/
def displayText? (v : Value) : Option String := if v.isWritable then some (String.ofList v.display) else none

end Airdrop.Value
