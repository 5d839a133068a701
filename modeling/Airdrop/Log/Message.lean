import Airdrop.Number.Fixed
import Airdrop.Text.Digit
import Airdrop.Value.Display

/-!
# Log messages

A `Message` is a template with arguments. A directive of the template starts with a percent sign and ends with a letter
that tells the form: `%s`, `%r` and `%a` for any value, `%d`, `%i`, `%u`, `%o`, `%x` and `%X` for integers, `%e`, `%f`
and `%g` for numbers, `%c` for a character. In between may stand the name of a field, flags, a width and a precision.
`Message.text?` fails if arguments are missing, left over or of the wrong type, and if an integer is too long to be
written in decimal.
-/

namespace Airdrop

/-- What a template's directives are filled with. -/
inductive Arguments where
  | positional (values : List Value)
  | named (fields : List (String × Value))

/-- A template and its arguments. -/
structure Message where
  template : List Char
  arguments : Arguments := .positional []

namespace Arguments

/-- There is nothing to fill in, so the template stands for itself. -/
def isEmpty : Arguments → Bool
  | positional vs => vs.isEmpty
  | named fs => fs.isEmpty

/-- The arguments of a list of values; a single object with fields gives them by name. -/
def ofList : List Value → Arguments
  | [.object (f :: fs)] => named (f :: fs)
  | vs => positional vs

end Arguments

namespace Directive

/-- What stands between the percent sign and the letter. -/
structure Spec where
  flags : List Char := []
  width : Nat := 0
  precision : Option Nat := none

def Spec.has (s : Spec) (flag : Char) : Bool := s.flags.contains flag

def pad (s : Spec) (cs : List Char) : List Char :=
  let blanks := List.replicate (s.width - cs.length) ' '
  if s.has '-' then cs ++ blanks else blanks ++ cs

/-- A number filled up to the width; zeros go between sign and digits. -/
def padNumber (s : Spec) (negative : Bool) (mark digits : List Char) : List Char :=
  let sign := if negative then ['-'] else if s.has '+' then ['+'] else if s.has ' ' then [' '] else []
  if s.has '0' && !s.has '-' then
    sign ++ mark ++ List.replicate (s.width - sign.length - mark.length - digits.length) '0' ++ digits
  else pad s (sign ++ mark ++ digits)

def text (s : Spec) (cs : List Char) : List Char :=
  pad s (match s.precision with
    | some n => cs.take n
    | none => cs)

def escaped (c : Char) : List Char :=
  if c.toNat < 0x80 then [c]
  else if c.toNat < 0x100 then '\\' :: 'x' :: Text.hexDigits 2 c.toNat
  else if c.toNat < 0x10000 then '\\' :: 'u' :: Text.hexDigits 4 c.toNat
  else '\\' :: 'U' :: Text.hexDigits 8 c.toNat

def digitsIn (base n : Nat) : List Char :=
  if n = 0 then ['0'] else (Radix.digits base n).reverse.map Hex.digitChar

def integer (s : Spec) (letter : Char) (n : Int) : List Char :=
  let base := if letter = 'o' then 8 else if letter = 'x' ∨ letter = 'X' then 16 else 10
  let digits := digitsIn base n.natAbs
  let digits := List.replicate ((s.precision.getD 0) - digits.length) '0' ++ digits
  let mark := if s.has '#' && base != 10 then ['0', letter] else []
  padNumber s (n < 0) mark (if letter = 'X' then digits.map Char.toUpper else digits)

def number? : Value → Option Binary64
  | .float x => some x
  | v => (v.asInt?.map Binary64.ofInt).filter Binary64.isFinite

/-- A floating-point number in the form that the letter names. -/
def float (s : Spec) (letter : Char) (x : Binary64) : List Char :=
  let precision := s.precision.getD 6
  let (num, den) := x.ratio
  let digits :=
    if x.isNaN then "nan".toList
    else if x.isInfinite then "inf".toList
    else match letter.toLower with
      | 'f' => Fixed.places num den precision (s.has '#')
      | 'e' => Fixed.scientific num den precision (s.has '#')
      | _ => Fixed.significant num den precision (s.has '#')
  padNumber s (x.isNegative && !x.isNaN) [] (if letter.isUpper then digits.map Char.toUpper else digits)

/-- The character of a value: a text of one character, or a code point. -/
def character? : Value → Option (List Char)
  | .text t =>
    match t.toList with
    | [c] => some [c]
    | _ => none
  | v =>
    match v.asInt? with
    | some n => if 0 ≤ n ∧ n < 0x110000 then some [Char.ofNat n.toNat] else none
    | none => none

def isDecimal (letter : Char) : Bool := ['d', 'i', 'u'].contains letter

/-- The integer of a value; decimal forms also take numbers, whose fraction they drop. -/
def integer? (letter : Char) : Value → Option Int
  | .float x => if x.isFinite && isDecimal letter then some x.truncate else none
  | v => v.asInt?

def format (s : Spec) (letter : Char) (v : Value) : Option (List Char) :=
  if ['s', 'r', 'a'].contains letter && !v.isWritable then none
  else if letter = 's' then some (text s v.display)
  else if letter = 'r' then some (text s v.quoted)
  else if letter = 'a' then some (text s (v.quoted.flatMap escaped))
  else if letter = 'c' then (character? v).map (pad s)
  else if isDecimal letter then ((integer? letter v).filter fun n => !Radix.isLong n).map (integer s letter)
  else if ['o', 'x', 'X'].contains letter then (integer? letter v).map (integer s letter)
  else if ['e', 'E', 'f', 'F', 'g', 'G'].contains letter then (number? v).map (float s letter)
  else none

/-- The name in parentheses, which may hold parentheses itself, and what follows. -/
def name? : (depth : Nat) → List Char → Option (List Char × List Char)
  | _, [] => none
  | depth, c :: cs =>
    if c = ')' then
      match depth with
      | 0 => some ([], cs)
      | depth + 1 => (name? depth cs).map fun (name, rest) => (c :: name, rest)
    else (name? (if c = '(' then depth + 1 else depth) cs).map fun (name, rest) => (c :: name, rest)

def count (cs : List Char) : Nat × List Char :=
  (Radix.value 10 ((cs.takeWhile Text.isAsciiDigit).map fun c => c.toNat - 48), cs.dropWhile Text.isAsciiDigit)

/-- A number in a directive: digits, or an asterisk for the next argument. -/
def measure? (cs : List Char) (values : List Value) : Option (Int × List Char × List Value) :=
  match cs with
  | '*' :: rest =>
    match values with
    | v :: values =>
      match v with
      | .int n => some (n, rest, values)
      | .bool b => some (if b then 1 else 0, rest, values)
      | _ => none
    | [] => none
  | _ =>
    let (n, rest) := count cs
    some (n, rest, values)

/-- The flags, width and precision of a directive, with the arguments that they leave. -/
def spec? (cs : List Char) (values : List Value) : Option (Spec × List Char × List Value) := do
  let isFlag (c : Char) : Bool := ['-', '+', ' ', '#', '0'].contains c
  let flags := cs.takeWhile isFlag
  let (width, cs, values) ← measure? (cs.dropWhile isFlag) values
  let flags := if width < 0 then '-' :: flags else flags
  let (precision, cs, values) ← match cs with
    | '.' :: rest => (measure? rest values).map fun (n, cs, values) => (some n.toNat, cs, values)
    | _ => some (none, cs, values)
  let cs := match cs with
    | c :: rest => if ['h', 'l', 'L'].contains c then rest else cs
    | [] => []
  return (⟨flags, width.natAbs, precision⟩, cs, values)

end Directive

namespace Message

open Directive

/-- A directive without its percent sign: its text, what follows it, and the arguments it leaves. -/
def directive? (fields : Option (List (String × Value))) (cs : List Char) (values : List Value) :
    Option (List Char × List Char × List Value) := do
  let (cs, values) ← match cs with
    | '(' :: rest => do
      let (name, rest) ← name? 0 rest
      let v ← Value.lookup (String.ofList name) (← fields)
      some (rest, [v])
    | _ => some (cs, values)
  let (s, cs, values) ← spec? cs values
  match cs, values with
  | letter :: rest, v :: values => (format s letter v).map fun piece => (piece, rest, values)
  | _, _ => none

/-- The text of a template, of which each step reads at least one character, and the arguments left over. -/
def fill (fields : Option (List (String × Value))) : (fuel : Nat) → List Char → List Value →
    Option (List Char × List Value)
  | 0, _, _ => none
  | _ + 1, [], values => some ([], values)
  | fuel + 1, '%' :: '%' :: cs, values => do
    let (more, values) ← fill fields fuel cs values
    return ('%' :: more, values)
  | fuel + 1, '%' :: cs, values => do
    let (piece, rest, values) ← directive? fields cs values
    let (more, values) ← fill fields fuel rest values
    return (piece ++ more, values)
  | fuel + 1, c :: cs, values => do
    let (more, values) ← fill fields fuel cs values
    return (c :: more, values)

/-- The text of a message. Without arguments the template stands for itself. -/
def text? (m : Message) : Option (List Char) :=
  if m.arguments.isEmpty then some m.template
  else match m.arguments with
    | .positional values =>
      match fill none (m.template.length + 1) m.template values with
      | some (cs, []) => some cs
      | _ => none
    | .named fields => (fill (some fields) (m.template.length + 1) m.template [.object fields]).map (·.1)

end Message
end Airdrop
