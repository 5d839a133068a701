import Airdrop.Text.Blank
import Airdrop.Text.Split

/-!
# Files of variables

A file gives one variable a line: a name, `=` and a value. `export` may stand in front, `#` starts a comment, a value
may be quoted over several lines, and `${NAME}` or `${NAME:-default}` stands for another variable.

* `EnvFile.bindings` : the names and values of a text; a line that is malformed is left out.
* `EnvFile.read` : the same with all references to variables replaced.
-/

namespace Airdrop.EnvFile

def isInline (c : Char) : Bool := Text.isBlank c && c != '\n' && c != '\r'

/-- A text whose lines all end in a line feed alone. -/
def unifyLines : List Char → List Char
  | '\r' :: '\n' :: cs => '\n' :: unifyLines cs
  | '\r' :: cs => '\n' :: unifyLines cs
  | c :: cs => c :: unifyLines cs
  | [] => []

/-! Each of the following gives a part of a line and the text after it, or the text at which the line turns out
malformed. -/

/-- The text after the word `export` and blanks, if it starts so. -/
def afterExport (cs : List Char) : List Char :=
  match cs with
  | 'e' :: 'x' :: 'p' :: 'o' :: 'r' :: 't' :: c :: rest => if isInline c then rest.dropWhile isInline else cs
  | _ => cs

/-- A name, between apostrophes or not; a comment has none. -/
def name (cs : List Char) : Except (List Char) (Option (List Char) × List Char) :=
  match cs with
  | '#' :: _ => .ok (none, cs)
  | '\'' :: rest =>
    match Text.cut? '\'' rest with
    | some (c :: name, after) => .ok (some (c :: name), after)
    | _ => .error cs
  | _ =>
    let isNameChar (c : Char) : Bool := c != '=' && c != '#' && !Text.isBlank c
    let name := cs.takeWhile isNameChar
    if name.isEmpty then .error cs else .ok (some name, cs.dropWhile isNameChar)

/-- The text up to the first quote that does not follow a backslash, and the text after it. -/
def closing? (quote : Char) : (escaped : Bool) → List Char → Option (List Char × List Char)
  | _, [] => none
  | escaped, c :: cs =>
    if c = quote ∧ !escaped then some ([], cs)
    else (closing? quote (c == '\\') cs).map fun (content, rest) => (c :: content, rest)

def lastQuote? (quote : Char) : List Char → Option (List Char × List Char)
  | [] => none
  | c :: cs =>
    match lastQuote? quote cs with
    | some (content, rest) => some (c :: content, rest)
    | none => if c = quote then some ([], cs) else none

/-- The characters that letters after a backslash stand for between double quotes. -/
def doubleEscapes : List (Char × Char) :=
  [('\\', '\\'), ('\'', '\''), ('"', '"'), ('a', '\x07'), ('b', '\x08'), ('f', '\x0c'), ('n', '\n'), ('r', '\r'),
    ('t', '\t'), ('v', '\x0b')]

/-- The characters that may follow a backslash between apostrophes. -/
def singleEscapes : List (Char × Char) := [('\\', '\\'), ('\'', '\'')]

/-- The text with its escapes replaced; a backslash before any other character stands for itself. -/
def unescape (escapes : List (Char × Char)) : List Char → List Char
  | '\\' :: c :: cs =>
    match escapes.lookup c with
    | some d => d :: unescape escapes cs
    | none => '\\' :: unescape escapes (c :: cs)
  | c :: cs => c :: unescape escapes cs
  | [] => []

/-- A value between quotes; `cs` starts behind the opening one. -/
def quotedValue (quote : Char) (escapes : List (Char × Char)) (cs : List Char) :
    Except (List Char) (List Char × List Char) :=
  match (closing? quote false cs).orElse fun _ => lastQuote? quote cs with
  | some (content, rest) => .ok (unescape escapes content, rest)
  | none => .error (quote :: cs)

/-- The text before the first comment, which needs a blank in front. -/
def beforeComment (cs : List Char) : List Char :=
  match cs with
  | [] => []
  | c :: rest =>
    if Text.isBlank c && ((c :: rest).dropWhile Text.isBlank).head? == some '#' then [] else c :: beforeComment rest

def value (cs : List Char) : Except (List Char) (List Char × List Char) :=
  match cs with
  | '\'' :: rest => quotedValue '\'' singleEscapes rest
  | '"' :: rest => quotedValue '"' doubleEscapes rest
  | _ => .ok (Text.trimRight Text.isBlank (beforeComment (Text.before '\n' cs)), cs.dropWhile (· != '\n'))

/-- A value after an equals sign; a name without one has no value. -/
def optionalValue (cs : List Char) : Except (List Char) (Option (List Char) × List Char) :=
  match cs with
  | '=' :: rest => do
    let (v, rest) ← value (rest.dropWhile isInline)
    return (some v, rest)
  | _ => .ok (none, cs)

def afterComment (cs : List Char) : List Char :=
  match cs.dropWhile isInline with
  | '#' :: rest => rest.dropWhile (· != '\n')
  | _ => cs

def afterLine (cs : List Char) : Except (List Char) (List Char) :=
  match cs.dropWhile isInline with
  | [] => .ok []
  | '\n' :: rest => .ok rest
  | _ => .error cs

def binding (cs : List Char) : Except (List Char) ((Option (List Char) × Option (List Char)) × List Char) := do
  let (name, rest) ← name (afterExport cs)
  let (value, rest) ← optionalValue (rest.dropWhile isInline)
  let rest ← afterLine (afterComment rest)
  return ((name, value), rest)

/-- The bindings of a text; each step reads at least one character. -/
def bindingsFrom : (fuel : Nat) → List Char → List (List Char × Option (List Char))
  | 0, _ => []
  | fuel + 1, cs =>
    match cs.dropWhile Text.isBlank with
    | [] => []
    | cs =>
      match binding cs with
      | .ok ((some name, value), rest) => (name, value) :: bindingsFrom fuel rest
      | .ok ((none, _), rest) => bindingsFrom fuel rest
      | .error rest => bindingsFrom fuel (rest.dropWhile (· != '\n')).tail

def bindings (cs : List Char) : List (List Char × Option (List Char)) :=
  bindingsFrom (cs.length + 1) (unifyLines cs)

/-- A reference to a variable behind `${`: its name, its default, and the text after it. -/
def reference? (cs : List Char) : Option (List Char × List Char × List Char) :=
  let isNameChar (c : Char) : Bool := c != '\x7d' && c != ':'
  let name := cs.takeWhile isNameChar
  match cs.dropWhile isNameChar with
  | '\x7d' :: rest => some (name, [], rest)
  | ':' :: '-' :: rest => (Text.cut? '\x7d' rest).map fun (default, rest) => (name, default, rest)
  | _ => none

/-- A value with its references replaced; each step reads at least one character. -/
def expand (lookup : List Char → Option (List Char)) : (fuel : Nat) → List Char → List Char
  | 0, _ => []
  | _ + 1, [] => []
  | fuel + 1, '$' :: '\x7b' :: cs =>
    match reference? cs with
    | some (name, default, rest) => (lookup name).getD default ++ expand lookup fuel rest
    | none => '$' :: expand lookup fuel ('\x7b' :: cs)
  | fuel + 1, c :: cs => c :: expand lookup fuel cs

/-- Sets the value of a name; a new name comes last. -/
def put {α : Type} (name : List Char) (value : α) : List (List Char × α) → List (List Char × α)
  | [] => [(name, value)]
  | (k, w) :: rest => if k = name then (k, value) :: rest else (k, w) :: put name value rest

/-- The value of a variable: that of the file so far, where a missing value counts as empty, else that of the
environment. -/
def lookup (environment : List (List Char × List Char)) (seen : List (List Char × Option (List Char)))
    (name : List Char) : Option (List Char) :=
  match seen.lookup name with
  | some value => some (value.getD [])
  | none => environment.lookup name

/-- The variables of a text, with the values that later lines give them. -/
def read (environment : List (List Char × List Char)) (cs : List Char) : List (List Char × Option (List Char)) :=
  (bindings cs).foldl (fun seen (name, value) =>
    put name (value.map fun v => expand (lookup environment seen) (v.length + 1) v) seen) []

end Airdrop.EnvFile
