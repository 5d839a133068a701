/-!
# Words of a command line

A `Grammar` tells which options a command has: some take a value, which is the rest of the word after `=` or the whole
next word; flags take none. The word `--` ends the options. `Grammar.read` sorts the words of a line, or refuses an
unknown option, a flag with a value and an option without one.
-/

namespace Airdrop.Console

/-- The options of a command. Without `interspersed` the first word that is no option ends them. -/
structure Grammar where
  valued : List String := []
  flags : List String := []
  interspersed : Bool := true

/-- The words of a line, sorted: options with their values, flags, and all others. -/
structure Line where
  values : List (String × String) := []
  flags : List String := []
  words : List String := []

namespace Line

/-- The value of an option; of several the last one counts. -/
def value? (l : Line) (name : String) : Option String := l.values.reverse.lookup name

/-- The last of the given flags that stands in the line. -/
def lastOf? (l : Line) (names : List String) : Option String := l.flags.reverse.find? (names.contains ·)

end Line

/-- A word is an option: it begins with a hyphen and has more than that. -/
def isOption (word : String) : Bool :=
  match word.toList with
  | '-' :: _ :: _ => true
  | _ => false

def nameAndValue (word : String) : String × Option String :=
  match word.toList.span (· != '=') with
  | (_, []) => (word, none)
  | (name, _ :: value) => (String.ofList name, some (String.ofList value))

def Grammar.read (g : Grammar) : List String → Option Line
  | [] => some {}
  | word :: rest =>
    if word = "--" then some { words := rest }
    else if isOption word then
      let (name, attached) := nameAndValue word
      if g.valued.contains name then
        match attached, rest with
        | some value, rest => (g.read rest).map fun l => { l with values := (name, value) :: l.values }
        | none, value :: rest => (g.read rest).map fun l => { l with values := (name, value) :: l.values }
        | none, [] => none
      else if g.flags.contains name && attached.isNone then
        (g.read rest).map fun l => { l with flags := name :: l.flags }
      else none
    else if g.interspersed then (g.read rest).map fun l => { l with words := word :: l.words }
    else some { words := word :: rest }

end Airdrop.Console
