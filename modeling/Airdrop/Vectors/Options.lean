import Airdrop.Text.Digit
import Airdrop.Text.Split

/-!
# Options of the vector generator

Every option is a long one and takes a value; it may be shortened as long as no other option begins so. A value is the
rest of the word after `=` or the next word, which must not look like an option itself. Numbers below zero and words
with a space in them do not, unless an option begins so.

* `Options.read` : the options of a line, help, or a refusal.
-/

namespace Airdrop.Vectors

/-- What vectors are made of, and where they go. -/
structure Options where
  sizes : String := "1,2,3,4,5,7,8"
  algorithm : String := "sha256"
  leafTag : String := ""
  nodeTag : String := ""
  out : String := "-"
  deriving DecidableEq

namespace Options

/-- The options, each with a value. -/
inductive Name where
  | sizes
  | algorithm
  | leafTag
  | nodeTag
  | out
  deriving DecidableEq

/-- What begins with two hyphens; nothing stands for help. -/
def longNames : List (String × Option Name) :=
  [("--help", none), ("--sizes", some .sizes), ("--algo", some .algorithm), ("--leaf-prefix", some .leafTag),
    ("--node-prefix", some .nodeTag), ("--out", some .out)]

inductive Word where
  | option (name : Name) (value : Option String)
  | help
  | helpWithValue
  | unknown
  | other (s : String)

/-- The letters after `-h` in one word: help is asked for again and again until an unknown letter ends it. -/
def moreHelp : List Char → Bool
  | [] => true
  | '-' :: _ => false
  | 'h' :: '=' :: _ => false
  | 'h' :: cs => moreHelp cs
  | _ => true

/-- The option that a word with two hyphens means, or nothing if several begin so. -/
def longOption? (stem : List Char) (value : Option String) : Option Word :=
  match longNames.filter fun (name, _) => stem.isPrefixOf name.toList with
  | [] => some .unknown
  | [(_, some name)] => some (.option name value)
  | [(_, none)] => some (if value.isNone then .help else .helpWithValue)
  | _ => none

def isNegative (cs : List Char) : Bool :=
  match cs with
  | '-' :: cs =>
    match cs.span (· != '.') with
    | (whole, []) => !whole.isEmpty && whole.all (Text.digit? · |>.isSome)
    | (whole, _ :: part) =>
      whole.all (Text.digit? · |>.isSome) && !part.isEmpty && part.all (Text.digit? · |>.isSome)
  | _ => false

def shortOption (cs : List Char) : Word :=
  match cs with
  | '-' :: 'h' :: '=' :: _ => .helpWithValue
  | '-' :: 'h' :: more => if moreHelp more then .help else .helpWithValue
  | _ => .unknown

def unlessPlain (s : String) (w : Word) : Word :=
  match w with
  | .unknown => if isNegative s.toList || s.toList.contains ' ' then .other s else .unknown
  | w => w

/-- What a word means; nothing if that is ambiguous. -/
def classify (s : String) : Option Word :=
  match s.toList with
  | '-' :: '-' :: cs =>
    match Text.cut? '=' cs with
    | none => (longOption? s.toList none).map (unlessPlain s)
    | some (stem, value) => (longOption? ('-' :: '-' :: stem) (some (String.ofList value))).map (unlessPlain s)
  | '-' :: c :: cs => some (unlessPlain s (shortOption ('-' :: c :: cs)))
  | _ => some (.other s)

def set (o : Options) (value : String) : Name → Options
  | .sizes => { o with sizes := value }
  | .algorithm => { o with algorithm := value }
  | .leafTag => { o with leafTag := value }
  | .nodeTag => { o with nodeTag := value }
  | .out => { o with out := value }

inductive Request where
  | help
  | misuse
  | options (o : Options)
  deriving DecidableEq

/-- What words ask for, after others that gave options; superfluous words are refused at the end. -/
def collect (superfluous : Bool) (o : Options) : List Word → Request
  | [] => if superfluous then .misuse else .options o
  | .help :: _ => .help
  | .option name (some value) :: rest => collect superfluous (o.set value name) rest
  | .option name none :: .other value :: rest => collect superfluous (o.set value name) rest
  | .option _ none :: _ | .helpWithValue :: _ => .misuse
  | .unknown :: rest | .other _ :: rest => collect true o rest

/-- What the words of a line ask for. After `--` no options follow, and there is nothing else that may. -/
def read (words : List String) : Request :=
  let (front, back) := words.span (· ≠ "--")
  match front.mapM classify with
  | none => .misuse
  | some front => collect false {} (front ++ back.map fun _ => .unknown)

end Options
end Airdrop.Vectors
