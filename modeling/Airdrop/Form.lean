import Airdrop.Json.Reader
import Airdrop.Number.Numeral
import Airdrop.Refusal
import Airdrop.Text.Utf8

/-!
# Forms

A `Form` turns an unchecked object into a typed one. It looks at every field even after a fault, so a refusal lists all
issues: those of the fields in the form's order, then the fields that the form does not know in the object's order.

* `Reading` : an accepted value or the issues found; its `seq` joins the issues of both sides.
* `Check` : how one value is read; `text`, `string`, `integer`, `optional`, `list`, ... are the checks of fields.
* `Form.read`, `Form.readText`, `Form.readRequest` : reading a value, a text or the body of a request.
-/

namespace Airdrop

abbrev Fields := List (String × Value)

/-- An accepted value, or all issues that were found. -/
inductive Reading (α : Type) where
  | accepted (a : α)
  | refused (issues : List Issue)

namespace Reading

/-- The issues of a reading. -/
def issues {α : Type} : Reading α → List Issue
  | accepted _ => []
  | refused is => is

/-- Applies a function that was read to an argument that was read. -/
def apply {α β : Type} (f : Reading (α → β)) (x : Reading α) : Reading β :=
  match f, x with
  | accepted f, accepted a => accepted (f a)
  | f, x => refused (f.issues ++ x.issues)

instance : Applicative Reading where
  pure := accepted
  seq f x := f.apply (x ())

def andThen {α β : Type} : Reading α → (α → Reading β) → Reading β
  | accepted a, f => f a
  | refused is, _ => refused is

/-- A single fault of the value itself. -/
def fault {α : Type} (f : Fault) : Reading α := refused [⟨[], f⟩]

/-- A reading of a part: its issues lie one step deeper. -/
def within {α : Type} (s : Step) : Reading α → Reading α
  | accepted a => accepted a
  | refused is => refused (is.map fun i => ⟨s :: i.path, i.fault⟩)

def outcome {α : Type} (title : String) : Reading α → Except Refusal α
  | accepted a => .ok a
  | refused is => .error ⟨title, is⟩

end Reading

/-- Where an object comes from: a caller, a text, or the body of a request. -/
inductive Source where
  | call
  | text
  | request
  deriving DecidableEq

abbrev Check (α : Type) := Source → Value → Reading α

namespace Check

/-- A text; a byte string counts as the text it encodes. -/
def text : Check RawText := fun _ v =>
  match v with
  | .text s => pure (.whole s)
  | .torn t => pure (.torn t)
  | .bytes bs =>
    match Utf8.text? bs with
    | some s => pure (.whole s)
    | none => .fault .badUnicode
  | _ => .fault .notText

/-- A text that is not torn. -/
def string : Check String := fun source v =>
  (text source v).andThen fun
    | .whole s => pure s
    | .torn _ => .fault .badUnicode

def integerOfText (cs : List Char) : Reading Int :=
  match Numeral.lax cs with
  | .ok n => pure n
  | .error .malformed => .fault .badInteger
  | .error (.tooLong _) => .fault .integerTooLarge

/-- A floating-point number that is an integer of 64 bits. -/
def integerOfFloat (x : Binary64) : Reading Int :=
  if !x.isFinite then .fault .notFinite
  else match x.toInt? with
    | none => .fault .fractional
    | some n => if -2 ^ 63 < n ∧ n < 2 ^ 63 then pure n else .fault .integerTooLarge

/-- An integer, or what stands for one: a truth value, a floating-point number or a text. -/
def integer : Check Int := fun _ v =>
  match v with
  | .int n => pure n
  | .bool b => pure (if b then 1 else 0)
  | .float x => integerOfFloat x
  | .text s => integerOfText s.toList
  | .torn _ => .fault .badUnicode
  | .bytes bs =>
    match Utf8.decode? bs with
    | some cs => integerOfText cs
    | none => .fault .badInteger
  | _ => .fault .notInteger

def atLeast (least : Nat) (c : Check Int) : Check Int := fun source v =>
  (c source v).andThen fun n => if n < least then .fault (.below least) else pure n

def lessThan (bound : Nat) (c : Check Int) : Check Int := fun source v =>
  (c source v).andThen fun n => if bound ≤ n then .fault (.notBelow bound) else pure n

/-- A value that satisfies a condition; the reason is told if it does not. -/
def satisfying {α : Type} (p : α → Bool) (reason : String) (c : Check α) : Check α := fun source v =>
  (c source v).andThen fun a => if p a then pure a else .fault (.rejected reason)

/-- A value that may be null. -/
def optional {α : Type} (c : Check α) : Check (Option α) := fun source v =>
  match v with
  | .null => pure none
  | v => some <$> c source v

def items {α : Type} (c : Check α) (source : Source) : (position : Nat) → List Value → Reading (List α)
  | _, [] => pure []
  | position, v :: vs =>
    List.cons <$> (c source v).within (.item position) <*> items c source (position + 1) vs

def list {α : Type} (c : Check α) : Check (List α) := fun source v =>
  match v with
  | .list vs => items c source 0 vs
  | _ => .fault (.notList (source = .text))

def object : Check Fields := fun source v =>
  match v with
  | .object fs => pure fs
  | _ => .fault (.notObject (source = .text))

def entries {α : Type} (c : Check α) (source : Source) : Fields → Reading (List (String × α))
  | [] => pure []
  | (k, v) :: fs => List.cons <$> (Prod.mk k <$> (c source v).within (.field k)) <*> entries c source fs

/-- An object whose fields are all of one type. -/
def fieldsOf {α : Type} (c : Check α) : Check (List (String × α)) := fun source v =>
  (object source v).andThen (entries c source)

end Check

/-- A form: its title and how the fields of an object are read. -/
structure Form (α : Type) where
  title : String
  fields : Source → Fields → Reading α

namespace Form

def required {α : Type} (name : String) (c : Check α) (source : Source) (fs : Fields) : Reading α :=
  (match Value.lookup name fs with
    | some v => c source v
    | none => .fault .missing).within (.field name)

def withDefault {α : Type} (name : String) (c : Check α) (default : α) (source : Source) (fs : Fields) : Reading α :=
  match Value.lookup name fs with
  | some v => (c source v).within (.field name)
  | none => pure default

/-- A reading that also refuses the fields that have none of the given names. -/
def only {α : Type} (names : List String) (fs : Fields) (r : Reading α) : Reading α :=
  match (fs.map (·.1)).filter fun name => !names.contains name with
  | [] => r
  | extra => .refused (r.issues ++ extra.map fun name => ⟨[.field name], .extra⟩)

def check {α : Type} (f : Form α) : Check α := fun source v =>
  match v with
  | .object fs => f.fields source fs
  | _ => .fault (if source = .request then .notAttributes else .notForm (source = .text) f.title)

def read {α : Type} (f : Form α) (fs : Fields) : Except Refusal α := (f.fields .call fs).outcome f.title

def depthLimit : Nat := 200

def readText {α : Type} (f : Form α) (cs : List Char) : Except Refusal α :=
  match Json.read true depthLimit cs with
  | .ok v => (f.check .text v).outcome f.title
  | .error _ => .error (.malformed f.title)

def readRequest {α : Type} (f : Form α) (v : Value) : Except Refusal α :=
  ((f.check .request v).within (.field "body")).outcome f.title

end Form
end Airdrop
