import Airdrop.Number.Radix
import Airdrop.Value

/-!
# Refusals of documents

A form that does not accept its document gives a `Refusal`: the form's title and one `Issue` for each fault found, in
the order of the form's fields. An issue names the path to the fault; `Fault.code` and `Fault.message` are its short
and its long text.

* `Refusal.text`, `Refusal.headline` : what is wrong and how much is wrong, in one line each.
-/

namespace Airdrop

/-- One step of a path into a document. -/
inductive Step where
  | field (name : String)
  | item (position : Nat)
  deriving DecidableEq

/-- What is wrong with a value. The flag of the last three tells whether the value was read from a document's text. -/
inductive Fault where
  | malformedText
  | missing
  | extra
  | notText
  | badUnicode
  | notInteger
  | badInteger
  | fractional
  | integerTooLarge
  | notFinite
  | below (least : Nat)
  | notBelow (bound : Nat)
  | rejected (reason : String)
  | notAttributes
  | notList (fromText : Bool)
  | notObject (fromText : Bool)
  | notForm (fromText : Bool) (title : String)
  deriving DecidableEq

def Fault.code : Fault → String
  | malformedText => "json_invalid"
  | missing => "missing"
  | extra => "extra_forbidden"
  | notText => "string_type"
  | badUnicode => "string_unicode"
  | notInteger => "int_type"
  | badInteger => "int_parsing"
  | fractional => "int_from_float"
  | integerTooLarge => "int_parsing_size"
  | notFinite => "finite_number"
  | below _ => "greater_than_equal"
  | notBelow _ => "less_than"
  | rejected _ => "value_error"
  | notAttributes => "model_attributes_type"
  | notList _ => "list_type"
  | notObject _ => "dict_type"
  | notForm _ _ => "model_type"

def Fault.message : Fault → String
  | malformedText => "Invalid JSON"
  | missing => "Field required"
  | extra => "Extra inputs are not permitted"
  | notText => "Input should be a valid string"
  | badUnicode => "Input should be a valid string, unable to parse raw data as a unicode string"
  | notInteger => "Input should be a valid integer"
  | badInteger => "Input should be a valid integer, unable to parse string as an integer"
  | fractional => "Input should be a valid integer, got a number with a fractional part"
  | integerTooLarge => "Unable to parse input string as an integer, exceeded maximum size"
  | notFinite => "Input should be a finite number"
  | below least => "Input should be greater than or equal to " ++ Radix.text least
  | notBelow bound => "Input should be less than " ++ Radix.text bound
  | rejected reason => "Value error, " ++ reason
  | notAttributes => "Input should be a valid dictionary or object to extract fields from"
  | notList fromText => if fromText then "Input should be a valid array" else "Input should be a valid list"
  | notObject fromText => if fromText then "Input should be an object" else "Input should be a valid dictionary"
  | notForm fromText title =>
    if fromText then "Input should be an object"
    else "Input should be a valid dictionary or instance of " ++ title

structure Issue where
  path : List Step
  fault : Fault
  deriving DecidableEq

def Step.toValue : Step → Value
  | field name => .text name
  | item position => .int position

/-- An issue as an object. A text that could not be read has neither path nor message. -/
def Issue.toValue (i : Issue) : Value :=
  if i.fault = .malformedText then .object [("type", .text i.fault.code)]
  else .object [("type", .text i.fault.code), ("loc", .list (i.path.map Step.toValue)), ("msg", .text i.fault.message)]

/-- A document that a form does not accept. -/
structure Refusal where
  title : String
  issues : List Issue
  deriving DecidableEq

def Refusal.malformed (title : String) : Refusal := ⟨title, [⟨[], .malformedText⟩]⟩

/-- The path of an issue: field names and positions with points between them. -/
def Issue.dottedPath (i : Issue) : String :=
  ".".intercalate (i.path.map fun
    | .field name => name
    | .item position => Radix.text position)

/-- What is wrong, in one line: the path and the short text of every issue. -/
def Refusal.text (r : Refusal) : String :=
  let issue (i : Issue) : String :=
    if i.fault = .malformedText then i.fault.code else i.dottedPath ++ "=" ++ i.fault.code
  "ValidationError(" ++ r.title ++ "): " ++ "; ".intercalate (r.issues.map issue)

def Refusal.headline (r : Refusal) : String :=
  Radix.text r.issues.length ++
    (if r.issues.length = 1 then " validation error for " else " validation errors for ") ++ r.title

end Airdrop
