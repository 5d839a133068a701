import Airdrop.Number.Binary64
import Airdrop.Number.Radix
import Airdrop.Text.CodePoint

/-!
# Values

`Value` is what a document or a caller hands over before it is checked: the values of JSON, with integers apart from
floating-point numbers and torn texts apart from strings, and byte strings besides. An object keeps the order of its
fields.

* `Value.isWritable` : no integer in a value is too long to be written.
* `Value.isWhole` : no text in a value is torn.
-/

namespace Airdrop

/-- An unchecked value. -/
inductive Value where
  | null
  | bool (b : Bool)
  | int (n : Int)
  | float (x : Binary64)
  | text (s : String)
  | torn (t : TornText)
  | bytes (bs : Bytes)
  | list (items : List Value)
  | object (fields : List (String × Value))
  deriving Inhabited

namespace Value

def typeName : Value → String
  | null => "NoneType"
  | bool _ => "bool"
  | int _ => "int"
  | float _ => "float"
  | text _ | torn _ => "str"
  | bytes _ => "bytes"
  | list _ => "list"
  | object _ => "dict"

def lookup (name : String) (fields : List (String × Value)) : Option Value :=
  (fields.find? (·.1 == name)).map (·.2)

/-- The fields with one of them set; a new field comes last. -/
def setField (name : String) (v : Value) : List (String × Value) → List (String × Value)
  | [] => [(name, v)]
  | (k, w) :: rest => if k = name then (k, v) :: rest else (k, w) :: setField name v rest

def dropField (name : String) (fields : List (String × Value)) : List (String × Value) :=
  fields.filter (·.1 != name)

/-- The integer of an integer or a truth value. -/
def asInt? : Value → Option Int
  | int n => some n
  | bool b => some (if b then 1 else 0)
  | _ => none

/-- A value counts as true unless it is null, false, zero or empty. -/
def truthy : Value → Bool
  | null => false
  | bool b => b
  | int n => n != 0
  | float x => !x.isZero
  | text s => !s.isEmpty
  | torn _ => true
  | bytes bs => !bs.isEmpty
  | list items => !items.isEmpty
  | object fields => !fields.isEmpty

/-- A value that may be absent; null stands for its absence. -/
def ofOption {α : Type} (f : α → Value) : Option α → Value
  | some a => f a
  | none => null

mutual

/-- A condition holds of all that a value is made of: of the value itself or of the members of a list or an object. -/
def all (p : Value → Bool) : Value → Bool
  | list items => allItems p items
  | object fields => allFields p fields
  | v => p v

def allItems (p : Value → Bool) : List Value → Bool
  | [] => true
  | v :: items => all p v && allItems p items

def allFields (p : Value → Bool) : List (String × Value) → Bool
  | [] => true
  | (_, v) :: fields => all p v && allFields p fields

end

/-- No integer in the value is too long to be written. -/
def isWritable (v : Value) : Bool :=
  v.all fun
    | int n => !Radix.isLong n
    | _ => true

/-- No text in the value is torn. -/
def isWhole (v : Value) : Bool :=
  v.all fun
    | torn _ => false
    | _ => true

end Value

def RawText.toValue : RawText → Value
  | whole s => .text s
  | torn t => .torn t

end Airdrop
