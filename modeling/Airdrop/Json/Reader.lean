import Airdrop.Bytes.Hex
import Airdrop.Text.Digit
import Airdrop.Number.Radix
import Airdrop.Value

/-!
# Reading JSON

`Json.read` reads a whole text as one value. An object keeps its fields in the order of their first appearance; of two
fields with one name the later value counts. Besides the values of the standard, the names `NaN`, `Infinity` and
`-Infinity` are numbers. A text nested deeper than a limit is refused, and so is an integer of more than
`Radix.maxDigits` digits. A lone half of a surrogate pair may be escaped in a string unless the reading is strict, and
never in the name of a field.

The functions take the characters that are left and give back what they leave. `fuel` bounds the depth of calls; two
for each character are enough.
-/

namespace Airdrop.Json

inductive ReadFault where
  | malformed
  | tooDeep
  | tooLong (digits : Nat)
  deriving DecidableEq

def skipBlanks (cs : List Char) : List Char :=
  cs.dropWhile fun c => c == ' ' || c == '\n' || c == '\t' || c == '\r'

/-- The number that four hexadecimal digits write. -/
def unit? (a b c d : Char) : Option Nat := do
  let a ← Hex.digit? a
  let b ← Hex.digit? b
  let c ← Hex.digit? c
  let d ← Hex.digit? d
  return ((a * 16 + b) * 16 + c) * 16 + d

/-- The character after a backslash. -/
def escape? : Char → Option Char
  | '"' => some '"'
  | '\\' => some '\\'
  | '/' => some '/'
  | 'b' => some '\x08'
  | 'f' => some '\x0c'
  | 'n' => some '\n'
  | 'r' => some '\r'
  | 't' => some '\t'
  | _ => none

/-- The code point of a unit. -/
def codeOfUnit (n : Nat) : CodePoint := if n < 0xD800 ∨ 0xE000 ≤ n then .char (Char.ofNat n) else .ofHalf n

/-- Puts a code point in front of others. Two halves that belong together become one character. -/
def cons : CodePoint → List CodePoint → List CodePoint
  | .half high, .half low :: codes =>
    if high.val < 1024 ∧ 1024 ≤ low.val then .char (Char.ofNat (0x10000 + high.val * 1024 + (low.val - 1024))) :: codes
    else .half high :: .half low :: codes
  | c, codes => c :: codes

def prepend (c : CodePoint) (r : Option (List CodePoint × List Char)) : Option (List CodePoint × List Char) :=
  r.map fun (codes, rest) => (cons c codes, rest)

/-- The text of a string up to its closing quote. -/
def stringBody : List Char → Option (List CodePoint × List Char)
  | [] => none
  | '"' :: rest => some ([], rest)
  | '\\' :: 'u' :: a :: b :: c :: d :: rest =>
    match unit? a b c d with
    | some n => prepend (codeOfUnit n) (stringBody rest)
    | none => none
  | '\\' :: c :: rest =>
    match escape? c with
    | some e => prepend (.char e) (stringBody rest)
    | none => none
  | c :: rest => if c.toNat < 0x20 ∨ c = '\\' then none else prepend (.char c) (stringBody rest)

def digits (cs : List Char) : List Nat × List Char :=
  ((cs.takeWhile Text.isAsciiDigit).map fun c => c.toNat - 48, cs.dropWhile Text.isAsciiDigit)

def fraction (cs : List Char) : List Nat × List Char :=
  match cs with
  | '.' :: rest =>
    match digits rest with
    | ([], _) => ([], cs)
    | (ds, rest) => (ds, rest)
  | _ => ([], cs)

def exponent (cs : List Char) : Option Int × List Char :=
  match cs with
  | e :: rest =>
    if e = 'e' ∨ e = 'E' then
      let (negative, after) := match rest with
        | '-' :: r => (true, r)
        | '+' :: r => (false, r)
        | r => (false, r)
      match digits after with
      | ([], _) => (none, cs)
      | (ds, rest) =>
        let n : Int := Radix.value 10 ds
        (some (if negative then -n else n), rest)
    else (none, cs)
  | [] => (none, [])

/-- A number without its sign. A leading zero stands alone; a fraction or an exponent makes it floating-point. -/
def number (negative : Bool) (cs : List Char) : Except ReadFault (Value × List Char) :=
  match digits cs with
  | ([], _) => .error .malformed
  | (whole, rest) =>
    if whole.length > 1 ∧ whole.head? = some 0 then .error .malformed
    else
      let (part, rest) := fraction rest
      let (power, rest) := exponent rest
      if part.isEmpty && power.isNone then
        if Radix.maxDigits < whole.length then .error (.tooLong whole.length)
        else
          let n : Int := Radix.value 10 whole
          .ok (.int (if negative then -n else n), rest)
      else
        let e := power.getD 0 - (part.length : Int)
        .ok (.float (Binary64.ofDecimal negative (Radix.value 10 (whole ++ part)) e), rest)

def after? : (word : List Char) → List Char → Option (List Char)
  | [], cs => some cs
  | _ :: _, [] => none
  | w :: ws, c :: cs => if w = c then after? ws cs else none

/-- A value that a word stands for. -/
def named (word : String) (v : Value) (cs : List Char) : Except ReadFault (Value × List Char) :=
  match after? word.toList cs with
  | some rest => .ok (v, rest)
  | none => .error .malformed

/-- A string after its opening quote. -/
def string (strict : Bool) (cs : List Char) : Except ReadFault (Value × List Char) :=
  match stringBody cs with
  | none => .error .malformed
  | some (codes, rest) =>
    match RawText.ofCodes codes with
    | .whole s => .ok (.text s, rest)
    | .torn t => if strict then .error .malformed else .ok (.torn t, rest)

/-- A value that is neither a list nor an object. -/
def scalar (strict : Bool) : List Char → Except ReadFault (Value × List Char)
  | '"' :: rest => string strict rest
  | 'n' :: rest => named "ull" .null rest
  | 't' :: rest => named "rue" (.bool true) rest
  | 'f' :: rest => named "alse" (.bool false) rest
  | 'N' :: rest => named "aN" (.float Binary64.nan) rest
  | 'I' :: rest => named "nfinity" (.float (Binary64.infinity false)) rest
  | '-' :: 'I' :: rest => named "nfinity" (.float (Binary64.infinity true)) rest
  | '-' :: rest => number true rest
  | cs => number false cs

/-- The name of a field after its opening quote. -/
def fieldName (cs : List Char) : Except ReadFault (String × List Char) :=
  match stringBody cs with
  | none => .error .malformed
  | some (codes, rest) =>
    match RawText.ofCodes codes with
    | .whole s => .ok (s, rest)
    | .torn _ => .error .malformed

mutual

/-- A value after blanks, with `depth` levels of nesting left. -/
def value (strict : Bool) : (fuel depth : Nat) → List Char → Except ReadFault (Value × List Char)
  | 0, _, _ => .error .malformed
  | fuel + 1, depth, cs =>
    match skipBlanks cs with
    | '[' :: rest =>
      match depth with
      | 0 => .error .tooDeep
      | depth + 1 =>
        match skipBlanks rest with
        | ']' :: rest => .ok (.list [], rest)
        | rest => (elements strict fuel depth rest).map fun (vs, rest) => (.list vs, rest)
    | '\x7b' :: rest =>
      match depth with
      | 0 => .error .tooDeep
      | depth + 1 =>
        match skipBlanks rest with
        | '\x7d' :: rest => .ok (.object [], rest)
        | rest => (members strict fuel depth [] rest).map fun (fs, rest) => (.object fs, rest)
    | rest => scalar strict rest

/-- The values of a list up to its closing bracket. -/
def elements (strict : Bool) : (fuel depth : Nat) → List Char → Except ReadFault (List Value × List Char)
  | 0, _, _ => .error .malformed
  | fuel + 1, depth, cs => do
    let (v, rest) ← value strict fuel depth cs
    match skipBlanks rest with
    | ']' :: rest => .ok ([v], rest)
    | ',' :: rest =>
      let (vs, rest) ← elements strict fuel depth rest
      .ok (v :: vs, rest)
    | _ => .error .malformed

/-- The fields of an object up to its closing brace, after those already read. -/
def members (strict : Bool) : (fuel depth : Nat) → List (String × Value) → List Char →
    Except ReadFault (List (String × Value) × List Char)
  | 0, _, _, _ => .error .malformed
  | fuel + 1, depth, fields, cs =>
    match skipBlanks cs with
    | '"' :: rest => do
      let (name, rest) ← fieldName rest
      match skipBlanks rest with
      | ':' :: rest =>
        let (v, rest) ← value strict fuel depth rest
        let fields := Value.setField name v fields
        match skipBlanks rest with
        | '\x7d' :: rest => .ok (fields, rest)
        | ',' :: rest => members strict fuel depth fields rest
        | _ => .error .malformed
      | _ => .error .malformed
    | _ => .error .malformed

end

/-- The value of a whole text, nested at most `limit` levels deep. -/
def read (strict : Bool) (limit : Nat) (cs : List Char) : Except ReadFault Value :=
  match value strict (2 * cs.length + 2) limit cs with
  | .error fault => .error fault
  | .ok (v, rest) => if (skipBlanks rest).isEmpty then .ok v else .error .malformed

end Airdrop.Json
