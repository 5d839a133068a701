import Airdrop.Number.Radix
import Airdrop.Text.Blank
import Airdrop.Text.Digit

/-!
# Integers in texts

* `Numeral.grouped?` : digits, with single underscores between them allowed.
* `Numeral.read` : an integer as options, headers and links give it: blanks around it, a sign, digits of any script.
* `Numeral.lax` : an integer as documents may quote it: digits of ASCII only, but a fraction of zeros is allowed.

Neither reads an integer of more than `Radix.maxDigits` digits. `Numeral.read` counts the digits as they stand, zeros in
front included; `Numeral.lax` counts those of the integer.
-/

namespace Airdrop.Numeral

/-- The number that further digits make of a number. -/
def more? (digit? : Char → Option Nat) : Nat → List Char → Option Nat
  | n, [] => some n
  | n, '_' :: c :: rest => (digit? c).bind fun d => more? digit? (10 * n + d) rest
  | n, c :: rest => (digit? c).bind fun d => more? digit? (10 * n + d) rest

/-- The number that digits write; single underscores may stand between them. -/
def grouped? (digit? : Char → Option Nat) : List Char → Option Nat
  | [] => none
  | c :: rest => (digit? c).bind fun d => more? digit? d rest

/-- An integer with at most one sign in front of a number. -/
def signed? (number? : List Char → Option Nat) : List Char → Option Int
  | '-' :: cs => (number? cs).map fun n => -(n : Int)
  | '+' :: cs => (number? cs).map fun n => (n : Int)
  | cs => (number? cs).map fun n => (n : Int)

/-- The blanks around an integer: those of ASCII and all white space beyond ASCII. -/
def isMargin (c : Char) : Bool := Text.isAsciiBlank c || (128 ≤ c.toNat && Text.isWhite c)

inductive Fault where
  | malformed
  | tooLong (digits : Nat)
  deriving DecidableEq

def unsigned : List Char → List Char
  | '-' :: cs => cs
  | '+' :: cs => cs
  | cs => cs

/-- The number of digits at the front of a text, if the underscores between them stand where they may. -/
def frontDigits (cs : List Char) : Nat :=
  let run := cs.takeWhile fun c => (Text.digit? c).isSome || c == '_'
  if (grouped? Text.digit? run).isSome then (run.filter (· != '_')).length else 0

/-- An integer with blanks around it. Too many digits are noticed before anything that may follow them. -/
def read (cs : List Char) : Except Fault Int :=
  let cs := Text.trim isMargin cs
  let digits := frontDigits (unsigned cs)
  if Radix.maxDigits < digits then .error (.tooLong digits)
  else match signed? (grouped? Text.digit?) cs with
    | some n => .ok n
    | none => .error .malformed

/-- Underscores and zeros after a first zero are skipped together, but the last of them must be a zero. -/
def laxWhole? (cs : List Char) : Option Nat :=
  match cs with
  | '0' :: rest =>
    match rest.dropWhile fun c => c == '0' || c == '_' with
    | [] => if cs.getLast? = some '0' then some 0 else none
    | rest => grouped? Text.asciiDigit? rest
  | _ => grouped? Text.asciiDigit? cs

/-- A whole number, perhaps with a fraction of zeros. -/
def laxNumber? (cs : List Char) : Option Nat :=
  match cs.span (· != '.') with
  | (whole, []) => laxWhole? whole
  | (whole, _ :: zeros) => if !zeros.isEmpty && zeros.all (· == '0') then laxWhole? whole else none

/-- An integer quoted in a document. -/
def lax (cs : List Char) : Except Fault Int :=
  match signed? laxNumber? (Text.trim Text.isWhite cs) with
  | some n => if Radix.isLong n then .error (.tooLong (Radix.decimal n.natAbs).length) else .ok n
  | none => .error .malformed

end Airdrop.Numeral
