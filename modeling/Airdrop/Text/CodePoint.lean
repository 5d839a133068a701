import Airdrop.Text.Quoted

/-!
# Texts that may be torn

A text that comes from outside is a list of code points, and some of these may be halves of surrogate pairs that stand
alone. Such a text is torn: no string holds it, and it has no UTF-8 form.

* `RawText` : a string or a torn text. `RawText.codes` and `RawText.ofCodes` lead to its code points and back.
-/

namespace Airdrop

/-- A character, or one half of a surrogate pair. -/
inductive CodePoint where
  | char (c : Char)
  | half (n : Fin 2048)
  deriving DecidableEq

namespace CodePoint

def isHalf : CodePoint → Bool
  | char _ => false
  | half _ => true

def char? : CodePoint → Option Char
  | char c => some c
  | half _ => none

def toNat : CodePoint → Nat
  | char c => c.toNat
  | half n => 0xD800 + n.val

def ofHalf (n : Nat) : CodePoint := half (Fin.ofNat 2048 (n - 0xD800))

/-- A half as an escape. -/
def escape (n : Fin 2048) : List Char := '\\' :: 'u' :: Text.hexDigits 4 (0xD800 + n.val)

def display : CodePoint → List Char
  | char c => [c]
  | half n => escape n

end CodePoint

/-- Code points with a half among them. -/
structure TornText where
  codes : List CodePoint
  torn : codes.any CodePoint.isHalf = true
  deriving DecidableEq

/-- A text from outside. -/
inductive RawText where
  | whole (s : String)
  | torn (t : TornText)
  deriving DecidableEq

instance : Coe String RawText := ⟨.whole⟩

namespace RawText

def codes : RawText → List CodePoint
  | whole s => s.toList.map .char
  | torn t => t.codes

def ofCodes (cs : List CodePoint) : RawText :=
  if h : cs.any CodePoint.isHalf = true then torn ⟨cs, h⟩ else whole (String.ofList (cs.filterMap CodePoint.char?))

def isWhole : RawText → Bool
  | whole _ => true
  | torn _ => false

def isEmpty : RawText → Bool
  | whole s => s.isEmpty
  | torn _ => false

@[simp] theorem codes_whole (s : String) : (whole s).codes = s.toList.map .char := rfl

@[simp] theorem ofCodes_char (cs : List Char) : ofCodes (cs.map .char) = whole (String.ofList cs) := by
  have hchars : (cs.map CodePoint.char).filterMap CodePoint.char? = cs := by
    rw [List.filterMap_map, show CodePoint.char? ∘ CodePoint.char = some from rfl, List.filterMap_some]
  simp [ofCodes, CodePoint.isHalf, hchars]

end RawText

namespace Text

def quotedCode (quote : Char) : CodePoint → List Char
  | .char c => quotedChar quote c
  | .half n => CodePoint.escape n

def quotedCodes (cs : List CodePoint) : List Char :=
  let quote := quoteFor (cs.filterMap CodePoint.char?)
  quote :: cs.flatMap (quotedCode quote) ++ [quote]

end Text
end Airdrop
