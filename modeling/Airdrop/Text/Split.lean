/-!
# Cutting texts

* `Text.cut?` : a text cut at the first occurrence of a character.
* `Text.split` : a text cut at all of them; `Text.join` puts the pieces together again.
-/

namespace Airdrop.Text

/-- The text before the first occurrence of a character and the text after it. -/
def cut? (separator : Char) : List Char → Option (List Char × List Char)
  | [] => none
  | c :: cs =>
    if c = separator then some ([], cs)
    else (cut? separator cs).map fun (before, after) => (c :: before, after)

/-- The text before the first occurrence of a character, or all of it. -/
def before (separator : Char) (cs : List Char) : List Char := cs.takeWhile (· != separator)

/-- The pieces between the occurrences of a character; there is one more of them than occurrences. -/
def split (separator : Char) : List Char → List (List Char)
  | [] => [[]]
  | c :: cs =>
    match split separator cs with
    | [] => [[c]]
    | piece :: pieces => if c = separator then [] :: piece :: pieces else (c :: piece) :: pieces

def join {α : Type} (separator : List α) : List (List α) → List α
  | [] => []
  | [piece] => piece
  | piece :: next :: rest => piece ++ separator ++ join separator (next :: rest)

end Airdrop.Text
