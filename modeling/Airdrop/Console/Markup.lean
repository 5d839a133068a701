/-!
# Markup

Messages to a person may carry tags in square brackets, which begin with a small letter, `#`, `/` or `@`. A backslash
in front of a tag takes it for plain text.

* `Markup.escape` : a text that shows as it stands.
* `Markup.plain` : a text without its tags.
-/

namespace Airdrop.Markup

def startsTag (c : Char) : Bool := ('a' ≤ c && c ≤ 'z') || c == '#' || c == '/' || c == '@'

/-- A tag stands in front: the next bracket after its own closes it. -/
def atTag : List Char → Bool
  | '[' :: c :: cs => startsTag c && (cs.find? fun c => c == '[' || c == ']') == some ']'
  | _ => false

/-- Every tag gets a backslash, and the backslashes in front of it are doubled. -/
def escapeTags : List Char → List Char
  | [] => []
  | c :: cs =>
    if c = '\\' ∧ atTag (cs.dropWhile (· == '\\')) then '\\' :: '\\' :: escapeTags cs
    else if atTag (c :: cs) then '\\' :: c :: escapeTags cs
    else c :: escapeTags cs

/-- A text ends with exactly one backslash or an odd end of them: the last but one character is none. -/
def endsInBackslash (cs : List Char) : Bool :=
  match cs.reverse with
  | '\\' :: '\\' :: _ => false
  | '\\' :: _ => true
  | _ => false

/-- The text that shows as the given one, also in front of a tag. -/
def escape (s : String) : String :=
  let cs := escapeTags s.toList
  String.ofList (if endsInBackslash cs then cs ++ ['\\'] else cs)

def styled (style s : String) : String := "[" ++ style ++ "]" ++ s ++ "[/" ++ style ++ "]"

/-- What remains of a text after a number of backslashes, inside a tag or outside. -/
def plainFrom (inTag : Bool) (backslashes : Nat) : List Char → List Char
  | [] => List.replicate backslashes '\\'
  | c :: cs =>
    if inTag then plainFrom (c != ']') 0 cs
    else if c = '\\' then plainFrom false (backslashes + 1) cs
    else if atTag (c :: cs) then
      List.replicate (backslashes / 2) '\\' ++
        if backslashes % 2 = 1 then c :: plainFrom false 0 cs else plainFrom true 0 cs
    else List.replicate backslashes '\\' ++ c :: plainFrom false 0 cs

def plain (s : String) : String := String.ofList (plainFrom false 0 s.toList)

end Airdrop.Markup
