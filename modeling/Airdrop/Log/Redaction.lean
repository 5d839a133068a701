import Airdrop.Log.Message
import Airdrop.Text.Blank
import Airdrop.Text.Word

/-!
# Redaction

Secrets are replaced in messages before they are written. Two kinds of passages are looked for, from left to right and
without overlap, first credentials and then secret parameters:

* the word `Authorization`, perhaps a colon, blanks, perhaps the name of a scheme with more blanks, and a run of other
  characters: all after the word and its colon becomes one space and `***` (`credentials?`);
* one of the words `pin`, `secret`, `token`, `password` and `key` that starts a word, `=`, and a run without blanks, `&`
  and `,`: the run becomes `***` (`parameter?`).

Case does not matter.
-/

namespace Airdrop.Redaction

/-- What a secret is replaced with. -/
def mask : List Char := "***".toList

/-- The lower-case letter that a character stands for, if it is a letter of ASCII or has one as its case variant. -/
def fold (c : Char) : Char :=
  if 'A' ≤ c ∧ c ≤ 'Z' then Char.ofNat (c.toNat + 32)
  else if c = '\u017f' then 's'
  else if c = '\u212a' then 'k'
  else if c = '\u0130' ∨ c = '\u0131' then 'i'
  else c

def after? : (word : List Char) → List Char → Option (List Char)
  | [], cs => some cs
  | _ :: _, [] => none
  | w :: ws, c :: cs => if fold c = w then after? ws cs else none

def isGap (c : Char) : Bool := Text.isBlank c

/-- The text after one or more blanks, if it does not end there. -/
def afterGap? (cs : List Char) : Option (List Char) :=
  match cs.head?, cs.dropWhile isGap with
  | some c, d :: rest => if isGap c then some (d :: rest) else none
  | _, _ => none

/-- The text after a run of characters that are not blank. -/
def afterToken (cs : List Char) : List Char := cs.dropWhile fun c => !isGap c

/-- The text after the name of a scheme and the blanks that separate it from a token. -/
def afterScheme? (cs : List Char) : Option (List Char) :=
  ((after? "bearer".toList cs).orElse fun _ => after? "basic".toList cs).bind afterGap?

/-- The text after the word that announces credentials and its colon. -/
def afterAnnouncement? (cs : List Char) : Option (List Char) :=
  (after? "authorization".toList cs).map fun rest =>
    match rest with
    | ':' :: rest => rest
    | rest => rest

/-- A passage at the front of a text: what it becomes, and how many characters it has. -/
abbrev Passage := List Char × Nat

def passage (cs kept rest : List Char) : Passage := (kept ++ mask, cs.length - rest.length)

def credentials? (cs : List Char) : Option Passage := do
  let announced ← afterAnnouncement? cs
  let rest ← afterGap? announced
  return passage cs (cs.take (cs.length - announced.length) ++ [' ']) (afterToken ((afterScheme? rest).getD rest))

def secretNames : List String := ["pin", "secret", "token", "password", "key"]

def isValueChar (c : Char) : Bool := !Text.isBlank c && c != '&' && c != ','

/-- The text after the name of a secret parameter and its equals sign. -/
def afterSecretName? (cs : List Char) : Option (List Char) :=
  secretNames.findSome? fun name =>
    match after? name.toList cs with
    | some ('=' :: rest) => some rest
    | _ => none

/-- A secret parameter at the front of a text, unless the character before continues into its name. -/
def parameter? (previous : Option Char) (cs : List Char) : Option Passage :=
  if previous.any Text.isWord then none
  else match afterSecretName? cs with
    | none => none
    | some value =>
      let rest := value.dropWhile isValueChar
      if rest.length = value.length then none
      else some (passage cs (cs.take (cs.length - value.length)) rest)

/-- Replaces passages from left to right. `skip` characters belong to the passage before. -/
def substitute (passage? : Option Char → List Char → Option Passage) :
    (skip : Nat) → (previous : Option Char) → List Char → List Char
  | _, _, [] => []
  | skip + 1, _, c :: cs => substitute passage? skip (some c) cs
  | 0, previous, c :: cs =>
    match passage? previous (c :: cs) with
    | some (replacement, length) => replacement ++ substitute passage? (length - 1) (some c) cs
    | none => c :: substitute passage? 0 (some c) cs

def maskCredentials (cs : List Char) : List Char := substitute (fun _ => credentials?) 0 none cs

def maskParameters (cs : List Char) : List Char := substitute parameter? 0 none cs

def redact (cs : List Char) : List Char := maskParameters (maskCredentials cs)

end Airdrop.Redaction

namespace Airdrop.Message

/-- The message with its secrets replaced and its arguments filled in; one that cannot be filled in stays as it is. -/
def redacted (m : Message) : Message :=
  match m.text? with
  | some cs => { template := Redaction.redact cs }
  | none => m

end Airdrop.Message
