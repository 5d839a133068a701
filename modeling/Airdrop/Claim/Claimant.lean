import Airdrop.Form

/-!
# Claimants

A `Claimant` is one row of a distribution list: a wallet or a contact text, an amount, perhaps an edition and a PIN.
`Claimant.form` reads one; fields it does not know are ignored.
-/

namespace Airdrop

def pinBound : Nat := 2 ^ 32

/-- One row of a distribution list. -/
structure Claimant where
  handle : RawText
  amount : Int
  edition : Option Int := none
  pin : Option Int := none
  url : Option RawText := none
  deriving DecidableEq

namespace Claimant

open Check Form

def isHandle : RawText → Bool
  | .whole s => s.toList.any fun c => !Text.isBlank c
  | .torn _ => true

def form : Form Claimant where
  title := "Claimant"
  fields source fs :=
    mk <$> required "handle" (satisfying isHandle "handle must not be blank" text) source fs
      <*> required "amount" (atLeast 0 integer) source fs
      <*> withDefault "edition" (optional (atLeast 0 integer)) none source fs
      <*> withDefault "pin" (optional (atLeast 0 (lessThan pinBound integer))) none source fs
      <*> withDefault "url" (optional text) none source fs

def toValue (c : Claimant) : Value :=
  .object [("handle", c.handle.toValue), ("amount", .int c.amount), ("edition", Value.ofOption .int c.edition),
    ("pin", Value.ofOption .int c.pin), ("url", Value.ofOption RawText.toValue c.url)]

end Claimant
end Airdrop
