import Airdrop.Distribution
import Airdrop.Key

/-!
# Ingredient groups

The mints that satisfy one ingredient of a recipe form a distribution of ingredient records, each with a flag that
tells whether limited editions are accepted.
-/

namespace Airdrop.Distribution

def ingredient (position : Nat) (mint : Value) (allowsLimited : Bool) : Except EncodingFault Leaf := do
  let key ← Key.parse mint ("ingredient mint " ++ Radix.text position)
  return .ingredient (.bytes key) (.int (if allowsLimited then Leaf.allowLimitedEditions else 0))

def ingredientRecords (mints : List (Value × Bool)) : Except EncodingFault (List Leaf) :=
  mints.zipIdx.mapM fun ((mint, allowsLimited), i) => ingredient i mint allowsLimited

/-- The distribution of a list of mints. Without flags no mint accepts limited editions. -/
def ofMints (h : Hasher) (mints : List Value) (flags : Option (List Bool)) : Except Error Distribution := do
  let flags := flags.getD (mints.map fun _ => false)
  if flags.length ≠ mints.length then .error (.encoding .flagCount)
  ofRecords h (← (ingredientRecords (mints.zip flags)).mapError .encoding)

end Airdrop.Distribution
