import Airdrop.Claim.Payload
import Airdrop.Distribution

/-!
# Issuing payloads

`Distribution.issue` hands every claimant of a distribution the payload of their entry.
-/

namespace Airdrop.Distribution

/-- The target of an entry's record in Base58. Ingredients have none. -/
def targetText (e : Entry) : Except Error String :=
  match e.record.target? with
  | some (.bytes key) => .ok (Base58.text key)
  | some _ => .error (.plain .typeMismatch)
  | none => .error (.plain .noAttribute)

def payload (kind : Kind) (distributor : Option RawText) (e : Entry) (row : Claimant) : Except Error Payload := do
  let target ← targetText e
  return {
    integration := kind.name, handle := row.handle, amount := row.amount, index := e.index, pin := row.pin,
    proof := e.proof.map fun hash => .whole (Base58.text hash), target := .whole target, edition := row.edition,
    distributor }

/-- The payloads of all entries, whose rows are given in the same order. -/
def issue (d : Distribution) (rows : List Claimant) (distributor : Option RawText) : Except Error (List Payload) :=
  if rows.length ≠ d.size then .error (.encoding .rowCount)
  else (d.entries.zip rows).mapM fun (e, row) => payload d.kind distributor e row

end Airdrop.Distribution
