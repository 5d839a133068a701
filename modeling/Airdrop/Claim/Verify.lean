import Airdrop.Claim.Payload
import Airdrop.Merkle.Inclusion

/-!
# Checking a claim

`Claim.leaf` rebuilds the record of a payload; `Claim.verify` tells whether that record stands under a root. A mismatch
is a negative answer; an error means that the payload cannot be checked at all.
-/

namespace Airdrop.Claim

/-- The program that pseudo-addresses belong to unless another one is named. -/
def defaultProgram : String := "gdrpGjVffourzkdDRrQmySw4aTHr8a3xmQzzxSwFD1a"

def leaf (p : Payload) (program : Value) : Except Error Leaf := do
  let target ← (Key.parse p.target.toValue "target").mapError .encoding
  let program ← (Key.parse program "program_id").mapError .encoding
  let claimant ← resolve p.handle.toValue (Value.ofOption .int p.pin) (.bytes target) (.bytes program)
  record (.text p.integration) (.int p.index) (.bytes claimant) (.bytes target) (.int p.amount)
    (Value.ofOption .int p.edition)

/-- The sibling hashes of a payload, of any width. -/
def siblings (p : Payload) : Except Error (List Bytes) :=
  match p.proof.mapM Base58.ofRaw? with
  | some proof => .ok proof
  | none => .error (.proof .notBase58)

/-- Whether a payload's record stands under a root of raw bytes. -/
def verifyBytes (p : Payload) (root : Bytes) (h : Hasher) (program : Value) (size : Option Int) :
    Except Error Bool := do
  let proof ← siblings p
  let record ← leaf p program
  let hash ← record.hash h
  Merkle.verify h hash proof p.index root size

/-- Whether a payload's record stands under a root that is written in Base58. -/
def verify (p : Payload) (root : RawText) (h : Hasher) (program : Value) (size : Option Int) : Except Error Bool := do
  let root ← (rootOfText root).mapError .encoding
  verifyBytes p root h program size

end Airdrop.Claim
