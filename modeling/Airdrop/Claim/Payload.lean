import Airdrop.Claim.Claimant
import Airdrop.Claim.Record

/-!
# Payloads

A `Payload` is what a claimant receives: the fields of the claim, its position and the siblings on its way to the root,
all keys and hashes in Base58. Without a PIN the handle is the claimant's wallet.

* `Payload.form` : reads a payload and refuses fields it does not know.
* `Payload.ofClaim` : reads an entry of a distribution document, which may carry a link besides.
* `VerifyRequest` : a payload with the root and the hasher to check it against.
-/

namespace Airdrop

/-- What a claimant receives. -/
structure Payload where
  integration : String
  handle : RawText
  amount : Int
  index : Int
  pin : Option Int := none
  proof : List RawText := []
  target : RawText
  edition : Option Int := none
  distributor : Option RawText := none
  deriving DecidableEq

namespace Payload

open Check Form

def fieldNames : List String :=
  ["integration", "handle", "amount", "index", "pin", "proof", "target", "edition", "distributor"]

def isIntegration (name : String) : Bool := (Claim.integration? name).isSome

/-- A text that does not name a kind of distribution to claimants. -/
def unknownIntegration : Fault := .rejected "integration must be transfer, candy or edition"

def integrationName : Check String := fun source v =>
  (text source v).andThen fun
    | .whole s => if isIntegration s then pure s else .fault unknownIntegration
    | .torn _ => .fault unknownIntegration

def form : Form Payload where
  title := "ClaimPayload"
  fields source fs := only fieldNames fs <|
    mk <$> required "integration" integrationName source fs
      <*> required "handle" text source fs
      <*> required "amount" (atLeast 0 integer) source fs
      <*> required "index" (atLeast 0 integer) source fs
      <*> withDefault "pin" (optional (atLeast 0 (lessThan pinBound integer))) none source fs
      <*> withDefault "proof" (list text) [] source fs
      <*> required "target" text source fs
      <*> withDefault "edition" (optional (atLeast 0 integer)) none source fs
      <*> withDefault "distributor" (optional text) none source fs

def toFields (p : Payload) : Fields :=
  [("integration", .text p.integration), ("handle", p.handle.toValue), ("amount", .int p.amount),
    ("index", .int p.index), ("pin", Value.ofOption .int p.pin), ("proof", .list (p.proof.map RawText.toValue)),
    ("target", p.target.toValue), ("edition", Value.ofOption .int p.edition),
    ("distributor", Value.ofOption RawText.toValue p.distributor)]

/-- The payload of an entry of a distribution document; its link is left out. -/
def ofClaim (fs : Fields) : Except Error Payload := (form.read (Value.dropField "url" fs)).mapError .refused

end Payload

/-- A claim to be checked against a root, and how the tree under the root is hashed. -/
structure VerifyRequest where
  claim : Payload
  root : RawText
  algorithm : RawText := "sha256"
  leafTag : RawText := ""
  nodeTag : RawText := ""
  treeSize : Option Int := none
  deriving DecidableEq

namespace VerifyRequest

open Check Form

/-- How a request is read; fields it does not know are ignored. -/
def form : Form VerifyRequest where
  title := "VerifyClaimRequest"
  fields source fs :=
    mk <$> required "claim" Payload.form.check source fs
      <*> required "root" text source fs
      <*> withDefault "hash_algorithm" text (.whole "sha256") source fs
      <*> withDefault "leaf_prefix_hex" text (.whole "") source fs
      <*> withDefault "node_prefix_hex" text (.whole "") source fs
      <*> withDefault "tree_size" (optional (atLeast 1 integer)) none source fs

def toValue (r : VerifyRequest) : Value :=
  .object [("claim", .object r.claim.toFields), ("root", r.root.toValue), ("hash_algorithm", r.algorithm.toValue),
    ("leaf_prefix_hex", r.leafTag.toValue), ("node_prefix_hex", r.nodeTag.toValue),
    ("tree_size", Value.ofOption .int r.treeSize)]

def hasher (r : VerifyRequest) : Except Error Hasher :=
  Hasher.ofValues r.algorithm.toValue r.leafTag.toValue r.nodeTag.toValue

end VerifyRequest
end Airdrop
