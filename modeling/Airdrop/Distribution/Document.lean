import Airdrop.Claim.Link
import Airdrop.Distribution
import Airdrop.Json.Writer

/-!
# Distribution documents

The authority keeps a built distribution as a JSON document: root, size, kind, hasher and one object per claim, which
may hold the claim's link besides the payload.

* `Document.ofDistribution`, `Document.text` : the document of a distribution and its text.
* `Document.ofText`, `Document.payloads`, `Document.hasher` : reading it back.
-/

namespace Airdrop

/-- A distribution as it is kept. -/
structure Document where
  root : String
  treeSize : Int
  integration : String
  hashing : List (String × String)
  claims : List Fields := []

namespace Document

open Check Form

/-- How a document is read; fields it does not know are ignored. -/
def form : Form Document where
  title := "DistributionFile"
  fields source fs :=
    mk <$> required "merkle_root_b58" string source fs
      <*> required "tree_size" integer source fs
      <*> required "integration" string source fs
      <*> required "hash_config" (fieldsOf string) source fs
      <*> withDefault "claims" (list object) [] source fs

def hashingFields (d : Document) : Fields := d.hashing.map fun (name, value) => (name, .text value)

def toValue (d : Document) : Value :=
  .object [("merkle_root_b58", .text d.root), ("tree_size", .int d.treeSize), ("integration", .text d.integration),
    ("hash_config", .object d.hashingFields), ("claims", .list (d.claims.map .object))]

/-- The object of a payload, with its link if there is a host. -/
def claim (host : Option String) (p : Payload) : Except Error Fields :=
  match host.filter (!·.isEmpty) with
  | none => .ok p.toFields
  | some host => do
    let link ← Link.render host p
    return p.toFields ++ [("url", .text link)]

/-- The document of a distribution and the payloads issued for it. -/
def ofDistribution (d : Distribution) (payloads : List Payload) (host : Option String) : Except Error Document := do
  let claims ← payloads.mapM (claim host)
  return {
    root := Base58.text d.root
    treeSize := d.size
    integration := d.kind.name
    hashing := d.hasher.describe
    claims }

/-- The text of the document, unless an integer in it is too long to be written. -/
def text (d : Document) : Except Error String := (Json.text d.toValue).map String.ofList

def ofText (s : String) : Except Error Document := (form.readText s.toList).mapError .refused

def payloads (d : Document) : Except Error (List Payload) := d.claims.mapM Payload.ofClaim

def hasher (d : Document) : Except Error Hasher := Hasher.ofDescription (.object d.hashingFields)

end Document
end Airdrop
