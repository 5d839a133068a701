import Airdrop.Bytes.Base64
import Airdrop.Curve.Signature
import Airdrop.Distribution
import Airdrop.Form
import Airdrop.Json.Canonical

/-!
# Signed roots

An authority attests to a root by signing the canonical JSON of an object that names it.

* `SignedRoot.make` : the attestation of a distribution.
* `SignedRoot.isValid` : checks the signature of any object over all its other fields.
-/

namespace Airdrop

/-- An attestation of a root. -/
structure SignedRoot where
  treeSize : Int
  root : RawText
  algorithm : RawText
  integration : RawText
  timestamp : RawText
  signerKey : RawText
  signature : RawText
  deriving DecidableEq

namespace SignedRoot

open Check Form

/-- How an attestation is read; fields it does not know are ignored. -/
def form : Form SignedRoot where
  title := "SignedRoot"
  fields source fs :=
    mk <$> required "tree_size" integer source fs
      <*> required "merkle_root_b58" text source fs
      <*> required "hash_algorithm" text source fs
      <*> required "integration" text source fs
      <*> required "ts" text source fs
      <*> required "signer_pubkey_b64" text source fs
      <*> required "signature_b64" text source fs

def signatureField : String := "signature_b64"

def body (r : SignedRoot) : Fields :=
  [("tree_size", .int r.treeSize), ("merkle_root_b58", r.root.toValue), ("hash_algorithm", r.algorithm.toValue),
    ("integration", r.integration.toValue), ("ts", r.timestamp.toValue), ("signer_pubkey_b64", r.signerKey.toValue)]

def toFields (r : SignedRoot) : Fields := r.body ++ [(signatureField, r.signature.toValue)]

def unsigned (d : Distribution) (publicKey : Bytes) (timestamp : String) : SignedRoot where
  treeSize := d.size
  root := .whole (Base58.text d.root)
  algorithm := .whole d.hasher.algorithm.name
  integration := .whole d.kind.name
  timestamp := .whole timestamp
  signerKey := .whole (Base64.text publicKey)
  signature := .whole ""

def make (d : Distribution) (secretKey publicKey : Bytes) (timestamp : String) : Except Error SignedRoot := do
  let r := unsigned d publicKey timestamp
  let message ← (Json.canonical (.object r.body)).mapError fun fault => Error.raised (.canonical fault)
  if secretKey.length ≠ 32 then .error (.value .seedWidth)
  return { r with signature := .whole (Base64.text (Signature.sign secretKey message)) }

def fieldBytes? (name : String) (fs : Fields) : Option Bytes :=
  match Value.lookup name fs with
  | some (.text s) => Base64.ofText? s
  | _ => none

/-- The signature of an object covers its other fields in canonical form. Whatever is missing or malformed, the
answer is negative. -/
def isValid (fs : Fields) : Bool :=
  match fieldBytes? signatureField fs, fieldBytes? "signer_pubkey_b64" fs,
      (Json.canonical (.object (Value.dropField signatureField fs))).toOption with
  | some signature, some key, some message => key.length == 32 && Airdrop.Signature.verify key message signature
  | _, _, _ => false

end SignedRoot
end Airdrop
