import Airdrop.Bytes.Hex
import Airdrop.Error
import Airdrop.Hash.Keccak256
import Airdrop.Hash.Sha256

/-!
# Hashers

A `Hasher` is one of two hash functions together with a tag in front of leaves and a tag in front of inner nodes. Both
tags are empty by default; tags of which neither begins the other keep leaves and nodes apart.

* `Hasher.leaf`, `Hasher.node` : the digest of an encoded leaf and of a pair of nodes (`length_leaf`, `length_node`).
* `Hasher.describe`, `Hasher.ofDescription` : the text form and back.
-/

namespace Airdrop

/-- The supported hash functions. -/
inductive Algorithm where
  | sha256
  | keccak256
  deriving DecidableEq

namespace Algorithm

def name : Algorithm → String
  | sha256 => "sha256"
  | keccak256 => "keccak256"

def ofName? (s : String) : Option Algorithm :=
  if s = "sha256" then some sha256 else if s = "keccak256" then some keccak256 else none

def digest : Algorithm → Bytes → Bytes
  | sha256, message => Sha256.hash message
  | keccak256, message => Keccak256.hash message

@[simp] theorem length_digest (a : Algorithm) (message : Bytes) : (a.digest message).length = 32 := by
  cases a <;> simp [digest]

@[simp] theorem ofName?_name (a : Algorithm) : ofName? a.name = some a := by cases a <;> rfl

end Algorithm

structure Hasher where
  algorithm : Algorithm := .sha256
  leafTag : Bytes := []
  nodeTag : Bytes := []
  deriving DecidableEq

namespace Hasher

def digestSize : Nat := 32

def digest (h : Hasher) (message : Bytes) : Bytes := h.algorithm.digest message

def leafPreimage (h : Hasher) (encoded : Bytes) : Bytes := h.leafTag ++ encoded

def nodePreimage (h : Hasher) (left right : Bytes) : Bytes := h.nodeTag ++ left ++ right

def leaf (h : Hasher) (encoded : Bytes) : Bytes := h.digest (h.leafPreimage encoded)

def node (h : Hasher) (left right : Bytes) : Bytes := h.digest (h.nodePreimage left right)

@[simp] theorem length_leaf (h : Hasher) (encoded : Bytes) : (h.leaf encoded).length = 32 := by
  simp [leaf, digest]

@[simp] theorem length_node (h : Hasher) (left right : Bytes) : (h.node left right).length = 32 := by
  simp [node, digest]

def describe (h : Hasher) : List (String × String) :=
  [("algorithm", h.algorithm.name), ("leaf_prefix_hex", Hex.text h.leafTag), ("node_prefix_hex", Hex.text h.nodeTag)]

def tagOfValue : Value → Except Error Bytes
  | .text s => (Hex.decode s.toList).mapError fun i => .value (.badHex i)
  | .torn t => .error (.value (.badHex (t.codes.findIdx fun c => 128 ≤ c.toNat)))
  | _ => .error (.plain .typeMismatch)

def algorithmOfValue : Value → Except Error Algorithm
  | .text s =>
    match Algorithm.ofName? s with
    | some a => .ok a
    | none => .error (.value (.unsupportedAlgorithm (.text s)))
  | .list _ | .object _ => .error (.plain .typeMismatch)
  | v => .error (Error.raised (.value (.unsupportedAlgorithm v)))

/-- The hasher of a name and two hexadecimal tags. The tags are read before the name is looked up. -/
def ofValues (algorithm leafTag nodeTag : Value) : Except Error Hasher := do
  let leafTag ← tagOfValue leafTag
  let nodeTag ← tagOfValue nodeTag
  let algorithm ← algorithmOfValue algorithm
  return { algorithm, leafTag, nodeTag }

/-- The hasher of a text form; what it leaves out has its default. -/
def ofDescription : Value → Except Error Hasher
  | .object fields =>
    ofValues ((Value.lookup "algorithm" fields).getD (.text "sha256"))
      ((Value.lookup "leaf_prefix_hex" fields).getD (.text ""))
      ((Value.lookup "node_prefix_hex" fields).getD (.text ""))
  | _ => .error (.plain .noAttribute)

end Hasher
end Airdrop
