import Airdrop.Merkle.Tree

/-!
# Inclusion

`Merkle.climb` recomputes a root from a leaf hash and the siblings above it: bit `k` of the index tells on which side
the running hash stands at level `k`. `Merkle.verify` first checks that its input describes a path and then compares
the climb with the expected root.
-/

namespace Airdrop.Merkle

/-- The root that a leaf hash reaches by way of its siblings; an even index stands on the left. -/
def climb (h : Hasher) : (hash : Bytes) → (siblings : List Bytes) → (index : Nat) → Bytes
  | hash, [], _ => hash
  | hash, sibling :: rest, index =>
    climb h (if index % 2 = 1 then h.node sibling hash else h.node hash sibling) rest (index / 2)

/-- Checks that the input describes a path: widths first, then the index, then the size if it is known. -/
def checkPath (leaf : Bytes) (proof : List Bytes) (index : Int) (root : Bytes) (size : Option Int) :
    Except Error Unit :=
  if leaf.length ≠ Hasher.digestSize then .error (.proof .leafWidth)
  else if root.length ≠ Hasher.digestSize then .error (.proof .rootWidth)
  else match proof.findIdx? (·.length != Hasher.digestSize) with
    | some k => .error (.proof (.entryWidth k))
    | none =>
      if index < 0 ∨ 2 ^ proof.length ≤ index then .error (Error.raised (.proof (.unreachable proof.length index)))
      else match size with
        | none => .ok ()
        | some n =>
          if n ≤ index then .error (Error.raised (.proof (.outside index n)))
          else if proof.length ≠ depthFor n then .error (Error.raised (.proof (.depthMismatch proof.length n)))
          else .ok ()

/-- Whether a leaf hash stands at an index under a root. A mismatch is a negative answer, not an error. -/
def verify (h : Hasher) (leaf : Bytes) (proof : List Bytes) (index : Int) (root : Bytes) (size : Option Int) :
    Except Error Bool :=
  (checkPath leaf proof index root size).map fun _ => climb h leaf proof index.toNat == root

def Tree.verify (t : Tree) (index : Int) (leaf : Bytes) : Except Error Bool := do
  let proof ← t.path index
  Merkle.verify t.hasher leaf proof index t.root (some t.size)

end Airdrop.Merkle
