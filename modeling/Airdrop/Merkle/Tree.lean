import Airdrop.Hasher

/-!
# Trees of hashes

A `Tree` is built level by level over leaf hashes in their order: neighbours are hashed together, and the last node of
a level with an odd number of them is paired with itself.

* `Tree.build` : the tree over a list of leaves, none of which may have another width than a digest.
* `Tree.root`, `Tree.size`, `Tree.depth`, `Tree.leaves` : its parts.
* `Tree.path` : the sibling hashes from a leaf to just below the root.
* `depthFor` : the least depth of a tree of a given size.
-/

namespace Airdrop.Merkle

def bitLength (n : Nat) : Nat := if n = 0 then 0 else n.log2 + 1

/-- The least `d` with `size ≤ 2 ^ d`. -/
def depthFor (size : Int) : Nat := if 1 < size then bitLength (size - 1).toNat else 0

def parents (h : Hasher) : List Bytes → List Bytes
  | [] => []
  | [a] => [h.node a a]
  | a :: b :: rest => h.node a b :: parents h rest

/-- A level and all levels above it, at most `fuel` of them. -/
def levelsFrom (h : Hasher) : (fuel : Nat) → List Bytes → List (List Bytes)
  | 0, level => [level]
  | fuel + 1, level => if level.length ≤ 1 then [level] else level :: levelsFrom h fuel (parents h level)

/-- The levels over a list of leaves, the leaves first. Every level but the last is longer than the next one. -/
def levels (h : Hasher) (leaves : List Bytes) : List (List Bytes) := levelsFrom h leaves.length leaves

structure Tree where
  hasher : Hasher
  levels : List (List Bytes)

namespace Tree

/-- The first leaf that is not as wide as a digest, and its position. -/
def firstMisfit (leaves : List Bytes) : Option (Nat × Bytes) :=
  (leaves.zipIdx.find? fun (leaf, _) => leaf.length != Hasher.digestSize).map fun (leaf, i) => (i, leaf)

def build (h : Hasher) (leaves : List Bytes) : Except Error Tree :=
  if leaves.isEmpty then .error .noLeaves
  else match firstMisfit leaves with
    | some (i, leaf) => .error (.encoding (.leafLength i leaf.length))
    | none => .ok ⟨h, Merkle.levels h leaves⟩

def root (t : Tree) : Bytes := ((t.levels.getLast?).bind List.head?).getD []

def leaves (t : Tree) : List Bytes := t.levels.headD []

def size (t : Tree) : Nat := t.leaves.length

def depth (t : Tree) : Nat := t.levels.length - 1

/-- The node that stands beside position `i` of a level; the last of an odd number stands beside itself. -/
def sibling (level : List Bytes) (i : Nat) : Bytes :=
  level.getD (if i % 2 = 0 then i + 1 else i - 1) (level.getD i [])

/-- The siblings on the way from position `i` of the first level to just below the last level. -/
def siblings : List (List Bytes) → (i : Nat) → List Bytes
  | [], _ => []
  | [_], _ => []
  | level :: rest, i => sibling level i :: siblings rest (i / 2)

def path (t : Tree) (index : Int) : Except Error (List Bytes) :=
  if 0 ≤ index ∧ index < t.size then .ok (siblings t.levels index.toNat)
  else .error (Error.raised (.indexRange index t.size))

end Tree
end Airdrop.Merkle
