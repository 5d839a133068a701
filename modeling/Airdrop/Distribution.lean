import Airdrop.Bytes.Base58
import Airdrop.Leaf
import Airdrop.Merkle.Inclusion

/-!
# Distributions

A `Distribution` is a list of claim records of one kind with the tree over their hashes and the path of every record.

* `Distribution.ofRecords` : builds it, or refuses the first record that cannot be encoded, is of another kind than the
  first one, stands at another position than it carries, or repeats an earlier record.
* `Distribution.path` : the path of a position. `Distribution.verify` : checks an entry's own path.
-/

namespace Airdrop

/-- A claim record in its place: position, hash and path. -/
structure Entry where
  index : Nat
  record : Leaf
  leafHash : Bytes
  proof : List Bytes

/-- Claim records of one kind under one root. -/
structure Distribution where
  tree : Merkle.Tree
  entries : List Entry
  kind : Kind

namespace Distribution

def checkPosition (kind : Kind) (position : Nat) (record : Leaf) : Except Error Unit :=
  match kind.isIndexed, record.index? with
  | true, some (.int n) => if n = position then .ok () else .error (Error.raised (.encoding (.misplaced position n)))
  | _, _ => .ok ()

/-- The encoding of a record that may follow the records with the encodings `earlier`. -/
def accept (kind : Kind) (earlier : List Bytes) (record : Leaf) : Except Error Bytes := do
  let encoded ← record.encode
  let own ← record.kind
  if own ≠ kind then .error (.encoding (.mixedKinds earlier.length own.name kind.name))
  checkPosition kind earlier.length record
  match earlier.findIdx? (· == encoded) with
  | some first => .error (.duplicate earlier.length first)
  | none => return encoded

/-- The encodings of records that follow those with the encodings `earlier`, all together. -/
def acceptAll (kind : Kind) : (earlier : List Bytes) → List Leaf → Except Error (List Bytes)
  | earlier, [] => .ok earlier
  | earlier, record :: rest => do
    let encoded ← accept kind earlier record
    acceptAll kind (earlier ++ [encoded]) rest

def entry (t : Merkle.Tree) (record : Leaf) (leafHash : Bytes) (index : Nat) : Entry :=
  { index, record, leafHash, proof := Merkle.Tree.siblings t.levels index }

def entriesOf (t : Merkle.Tree) (records : List Leaf) (hashes : List Bytes) : List Entry :=
  (records.zip hashes).zipIdx.map fun ((record, leafHash), index) => entry t record leafHash index

/-- The distribution of a list of records. Its kind is that of the first one. -/
def ofRecords (h : Hasher) (records : List Leaf) : Except Error Distribution :=
  match records with
  | [] => .error .noRecords
  | first :: _ => do
    let kind ← first.kind
    let hashes := (← acceptAll kind [] records).map h.leaf
    let tree ← Merkle.Tree.build h hashes
    return { tree, entries := entriesOf tree records hashes, kind }

def root (d : Distribution) : Bytes := d.tree.root

def size (d : Distribution) : Nat := d.tree.size

def hasher (d : Distribution) : Hasher := d.tree.hasher

def path (d : Distribution) (position : Int) : Except Error (List Bytes) := d.tree.path position

/-- The entry at a position; a negative one counts from the end. -/
def entryAt? (d : Distribution) (position : Int) : Option Entry :=
  if 0 ≤ position then d.entries[position.toNat]?
  else if 0 ≤ d.entries.length + position then d.entries[(d.entries.length + position).toNat]?
  else none

def verify (d : Distribution) (position : Int) : Except Error Bool :=
  match d.entryAt? position with
  | none => .error (.plain .noItem)
  | some e => Merkle.verify d.hasher e.leafHash e.proof e.index d.root (some d.size)

def summary (d : Distribution) : String :=
  "built " ++ d.kind.name ++ " distribution: size=" ++ Radix.text d.size ++ " depth=" ++ Radix.text d.tree.depth ++
    " root=" ++ Base58.text d.root

end Distribution
end Airdrop
