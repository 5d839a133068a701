import Airdrop.Disk.Path
import Airdrop.Error
import Airdrop.Text.Utf8

/-!
# Disks

A `Disk` holds files and directories, each at its place: the names on the way from the top. The top is a directory.

* `Disk.place` : the place that a path leads to; every step but the last one must lead to a directory.
* `Disk.read`, `Disk.write`, `Disk.makeDirectory` : the operations on files.
* `Disk.node?_put` : what a disk holds after a change.
-/

namespace Airdrop

/-- What stands at a place. -/
inductive Node where
  | file (content : Bytes)
  | directory
  deriving DecidableEq

/-- Files and directories by their places, and the place of the working directory. -/
structure Disk where
  nodes : List (List String × Node) := []
  home : List String := []

namespace Disk

def node? (d : Disk) (place : List String) : Option Node :=
  if place = [] then some .directory else d.nodes.lookup place

def put (d : Disk) (place : List String) (n : Node) : Disk :=
  { d with nodes := (place, n) :: d.nodes.filter (·.1 ≠ place) }

def maxName : Nat := 255

def maxPath : Nat := 4095

/-- The place one step from a directory. -/
def step (here : List String) (name : String) : Except FileFault (List String) :=
  if name = ".." then .ok here.dropLast
  else if maxName < (Utf8.ofText name).length then .error .nameTooLong
  else .ok (here ++ [name])

def enter (d : Disk) (here : List String) (name : String) : Except FileFault (List String) := do
  let place ← step here name
  match d.node? place with
  | some .directory => .ok place
  | some (.file _) => .error .notDirectory
  | none => .error .notFound

def place (d : Disk) (p : Path) : Except FileFault (List String) := do
  if maxPath < (Utf8.ofText p.text).length then .error .nameTooLong
  let here ← p.names.dropLast.foldlM d.enter (if p.isAbsolute then [] else d.home)
  match p.names.getLast? with
  | none => .ok here
  | some name => step here name

def at? (d : Disk) (p : Path) : Option Node := (d.place p).toOption.bind d.node?

def read (d : Disk) (p : Path) : Except FileFault Bytes := do
  match d.node? (← d.place p) with
  | some (.file content) => .ok content
  | some .directory => .error .isDirectory
  | none => .error .notFound

/-- The disk with a content in a file, which need not stand there before. -/
def write (d : Disk) (p : Path) (content : Bytes) : Except FileFault Disk := do
  let place ← d.place p
  match d.node? place with
  | some .directory => .error .isDirectory
  | _ => .ok (d.put place (.file content))

def makeDirectory (d : Disk) (p : Path) : Except FileFault Disk := do
  let place ← d.place p
  match d.node? place with
  | some _ => .error .alreadyExists
  | none => .ok (d.put place .directory)

/-- Leaving out one place does not change what stands at the others. -/
theorem lookup_filter_ne {place other : List String} (h : other ≠ place) (nodes : List (List String × Node)) :
    (nodes.filter (·.1 ≠ place)).lookup other = nodes.lookup other := by
  induction nodes with
  | nil => rfl
  | cons entry rest ih =>
    obtain ⟨k, n⟩ := entry
    by_cases hk : k = place
    · have hne : (other == place) = false := by simp [h]
      simpa [List.lookup_cons, hk, hne] using ih
    · cases ho : other == k
      · simpa [List.lookup_cons, hk, ho] using ih
      · simp [List.lookup_cons, hk, ho]

/-- A change shows at its place and nowhere else. -/
theorem node?_put (d : Disk) (place other : List String) (n : Node) (h : place ≠ []) :
    (d.put place n).node? other = if other = place then some n else d.node? other := by
  by_cases e : other = place
  · subst e; simp [node?, put, h]
  · have hne : (other == place) = false := by simp [e]
    rw [if_neg e, node?, node?, put, List.lookup_cons, hne, lookup_filter_ne e]

end Disk
end Airdrop
