import Airdrop.Text.Split

/-!
# Paths

A `Path` starts at the top of the disk or at the working directory and names the steps from there. Reading a text drops
empty steps and steps to the place itself, but keeps steps upwards, since these may follow a link.

* `Path.ofText`, `Path.text` : reading and writing.
* `Path.parent`, `Path.child`, `Path.sibling` : neighbours.
-/

namespace Airdrop

/-- A way through a disk. The start is empty for the working directory and one or two slashes for the top. -/
structure Path where
  start : String := ""
  names : List String := []
  deriving DecidableEq

namespace Path

/-- Where a text with a number of slashes in front starts; exactly two slashes are kept apart from one. -/
def startOf : (slashes : Nat) → String
  | 0 => ""
  | 2 => "//"
  | _ => "/"

def ofText (s : String) : Path where
  start := startOf (s.toList.takeWhile (· == '/')).length
  names := ((Text.split '/' s.toList).map String.ofList).filter fun name => name ≠ "" ∧ name ≠ "."

/-- The text of a path; that of the working directory is a single point. -/
def text (p : Path) : String :=
  if p.start.isEmpty ∧ p.names.isEmpty then "." else p.start ++ "/".intercalate p.names

def parent (p : Path) : Path := { p with names := p.names.dropLast }

def child (p : Path) (name : String) : Path := { p with names := p.names ++ [name] }

def sibling (p : Path) (name : String) : Path := p.parent.child name

def isAbsolute (p : Path) : Bool := !p.start.isEmpty

end Path
end Airdrop
