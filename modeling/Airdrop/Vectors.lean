import Airdrop.Console.Basic
import Airdrop.Distribution
import Airdrop.Json.Writer
import Airdrop.Vectors.Options

/-!
# Test vectors

For checking other verifiers, `Vectors.document` lists trees of given sizes over fixed records: every leaf with its
encoding, hash and path, and the root. `Vectors.emit` prints it or writes it to a file, as the options of a line say.
-/

namespace Airdrop.Vectors

/-- The record at a position: its claimant repeats the position, its amount is one more. -/
def record (i : Nat) : Leaf :=
  .transfer (.int i) (.bytes (List.replicate 32 (UInt8.ofNat i))) (.bytes (List.replicate 32 0xEE)) (.int (i + 1))

def entryValue (e : Entry) : Except Error Value := do
  let encoded ← e.record.encode
  return .object [("index", .int e.index), ("encoded_hex", .text (Hex.text encoded)),
    ("leaf_hash_hex", .text (Hex.text e.leafHash)), ("proof_hex", .list (e.proof.map fun p => .text (Hex.text p)))]

/-- The vectors of one tree. A size below one has none. -/
def tree (h : Hasher) (size : Int) : Except Error Value := do
  let d ← Distribution.ofRecords h ((List.range size.toNat).map record)
  return .object [("size", .int size), ("root_hex", .text (Hex.text d.root)), ("root_b58", .text (Base58.text d.root)),
    ("leaves", .list (← d.entries.mapM entryValue))]

def document (h : Hasher) (sizes : List Int) : Except Error Value := do
  let hashing := h.describe.map fun (name, value) => (name, Value.text value)
  return .object [("hash", .object hashing), ("trees", .list (← sizes.mapM (tree h)))]

def sizeOf (cs : List Char) : Except Error Int :=
  match Numeral.read cs with
  | .ok n => .ok n
  | .error .malformed => .error (.value (.badInteger (String.ofList cs)))
  | .error (.tooLong digits) => .error (.value (.tooLongToRead digits))

def sizes (s : String) : Except Error (List Int) :=
  ((Text.split ',' s.toList).filter fun cs => !(Text.trim Text.isBlank cs).isEmpty).mapM sizeOf

def Options.arguments (o : Options) : Except Error (Hasher × List Int) := do
  let h ← Hasher.ofValues (.text o.algorithm) (.text o.leafTag) (.text o.nodeTag)
  return (h, ← Vectors.sizes o.sizes)

open Console

variable {m : Type → Type} [Monad m] [MonadConsole m]

def publish (out : String) (document : Value) : Act m Unit := do
  let text ← require (given (Json.text document))
  if out = "-" then print (.plain (String.ofList text)) else require (write (Path.ofText out) (Utf8.encode text))

def generate (o : Options) : Act m Unit := do
  match o.arguments with
  | .error e =>
    ExceptT.lift (MonadConsole.report ("invalid arguments: " ++ e.text ++ "\n").toList)
    throw (.stopped 2)
  | .ok (h, sizes) => publish o.out (← require (given (document h sizes)))

def emit (words : List String) : m Ending := do
  match Options.read words with
  | .help => return .success
  | .misuse => return .stopped 2
  | .options o =>
    match ← (generate o).run with
    | .ok () => return .success
    | .error ending => return ending

end Airdrop.Vectors
