import Airdrop.Console
import Airdrop.Vectors
import Std.Time.Format
import Std.Time.Zoned

/-!
# The program

Runs the words of the command line, or the generator of test vectors if the first word is `vectors`. Settings come from
the environment and the file `.env` of the working directory.
-/

namespace Airdrop.Console

/-- The system's numbers of errors, which some operations give with the opposite sign. -/
def hasNumber (code : UInt32) (fault : FileFault) : Bool :=
  code.toNat == fault.number || (0 - code).toNat == fault.number

/-- What went wrong with a file, if it is one of the known faults. -/
def faultOf? : IO.Error → Option FileFault
  | .noFileOrDirectory .. => some .notFound
  | .alreadyExists .. => some .alreadyExists
  | .inappropriateType _ code _ => some (if hasNumber code .isDirectory then .isDirectory else .notDirectory)
  | .invalidArgument _ code _ => if hasNumber code .nameTooLong then some .nameTooLong else none
  | _ => none

/-- An operation on a file; faults that are not known end the program. -/
def operate {α : Type} (operation : IO α) : IO (Except FileFault α) := do
  match ← operation.toBaseIO with
  | .ok a => return .ok a
  | .error e =>
    match faultOf? e with
    | some fault => return .error fault
    | none => throw e

def contentOf (p : Path) : IO (Except FileFault Bytes) := operate do return (← IO.FS.readBinFile p.text).toList

instance : MonadConsole IO where
  readFile := contentOf
  writeFile p content := operate (IO.FS.writeBinFile p.text ⟨content.toArray⟩)
  makeDirectory p := operate (IO.FS.createDir p.text)
  isPresent p := do
    match ← contentOf p with
    | .ok _ | .error .isDirectory => return true
    | .error _ => return false
  isDirectory p := do
    match ← contentOf p with
    | .error .isDirectory => return true
    | _ => return false
  print
    | .styled s => IO.println (Markup.plain s)
    | .plain s => IO.println s
    | .object fs => IO.println (String.ofList (Value.object fs).display)
  report cs := IO.eprint (String.ofList cs)
  drawPin := do return (← IO.getRandomBytes 4).toList.foldl (fun n b => 256 * n + b.toNat) (0 : Nat)
  drawKeySeed := do return (← IO.getRandomBytes 32).toList
  now := do
    let time := Std.Time.DateTime.ofTimestamp (← Std.Time.Timestamp.now) Std.Time.TimeZone.ZoneRules.UTC
    return time.format "uuuu-MM-dd'T'HH:mm:ss.SSSSSSxxx"

def loadSettings : IO (Except Error Settings) := do
  let environment ← Settings.names.filterMapM fun name => do return (← IO.getEnv name).map fun value => (name, value)
  let file ← contentOf (Path.ofText ".env")
  return Settings.load environment (file.toOption.bind Utf8.text?)

def conclude : Ending → IO UInt32
  | .failed e => do
    IO.eprintln (e.kind ++ ": " ++ e.text)
    return 1
  | ending => return UInt32.ofNat ending.code

end Airdrop.Console

open Airdrop Console in
def main (words : List String) : IO UInt32 := do
  match words with
  | "vectors" :: words => conclude (← Vectors.emit words)
  | words =>
    match ← loadSettings with
    | .error e => conclude (.failed e)
    | .ok settings => conclude (← run settings settings words)
