import Airdrop.Console.Markup
import Airdrop.Disk.Path
import Airdrop.Log
import Airdrop.Settings
import Airdrop.Text.Utf8

/-!
# Consoles

`MonadConsole` is what commands ask of their surroundings: files, a place to print, a clock and sources of PINs and
keys. A command is an `Act`: it ends by itself or by an `Ending`.

* `read`, `write`, `makeDirectories` : operations on files, whose errors name the path.
* `attempt` : a step whose expected errors are told to the user.
* `require` : a step whose errors end the run.
-/

namespace Airdrop.Console

/-- What a command prints. -/
inductive Output where
  | styled (markup : String)
  | plain (text : String)
  | object (fields : Fields)

/-- How a run ends. -/
inductive Ending where
  | success
  | stopped (code : Nat)
  | failed (e : Error)

def Ending.code : Ending → Nat
  | success => 0
  | stopped code => code
  | failed _ => 1

/-- What commands ask of their surroundings. -/
class MonadConsole (m : Type → Type) where
  readFile : Path → m (Except FileFault Bytes)
  writeFile : Path → Bytes → m (Except FileFault Unit)
  makeDirectory : Path → m (Except FileFault Unit)
  isPresent : Path → m Bool
  isDirectory : Path → m Bool
  print : Output → m Unit
  report : List Char → m Unit
  drawPin : m Int
  drawKeySeed : m Bytes
  now : m String

abbrev Act (m : Type → Type) := ExceptT Ending m

/-- What all commands of a run share. -/
structure Context where
  settings : Settings
  log : Log

def ownLogger : String := "gumdrop_cli"

def distributionLogger : String := "gumdrop_api.distribution"

section

variable {m : Type → Type} [Monad m] [MonadConsole m] {α : Type}

def print (o : Output) : Act m Unit := ExceptT.lift (MonadConsole.print o)

def fail (message : String) : Act m α := do
  print (.styled (Markup.styled "red" (Markup.escape message)))
  throw (.stopped 1)

/-- A step whose errors end the run, but those of one family are told to the user. -/
def attempt (what : String) (isExpected : Error → Bool) (step : ExceptT Error m α) : Act m α := do
  match ← ExceptT.lift step.run with
  | .ok a => return a
  | .error e => if isExpected e then fail (what ++ ": " ++ e.text) else throw (.failed e)

def require (step : ExceptT Error m α) : Act m α := attempt "" (fun _ => false) step

def given (r : Except Error α) : ExceptT Error m α := ExceptT.mk (pure r)

def note (c : Context) (logger : String) (level : Int) (message : Message) : m Unit :=
  MonadConsole.report (c.log.emit logger level message)

def onFile (p : Path) (operation : m (Except FileFault α)) : ExceptT Error m α := do
  if p.text.toList.contains '\x00' then throw (.value .nulInPath)
  match ← ExceptT.lift operation with
  | .ok a => return a
  | .error fault => throw (.file fault p.text)

def read (p : Path) : ExceptT Error m Bytes := onFile p (MonadConsole.readFile p)

def write (p : Path) (content : Bytes) : ExceptT Error m Unit := onFile p (MonadConsole.writeFile p content)

def readText (p : Path) : ExceptT Error m (List Char) := do
  match Utf8.decode? (← read p) with
  | some cs => return cs
  | none => throw (.plain .undecodable)

def makeDirectory (p : Path) : ExceptT Error m Unit :=
  tryCatch (onFile p (MonadConsole.makeDirectory p)) fun e => do
    match e with
    | .file fault _ =>
      if fault ≠ .notFound then
        if ← ExceptT.lift (MonadConsole.isDirectory p) then return
      throw e
    | e => throw e

/-- Makes a directory and all above it, given the steps to it from the last to the first. -/
def makeDirectoriesFrom (start : String) : List String → ExceptT Error m Unit
  | [] => makeDirectory ⟨start, []⟩
  | name :: above =>
    let p : Path := ⟨start, (name :: above).reverse⟩
    tryCatch (makeDirectory p) fun e => do
      match e with
      | .file .notFound _ =>
        makeDirectoriesFrom start above
        makeDirectory p
      | e => throw e

def makeDirectories (p : Path) : ExceptT Error m Unit := makeDirectoriesFrom p.start p.names.reverse

def depthLimit : Nat := 960

def parse (cs : List Char) : Except Error Value :=
  match Json.read false depthLimit cs with
  | .ok v => .ok v
  | .error .malformed => .error (.plain .malformedText)
  | .error .tooDeep => .error (.plain .tooDeep)
  | .error (.tooLong digits) => .error (.value (.tooLongToRead digits))

/-- A file cannot be read or its text is no document. -/
def isUnreadable (e : Error) : Bool := e.isFileError || e.isValueError

def readValue (what path : String) : Act m Value :=
  attempt ("Could not read " ++ what ++ " " ++ path) isUnreadable do
    given (parse (← readText (Path.ofText path)))

def readObject (what path refusal : String) : Act m Fields := do
  match ← readValue what path with
  | .object fs => return fs
  | _ => fail refusal

end

end Airdrop.Console
