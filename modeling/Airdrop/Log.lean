import Airdrop.Error
import Airdrop.Log.Redaction
import Airdrop.Text.Case
import Airdrop.Text.Split

/-!
# Logs

Loggers have dotted names and form a tree under the root. A logger without a level takes the level of the nearest
ancestor that has one.

* `Log.setUp` : the first time it gives the root a handler and a level; every time it makes the handler and the named
  loggers redact their messages and gives the named loggers a level.
* `Log.emit` : what is written for a message.
-/

namespace Airdrop

/-- A logger: its level, zero for none, and whether it redacts its messages. -/
structure Logger where
  level : Int := 0
  redacts : Bool := false

/-- The loggers of a process and the handler of the root. -/
structure Log where
  root : Logger := { level := 30 }
  loggers : List (String × Logger) := []
  hasHandler : Bool := false
  handlerRedacts : Bool := false

namespace Log

/-- The levels that have names; of two with one value the first name is written. -/
def levelNames : List (String × Int) :=
  [("CRITICAL", 50), ("FATAL", 50), ("ERROR", 40), ("WARNING", 30), ("WARN", 30), ("INFO", 20), ("DEBUG", 10),
    ("NOTSET", 0)]

/-- The name of a level, unless its number is too long to be written. -/
def levelName? (level : Int) : Option String :=
  match levelNames.find? (·.2 == level) with
  | some (name, _) => some name
  | none => (Radix.integerText? level).map fun n => "Level " ++ n

/-- The level that a value asks for: a number, or a name in any case. -/
def level : Value → Except Error Int
  | .text s =>
    let name := String.ofList (Text.upper s.toList)
    match levelNames.lookup name with
    | some n => .ok n
    | none => .error (.value (.unknownLevel name))
  | v =>
    match v.asInt? with
    | some n => .ok n
    | none => .error (.plain .typeMismatch)

def defaultLoggers : List String := ["gumdrop_api", "gumdrop_cli", "uvicorn", "uvicorn.access"]

/-- The level of news. It is set up unless another one is asked for. -/
def defaultLevel : Int := 20

def warningLevel : Int := 30

def isRoot (name : String) : Bool := name.isEmpty || name == "root"

def logger (log : Log) (name : String) : Logger :=
  if isRoot name then log.root else (log.loggers.lookup name).getD {}

def setLogger (log : Log) (name : String) (l : Logger) : Log :=
  if isRoot name then { log with root := l }
  else { log with loggers := (name, l) :: log.loggers.filter (·.1 != name) }

def setUpLogger (level : Int) (log : Log) (name : String) : Log := log.setLogger name ⟨level, true⟩

/-- Gives the root a handler and, unless null is asked for, a level. A root that has a handler keeps its level. -/
def setUpRoot (log : Log) (asked : Value) : Log × Except Error Unit :=
  let installed := { log with hasHandler := true }
  match log.hasHandler, asked with
  | true, _ | _, .null => (installed, .ok ())
  | _, asked =>
    match level asked with
    | .ok n => ({ installed with root := { log.root with level := n } }, .ok ())
    | .error e => (installed, .error e)

/-- The log after setting up, and the error that ends it. An unknown level is noticed where it is first used: by a root
without handler, else by the first named logger. -/
def setUp (log : Log) (asked : Value) (loggers : List String) : Log × Except Error Unit :=
  match log.setUpRoot asked with
  | (log, .error e) => (log, .error e)
  | (log, .ok ()) =>
    let log := { log with handlerRedacts := true }
    match loggers, level asked with
    | [], _ => (log, .ok ())
    | names, .ok n => (names.foldl (setUpLogger n) log, .ok ())
    | _, .error e => (log, .error e)

/-- The names of a logger and its ancestors but the root, the logger first. -/
def lineage (name : String) : List String :=
  let parts := Text.split '.' name.toList
  (List.range parts.length).map fun i =>
    String.ofList (Text.join ['.'] (parts.take (parts.length - i)))

/-- The level from which on a logger writes messages. -/
def threshold (log : Log) (name : String) : Int :=
  let ancestors := if isRoot name then [] else lineage name
  ((ancestors.map fun n => (log.logger n).level).find? (· != 0)).getD log.root.level

/-- What is written for a message that passed all redaction. A message that cannot be filled in is dropped, and so is
one of a level without a name; without a handler only warnings and worse are written. -/
def line (log : Log) (name : String) (level : Int) (m : Message) : List Char :=
  match levelName? level, m.text? with
  | none, _ | _, none => []
  | some levelName, some cs =>
    if log.hasHandler then
      levelName.toList ++ ':' :: (if isRoot name then "root" else name).toList ++ ':' :: cs ++ ['\n']
    else if warningLevel ≤ level then cs ++ ['\n']
    else []

def emit (log : Log) (name : String) (level : Int) (m : Message) : List Char :=
  if level ≤ 0 ∨ level < log.threshold name then []
  else
    let m := if (log.logger name).redacts then m.redacted else m
    let m := if log.hasHandler && log.handlerRedacts then m.redacted else m
    log.line name level m

end Log
end Airdrop
