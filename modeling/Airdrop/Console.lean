import Airdrop.Console.Check
import Airdrop.Console.Derive

/-!
# The command line

`Console.run` runs one line of words and tells how the run ended. The options of the line come before the name of the
command, its own options after it. A run stops with the code 2 if the line cannot be read.
-/

namespace Airdrop.Console

/-- What stands before the name of a command. -/
def grammar : Grammar where
  valued := ["--log-level"]
  flags := ["--help"]
  interspersed := false

section

variable {m : Type → Type} [Monad m] [MonadConsole m]

/-- What a command does. -/
def perform (c : Context) : Command → Act m Unit
  | .help => return
  | .generateKeys directory => generateKeys directory
  | .create o => create c o
  | .showProof document index => showProof document index
  | .verifyClaim claim root size => verifyClaim c claim root size
  | .verifyDistribution document => verifyDistribution c document
  | .verifyRoot document => verifyRoot document
  | .pseudoAddress seed handle pin => pseudoAddress c seed handle pin
  | .ingredientRoot mints => ingredientRoot c mints

/-- A line that cannot be read. -/
def misuse {α : Type} : Act m α := throw (.stopped 2)

def runCommand (defaults settings : Settings) (level name : String) (words : List String) : Act m Unit := do
  if !Command.isName name then misuse
  match Log.setUp {} (.text level) Log.defaultLoggers with
  | (_, .error e) => throw (.failed e)
  | (log, .ok ()) =>
    match Command.read? defaults name words with
    | none => misuse
    | some command => perform { settings, log } command

def runLine (defaults settings : Settings) (words : List String) : Act m Unit := do
  match grammar.read words with
  | none => misuse
  | some l =>
    if l.flags.contains "--help" then return
    match l.words with
    | [] => misuse
    | name :: words => runCommand defaults settings (l.value? "--log-level" |>.getD defaults.logLevel) name words

/-- Runs a line of words under settings. Options that are not given have the defaults of the first settings. -/
def run (defaults settings : Settings) (words : List String) : m Ending := do
  match ← (runLine defaults settings words).run with
  | .ok () => return .success
  | .error ending => return ending

end

end Airdrop.Console
