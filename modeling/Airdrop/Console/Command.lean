import Airdrop.Console.Arguments
import Airdrop.Number.Numeral
import Airdrop.Settings

/-!
# Commands

A `Command` is what one run of the command line does. `Command.read?` reads it from a name and the words after it; a
missing or superfluous word, an unknown option and a number that is none are refused.
-/

namespace Airdrop.Console

/-- What a new distribution is made of, and where it goes. -/
structure Creation where
  list : String
  integration : String
  target : String
  method : String
  host : String
  distributor : Option String
  out : Option String
  signs : Bool

/-- What one run does. -/
inductive Command where
  | help
  | generateKeys (directory : String)
  | create (c : Creation)
  | showProof (document : String) (index : Int)
  | verifyClaim (claim root : String) (size : Option Int)
  | verifyDistribution (document : String)
  | verifyRoot (document : String)
  | pseudoAddress (seed handle : String) (pin : Int)
  | ingredientRoot (mints : String)

namespace Command

def integer? (s : String) : Option Int := (Numeral.lax s.toList).toOption

/-- The value of an option, or another one if it is not given. -/
def valueOr (l : Line) (name default : String) : String := (l.value? name).getD default

def grammarOf : String → Option Grammar
  | "gen-keys" => some { valued := ["--out-dir"] }
  | "create" => some {
      valued := ["--distribution-list", "--claim-integration", "--target", "--distribution-method", "--host",
        "--distributor", "--out"]
      flags := ["--sign", "--no-sign"] }
  | "proof" => some { valued := ["--distribution", "--index"] }
  | "verify-claim" => some { valued := ["--root", "--tree-size"] }
  | "verify-distribution" | "verify-root" | "ingredient-root" => some {}
  | "pseudo-address" => some { valued := ["--seed", "--handle", "--pin"] }
  | _ => none

def creation? (defaults : Settings) (l : Line) : Option Creation := do
  return {
    list := ← l.value? "--distribution-list"
    integration := ← l.value? "--claim-integration"
    target := ← l.value? "--target"
    method := valueOr l "--distribution-method" "manual"
    host := valueOr l "--host" defaults.claimHost
    distributor := l.value? "--distributor"
    out := l.value? "--out"
    signs := l.lastOf? ["--sign", "--no-sign"] != some "--no-sign" }

def optionalInteger? (l : Line) (name : String) : Option (Option Int) :=
  match l.value? name with
  | none => some none
  | some s => (integer? s).map some

def ofLine? (defaults : Settings) (name : String) (l : Line) : Option Command :=
  match name, l.words with
  | "gen-keys", [] => some (.generateKeys (valueOr l "--out-dir" "./keys"))
  | "create", [] => (creation? defaults l).map .create
  | "proof", [] => do return .showProof (← l.value? "--distribution") (← (l.value? "--index").bind integer?)
  | "verify-claim", [claim] => do return .verifyClaim claim (← l.value? "--root") (← optionalInteger? l "--tree-size")
  | "verify-distribution", [document] => some (.verifyDistribution document)
  | "verify-root", [document] => some (.verifyRoot document)
  | "pseudo-address", [] => do
    return .pseudoAddress (← l.value? "--seed") (← l.value? "--handle") (← (l.value? "--pin").bind integer?)
  | "ingredient-root", [mints] => some (.ingredientRoot mints)
  | _, _ => none

/-- The command of a name and the words after it. Help is given whatever else is missing. -/
def read? (defaults : Settings) (name : String) (words : List String) : Option Command := do
  let g ← grammarOf name
  let l ← { g with flags := "--help" :: g.flags : Grammar }.read words
  if l.flags.contains "--help" then return .help
  ofLine? defaults name l

def isName (name : String) : Bool := (grammarOf name).isSome

end Command
end Airdrop.Console
