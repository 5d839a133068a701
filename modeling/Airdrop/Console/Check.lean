import Airdrop.Console.Basic
import Airdrop.Distribution.Document
import Airdrop.SignedRoot

/-!
# Checking what was published

* `showProof` : the path of one claim of a document.
* `verifyClaim` : a claim against a root; a mismatch gives the exit code 2.
* `verifyDistribution` : every claim of a document against its root; the exit code is 2 unless all are valid.
* `verifyRoot` : the signature of a signed root.
-/

namespace Airdrop.Console

variable {m : Type → Type} [Monad m] [MonadConsole m]

def readDocument (path : String) : Act m Document :=
  attempt ("Could not read distribution " ++ path) isUnreadable do
    given (Document.ofText (String.ofList (← readText (Path.ofText path))))

def showProof (path : String) (index : Int) : Act m Unit := do
  let document ← readDocument path
  match if 0 ≤ index then document.claims[index.toNat]? else none with
  | none =>
    match Radix.integerText? index with
    | some index => fail ("Index " ++ index ++ " out of range for " ++ Radix.text document.claims.length ++ " claims")
    | none => throw (.failed (.value .tooLongToWrite))
  | some claim =>
    match Value.lookup "proof" claim with
    | none => throw (.failed (.plain .noKey))
    | some proof => print (.object [("index", .int index), ("proof", proof), ("root", .text document.root)])

/-- Whether a claim stands under a root, by the settings. -/
def checkClaim (s : Settings) (claim : Fields) (root : String) (size : Option Int) : Except Error Bool := do
  let payload ← Payload.ofClaim claim
  let h ← s.hasher
  Claim.verify payload (.whole root) h (.text s.program) size

def verifyClaim (c : Context) (path root : String) (size : Option Int) : Act m Unit := do
  let claim ← readObject "claim" path "Claim must be a JSON object"
  let valid ← attempt "Malformed claim" Error.isValueError (given (checkClaim c.settings claim root size))
  print (.object [("claim_valid", .bool valid)])
  if !valid then throw (.stopped 2)

/-- What is known about a claim of a document. -/
inductive Verdict where
  | valid
  | invalid
  | malformed
  deriving DecidableEq

def checkEntry (program : String) (document : Document) (h : Hasher) (claim : Fields) : Except Error Bool := do
  let payload ← Payload.ofClaim claim
  Claim.verify payload (.whole document.root) h (.text program) (some document.treeSize)

/-- The verdict about the claim at a position. The log tells why a claim cannot be checked. -/
def judge (c : Context) (document : Document) (h : Hasher) (claim : Fields) (position : Nat) : Act m Verdict := do
  match checkEntry c.settings.program document h claim with
  | .ok valid => return if valid then .valid else .invalid
  | .error e =>
    if e.isValueError then
      ExceptT.lift <| note c ownLogger Log.warningLevel
        ⟨"claim %d cannot be checked: %s".toList, .positional [.int position, .text e.headline]⟩
      return .malformed
    else throw (.failed e)

def positionsOf (v : Verdict) (verdicts : List Verdict) : List Nat :=
  (verdicts.zipIdx.filter (·.1 = v)).map (·.2)

def positionsValue (positions : List Nat) : Value := .list (positions.map fun (i : Nat) => .int i)

def verifyDistribution (c : Context) (path : String) : Act m Unit := do
  let document ← readDocument path
  let h ← attempt "Invalid hash configuration" Error.isValueError (given document.hasher)
  let verdicts ← document.claims.zipIdx.mapM fun (claim, position) => judge c document h claim position
  print (.object [("claims", .int document.claims.length),
    ("invalid", positionsValue (positionsOf .invalid verdicts)),
    ("malformed", positionsValue (positionsOf .malformed verdicts))])
  if verdicts.any (· ≠ .valid) then throw (.stopped 2)

def verifyRoot (path : String) : Act m Unit := do
  let signed ← readObject "signed root" path "Signed root must be a JSON object"
  print (.object [("signature_valid", .bool (SignedRoot.isValid signed))])

end Airdrop.Console
