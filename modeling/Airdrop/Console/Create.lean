import Airdrop.Console.Basic
import Airdrop.Console.Command
import Airdrop.Distribution.Document
import Airdrop.Distribution.Issue
import Airdrop.Distribution.Prepare
import Airdrop.SignedRoot

/-!
# Creating a distribution

`create` reads a list of claimants, builds their distribution, writes its document and, if keys are at hand, a signed
root next to it. The document is written by `publish`, before the root is signed.
-/

namespace Airdrop.Console

variable {m : Type → Type} [Monad m] [MonadConsole m]

def claimantOf : Value → Except Error Claimant
  | .object fs => (Claimant.form.read fs).mapError .refused
  | _ => .error (.plain .typeMismatch)

def isBadRow : Error → Bool
  | .plain .typeMismatch => true
  | e => e.isValueError

def readClaimants (path : String) : Act m (List Claimant) := do
  match ← readValue "distribution list" path with
  | .list rows => attempt "Invalid claimant entry" isBadRow (given (rows.mapM claimantOf))
  | _ => fail "Distribution list must be a JSON array of claimants"

def noteBuilt (c : Context) (d : Distribution) : ExceptT Error m Unit :=
  ExceptT.lift (note c distributionLogger Log.defaultLevel ⟨d.summary.toList, .positional []⟩)

def build (c : Context) (o : Creation) (claimants : List Claimant) : ExceptT Error m (Distribution × List Payload) := do
  let h ← given c.settings.hasher
  let prepared ← Claim.prepare MonadConsole.drawPin o.integration (.text o.target) (.text c.settings.program)
    (o.method == "wallets") claimants
  let d ← given (Distribution.ofRecords h (prepared.map (·.2)))
  noteBuilt c d
  let payloads ← given (d.issue (prepared.map (·.1)) (o.distributor.map .whole))
  return (d, payloads)

def documentPath (c : Context) (o : Creation) (root : String) : Path :=
  match o.out.filter (!·.isEmpty) with
  | some out => Path.ofText out
  | none => (Path.ofText c.settings.storageDir).child ("claims-" ++ root ++ ".json")

def saveDocument (p : Path) (host : String) (d : Distribution) (payloads : List Payload) : ExceptT Error m Unit := do
  let document ← given (Document.ofDistribution d payloads (some host))
  makeDirectories p.parent
  let text ← given document.text
  write p (Utf8.ofText text)

def saveSignedRoot (p secretKey publicKey : Path) (d : Distribution) : ExceptT Error m Unit := do
  let secretKey ← read secretKey
  let publicKey ← read publicKey
  let signed ← given (SignedRoot.make d secretKey publicKey (← ExceptT.lift MonadConsole.now))
  let text ← given (Json.text (.object signed.toFields))
  write p (Utf8.encode text)

def signRoot (c : Context) (document : Path) (root : String) (d : Distribution) : Act m Unit := do
  let secretKey := Path.ofText c.settings.secretKeyPath
  let publicKey := Path.ofText c.settings.publicKeyPath
  let hasSecret ← ExceptT.lift (MonadConsole.isPresent secretKey)
  let hasPublic ← ExceptT.lift (MonadConsole.isPresent publicKey)
  if hasSecret && hasPublic then
    let p := document.sibling ("root-" ++ root ++ ".json")
    require (saveSignedRoot p secretKey publicKey d)
    print (.styled (Markup.styled "green" ("Wrote signed root to " ++ p.text)))
  else print (.styled (Markup.styled "yellow" "No signing keypair found; skipping signed root"))

/-- Builds a distribution and writes its document; gives the document's place with the distribution. -/
def publish (c : Context) (o : Creation) : Act m (Path × Distribution) := do
  if o.method ≠ "wallets" ∧ o.method ≠ "manual" then
    fail "Distribution method must either be 'wallets' or 'manual'."
  let claimants ← readClaimants o.list
  if claimants.isEmpty then fail "No claimants provided"
  ExceptT.lift <| note c ownLogger Log.defaultLevel
    ⟨"creating %s distribution for %d claimants via %s".toList,
      .positional [.text o.integration, .int claimants.length, .text o.method]⟩
  let (d, payloads) ← attempt "Distribution build failed" Error.isValueError (build c o claimants)
  let root := Base58.text d.root
  let p := documentPath c o root
  attempt ("Could not write " ++ p.text) Error.isFileError (saveDocument p o.host d payloads)
  print (.styled (Markup.styled "green" ("Wrote " ++ Radix.text d.size ++ " claims to " ++ p.text)))
  print (.styled (Markup.styled "cyan" "Root" ++ ": " ++ root))
  return (p, d)

/-- Builds a distribution, writes its document and signs its root. -/
def create (c : Context) (o : Creation) : Act m Unit := do
  let (p, d) ← publish c o
  if o.signs then signRoot c p (Base58.text d.root) d

end Airdrop.Console
