import Airdrop.Console.Create
import Airdrop.Distribution.Ingredients

/-!
# Keys, addresses and ingredient groups

* `generateKeys` : writes a new pair of keys.
* `pseudoAddress` : prints the address that a handle and a PIN have under a seed.
* `ingredientRoot` : prints the root of a list of mints with the path of each.
-/

namespace Airdrop.Console

variable {m : Type → Type} [Monad m] [MonadConsole m]

def openDirectory (directory : String) : ExceptT Error m Path := do
  if directory.isEmpty then throw (.file .notFound directory)
  let p := Path.ofText directory
  makeDirectories p
  return p

def generateKeys (directory : String) : Act m Unit := do
  require do
    let p ← openDirectory directory
    let secretKey ← ExceptT.lift MonadConsole.drawKeySeed
    write (p.child "ed25519_private.key") secretKey
    write (p.child "ed25519_public.key") (Signature.publicKey secretKey)
  print (.styled (Markup.styled "green" ("Wrote keys to " ++ directory)))

def addressOf (program seed handle : String) (pin : Int) : Except Error Bytes := do
  let seed ← (Key.ofText seed "seed").mapError .encoding
  let program ← (Key.ofText program "key").mapError .encoding
  Address.pseudo (.bytes seed) (.text handle) (.int pin) (.bytes program)

def pseudoAddress (c : Context) (seed handle : String) (pin : Int) : Act m Unit := do
  match addressOf c.settings.program seed handle pin with
  | .ok address => print (.styled (Base58.text address))
  | .error e => if e.isDistributionError then fail e.text else throw (.failed e)

/-- The items of a value; those of a text are its characters, those of an object its names. -/
def itemsOf : Value → Except Error (List Value)
  | .list items => .ok items
  | .object fs => .ok (fs.map fun (name, _) => .text name)
  | .text s => .ok (s.toList.map fun c => .text (String.ofList [c]))
  | .torn t => .ok (t.codes.map fun c => (RawText.ofCodes [c]).toValue)
  | _ => .error (.plain .typeMismatch)

def mintOf : Value → Except Error Value
  | .object fs =>
    match Value.lookup "mint" fs with
    | some v => .ok v
    | none => .error (.plain .noKey)
  | _ => .error (.plain .typeMismatch)

def acceptsLimited : Value → Bool
  | .object fs => ((Value.lookup "allowLimitedEditions" fs).getD (.bool false)).truthy
  | _ => false

def ingredients (s : Settings) (mints : Value) : Except Error Distribution := do
  let items ← itemsOf mints
  let keys ← items.mapM mintOf
  let h ← s.hasher
  Distribution.ofMints h keys (some (items.map acceptsLimited))

def isBadList : Error → Bool
  | .plain .typeMismatch | .plain .noKey | .plain .noAttribute => true
  | e => e.isValueError

def mintText : Leaf → String
  | .ingredient (.bytes key) _ => Base58.text key
  | _ => ""

def ingredientValue (e : Entry) : Value :=
  .object [("mint", .text (mintText e.record)), ("allowLimitedEditions", .bool e.record.allowsLimitedEditions),
    ("proof", .list (e.proof.map fun p => .text (Base58.text p)))]

def ingredientRoot (c : Context) (path : String) : Act m Unit := do
  let mints ← readValue "ingredient list" path
  let d ← attempt "Invalid ingredient list" isBadList do
    let d ← given (ingredients c.settings mints)
    noteBuilt c d
    return d
  print (.object [("root", .text (Base58.text d.root)), ("mints", .list (d.entries.map ingredientValue))])

end Airdrop.Console
