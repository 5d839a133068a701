import Airdrop.Claim.Claimant
import Airdrop.Claim.Record

/-!
# From claimants to records

`Claim.prepare` gives the rows of a distribution list their positions and PINs and makes the records. PINs that rows
lack are drawn from a source, in the order of the rows; the source is an action of any monad.
-/

namespace Airdrop.Claim

/-- The PIN of a row: none for wallets, else the row's own or a drawn one. -/
def pinOf {m : Type → Type} [Monad m] (draw : m Int) (viaWallets : Bool) (row : Claimant) : m (Option Int) :=
  if viaWallets then pure none
  else match row.pin with
    | some pin => pure (some pin)
    | none => some <$> draw

def recordOf (integration : String) (target program : Bytes) (index : Nat) (row : Claimant) : Except Error Leaf := do
  let claimant ← resolve row.handle.toValue (Value.ofOption .int row.pin) (.bytes target) (.bytes program)
  record (.text integration) (.int index) (.bytes claimant) (.bytes target) (.int row.amount)
    (Value.ofOption .int row.edition)

/-- The rows from a position on, with their PINs, and their records. -/
def prepareFrom {m : Type → Type} [Monad m] (draw : m Int) (integration : String) (target program : Bytes)
    (viaWallets : Bool) : (index : Nat) → List Claimant → ExceptT Error m (List (Claimant × Leaf))
  | _, [] => pure []
  | index, row :: rows => do
    let pin ← pinOf draw viaWallets row
    let row := { row with pin }
    let leaf ← liftExcept (recordOf integration target program index row)
    let more ← prepareFrom draw integration target program viaWallets (index + 1) rows
    return (row, leaf) :: more
where
  liftExcept {α : Type} (r : Except Error α) : ExceptT Error m α := ExceptT.mk (pure r)

/-- The rows of a distribution list with their PINs, and their records. The target doubles as the seed of
pseudo-addresses. -/
def prepare {m : Type → Type} [Monad m] (draw : m Int) (integration : String) (target program : Value)
    (viaWallets : Bool) (rows : List Claimant) : ExceptT Error m (List (Claimant × Leaf)) := do
  let keys : Except Error (Bytes × Bytes) := do
    if (integration? integration).isNone then .error (.encoding (.unknownIntegration (.text integration)))
    let target ← (Key.parse target "target").mapError .encoding
    let program ← (Key.parse program "program_id").mapError .encoding
    return (target, program)
  let (target, program) ← ExceptT.mk (pure keys)
  prepareFrom draw integration target program viaWallets 0 rows

end Airdrop.Claim
