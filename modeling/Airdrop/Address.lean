import Airdrop.Curve.Point
import Airdrop.Hash.Sha256
import Airdrop.Key
import Airdrop.Text.Utf8

/-!
# Program addresses and pseudo-addresses

* `Address.find` : the first candidate off the curve, with bumps from 255 down. The candidates are digests of the
  seeds, the bump, the program and a marker.
* `Address.pseudo` : the address that stands for a claimant without a wallet. Its seeds are a key, the claimant's
  handle in pieces of at most 32 bytes, and a PIN of four bytes.
-/

namespace Airdrop.Address

/-- The text at the end of every candidate's preimage. -/
def marker : Bytes := Utf8.ofText "ProgramDerivedAddress"

def maxSeeds : Nat := 16

def maxSeedLength : Nat := 32

def preimage (seeds : List Bytes) (bump : Nat) (program : Bytes) : Bytes :=
  seeds.flatten ++ [UInt8.ofNat bump] ++ program ++ marker

def candidate (seeds : List Bytes) (bump : Nat) (program : Bytes) : Bytes :=
  Sha256.hash (preimage seeds bump program)

def checkSeeds (seeds : List Bytes) : Except EncodingFault Unit :=
  if maxSeeds < seeds.length then .error (.tooManySeeds seeds.length)
  else if seeds.any fun s => maxSeedLength < s.length then .error .seedTooLong
  else .ok ()

/-- The greatest bump below `count` whose candidate is off the curve. -/
def search (seeds : List Bytes) (program : Bytes) : (count : Nat) → Option (Bytes × Nat)
  | 0 => none
  | bump + 1 =>
    let address := candidate seeds bump program
    if isOnCurve address then search seeds program bump else some (address, bump)

def find (seeds : List Bytes) (program : Bytes) : Except EncodingFault (Bytes × Nat) := do
  checkSeeds (seeds ++ [[0xFF]])
  match search seeds program 256 with
  | some found => .ok found
  | none => .error .noBump

/-- The handle's bytes in pieces of at most 32. -/
def handleSeeds (handle : Bytes) : List Bytes :=
  Bytes.chunks maxSeedLength ((handle.length + maxSeedLength - 1) / maxSeedLength) handle

/-- The handle of a claimant, which must not be empty. -/
def checkHandle : Value → Except EncodingFault Unit
  | .null => .error (.required "handle")
  | .text s => if s.isEmpty then .error (.required "handle") else .ok ()
  | _ => .ok ()

def checkPin (pin : Value) : Except Error Unit :=
  match pin with
  | .null => .error (.encoding (.required "pin"))
  | .float x => if x.geInt 0 && x.ltInt (2 ^ 32) then .ok () else .error (Error.raised (.encoding (.pinRange pin)))
  | v =>
    match v.asInt? with
    | some n => if 0 ≤ n ∧ n < 2 ^ 32 then .ok () else .error (Error.raised (.encoding (.pinRange pin)))
    | none => .error (.plain .typeMismatch)

/-- The bytes of a handle; a torn text has none. -/
def handleBytes : Value → Except Error Bytes
  | .text s => .ok (Utf8.ofText s)
  | .torn t => .error (.unencodable t)
  | _ => .error (.plain .noAttribute)

/-- The seeds of a pseudo-address: the key, the pieces of the handle, and the PIN. -/
def pseudoSeeds (seed handle pin : Value) : Except Error (List Bytes) := do
  (checkHandle handle).mapError .encoding
  checkPin pin
  let handle ← handleBytes handle
  let seed ← (Key.parse seed "seed").mapError .encoding
  match pin.asInt? with
  | some n => return seed :: handleSeeds handle ++ [Bytes.ofNatLE 4 n.toNat]
  | none => .error (.plain .noAttribute)

def pseudo (seed handle pin program : Value) : Except Error Bytes := do
  let seeds ← pseudoSeeds seed handle pin
  let program ← (Key.parse program "program_id").mapError .encoding
  let (address, _) ← (find seeds program).mapError .encoding
  return address

end Airdrop.Address
