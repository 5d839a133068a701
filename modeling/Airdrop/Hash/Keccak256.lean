import Airdrop.Bytes

/-!
# Keccak-256

The sponge over `Keccak-f[1600]` with a rate of 136 bytes, the padding `10*1` and digests of 32 bytes. A state is
twenty-five lanes; lane `(x, y)` stands at position `5 * y + x`.
-/

namespace Airdrop.Keccak256

/-- Twenty-five lanes of 64 bits. -/
abbrev State := List UInt64

def lane (s : State) (i : Nat) : UInt64 := s.getD i 0

/-- Rotation to the left. -/
def rotate (x n : UInt64) : UInt64 := x <<< n ||| x >>> (64 - n)

/-- Adds to each lane the parities of two neighbouring columns. -/
def theta (s : State) : State :=
  let parity := (List.range 5).map fun x =>
    lane s x ^^^ lane s (x + 5) ^^^ lane s (x + 10) ^^^ lane s (x + 15) ^^^ lane s (x + 20)
  let change := (List.range 5).map fun x => lane parity ((x + 4) % 5) ^^^ rotate (lane parity ((x + 1) % 5)) 1
  (List.range 25).map fun i => lane s i ^^^ lane change (i % 5)

def offsets : List UInt64 :=
  [0, 1, 62, 28, 27, 36, 44, 6, 55, 20, 3, 10, 43, 25, 39, 41, 45, 15, 21, 8, 18, 2, 61, 56, 14]

/-- Rotates the lanes and moves lane `(x + 3y, x)` to `(x, y)`. -/
def rhoPi (s : State) : State :=
  (List.range 25).map fun i =>
    let j := (i % 5 + 3 * (i / 5)) % 5 + 5 * (i % 5)
    rotate (lane s j) (lane offsets j)

/-- Combines each lane with the two after it in its row. -/
def chi (s : State) : State :=
  (List.range 25).map fun i =>
    let row := 5 * (i / 5)
    lane s i ^^^ (~~~lane s (row + (i + 1) % 5) &&& lane s (row + (i + 2) % 5))

/-- One round, with its constant added to the first lane. -/
def round (s : State) (constant : UInt64) : State :=
  match chi (rhoPi (theta s)) with
  | [] => []
  | first :: rest => (first ^^^ constant) :: rest

def constants : List UInt64 := [
    0x0000000000000001, 0x0000000000008082, 0x800000000000808a, 0x8000000080008000,
    0x000000000000808b, 0x0000000080000001, 0x8000000080008081, 0x8000000000008009,
    0x000000000000008a, 0x0000000000000088, 0x0000000080008009, 0x000000008000000a,
    0x000000008000808b, 0x800000000000008b, 0x8000000000008089, 0x8000000000008003,
    0x8000000000008002, 0x8000000000000080, 0x000000000000800a, 0x800000008000000a,
    0x8000000080008081, 0x8000000000008080, 0x0000000080000001, 0x8000000080008008]

def permute (s : State) : State := constants.foldl round s

/-- Bytes of a block. -/
def rate : Nat := 136

/-- The message with a one bit, zeros and a last one bit, filling whole blocks. -/
def pad (message : Bytes) : Bytes :=
  match rate - message.length % rate with
  | 1 => message ++ [0x81]
  | free => message ++ 0x01 :: List.replicate (free - 2) 0 ++ [0x80]

def absorb (s : State) (block : Bytes) : State :=
  let words := (Bytes.chunks 8 17 block).map fun bs => UInt64.ofNat (Bytes.toNatLE bs)
  permute ((List.range 25).map fun i => lane s i ^^^ lane words i)

/-- The digest of a message: the first four lanes once every block is absorbed. -/
def hash (message : Bytes) : Bytes :=
  let padded := pad message
  let final := (Bytes.chunks rate (padded.length / rate) padded).foldl absorb (List.replicate 25 0)
  (List.range 4).flatMap fun i => Bytes.ofNatLE 8 (lane final i).toNat

@[simp] theorem length_hash (message : Bytes) : (hash message).length = 32 := by
  simp [hash, List.range_succ]

end Airdrop.Keccak256
