import Airdrop.Curve.Point
import Airdrop.Hash.Sha512

/-!
# Signatures

Deterministic signatures over the curve with SHA-512.

* `Signature.publicKey`, `Signature.sign` : the public key of a seed of 32 bytes and the signature of a message.
* `Signature.verify` : acceptance of a signature. It refuses a scalar that is not reduced, a first half or a key of
  small order, and a key that is not reduced; it compares the byte form of `S B - h A` with the first half.
-/

namespace Airdrop.Signature

/-- The number of a digest modulo the order of the base point. -/
def scalarOf (digest : Bytes) : Nat := Bytes.toNatLE digest % Point.order

/-- The secret scalar of a seed: the first half of its digest with the low three bits and the last bit cleared and the
bit before it set. -/
def secretScalar (seed : Bytes) : Nat :=
  let n := Bytes.toNatLE ((Sha512.hash seed).take 32)
  n % 2 ^ 254 / 8 * 8 + 2 ^ 254

def nonceKey (seed : Bytes) : Bytes := (Sha512.hash seed).drop 32

def publicKey (seed : Bytes) : Bytes := (Point.base.scale (secretScalar seed)).encode

def sign (seed message : Bytes) : Bytes :=
  let a := secretScalar seed
  let A := publicKey seed
  let r := scalarOf (Sha512.hash (nonceKey seed ++ message))
  let R := (Point.base.scale r).encode
  let k := scalarOf (Sha512.hash (R ++ A ++ message))
  R ++ Bytes.ofNatLE 32 ((r + k * a) % Point.order)

/-- Acceptance of a signature of 64 bytes under a key of 32 bytes. -/
def verify (key message signature : Bytes) : Bool :=
  let R := signature.take 32
  let S := Bytes.toNatLE (signature.drop 32)
  signature.length == 64 && S < Point.order && !Point.hasSmallOrder R && Point.isCanonical key &&
    !Point.hasSmallOrder key &&
    match Point.decode? key with
    | none => false
    | some A =>
      let h := scalarOf (Sha512.hash (R ++ key ++ message))
      ((Point.base.scale S).add (A.neg.scale h)).encode == R

end Airdrop.Signature
