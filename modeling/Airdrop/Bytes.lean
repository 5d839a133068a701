import Airdrop.Number.Power

/-!
# Byte strings

* `Bytes` : a list of octets.
* `Bytes.ofNatLE`, `Bytes.toNatLE` : an unsigned number in a fixed width, least significant byte first
  (`toNatLE_ofNatLE`, `ofNatLE_toNatLE`).
* `Bytes.ofNatBE`, `Bytes.toNatBE` : the same, most significant byte first.
* `Bytes.chunks` : a list cut into pieces of one length.
-/

namespace Airdrop

abbrev Bytes := List UInt8

namespace Bytes

/-- The low `width` bytes of a number, least significant first. -/
def ofNatLE : (width : Nat) → Nat → Bytes
  | 0, _ => []
  | width + 1, n => UInt8.ofNat n :: ofNatLE width (n / 256)

/-- The number a byte string writes, least significant byte first. -/
def toNatLE : Bytes → Nat
  | [] => 0
  | b :: bs => b.toNat + 256 * toNatLE bs

/-- The low `width` bytes of a number, most significant first. -/
def ofNatBE (width n : Nat) : Bytes := (ofNatLE width n).reverse

/-- The number a byte string writes, most significant byte first. -/
def toNatBE (bs : Bytes) : Nat := toNatLE bs.reverse

/-- The first `count` pieces of `width` elements each. -/
def chunks {α : Type} (width : Nat) : (count : Nat) → List α → List (List α)
  | 0, _ => []
  | count + 1, xs => xs.take width :: chunks width count (xs.drop width)

@[simp] theorem length_ofNatLE : ∀ width n : Nat, (ofNatLE width n).length = width
  | 0, _ => rfl
  | width + 1, n => by simp [ofNatLE, length_ofNatLE width]

@[simp] theorem length_ofNatBE (width n : Nat) : (ofNatBE width n).length = width := by simp [ofNatBE]

theorem toNatLE_lt : ∀ bs : Bytes, toNatLE bs < 256 ^ bs.length
  | [] => by simp [toNatLE]
  | b :: bs => by
    have ih := toNatLE_lt bs
    have hb : b.toNat < 256 := b.toNat_lt
    simp only [toNatLE, List.length_cons, Nat.pow_succ]
    omega

theorem toNatLE_ofNatLE : ∀ {width n : Nat}, n < 256 ^ width → toNatLE (ofNatLE width n) = n
  | 0, n, h => by simp at h; simp [ofNatLE, toNatLE, h]
  | width + 1, n, h => by
    have h' : n / 256 < 256 ^ width := by
      rw [Nat.pow_succ] at h
      exact Nat.div_lt_of_lt_mul (by omega)
    simp only [ofNatLE, toNatLE, toNatLE_ofNatLE h', UInt8.toNat_ofNat']
    omega

theorem ofNatLE_toNatLE : ∀ bs : Bytes, ofNatLE bs.length (toNatLE bs) = bs
  | [] => rfl
  | b :: bs => by
    have hb : b.toNat < 256 := b.toNat_lt
    simp only [List.length_cons, ofNatLE, toNatLE]
    rw [show (b.toNat + 256 * toNatLE bs) / 256 = toNatLE bs by omega, ofNatLE_toNatLE bs]
    congr 1
    apply UInt8.toNat_inj.1
    simp only [UInt8.toNat_ofNat']
    omega

end Bytes
end Airdrop
