import Airdrop.Proofs.Curve.Prime
import Mathlib.NumberTheory.LegendreSymbol.Basic

/-!
# Residues as a field

The residues that the curve is computed with are numbers below the prime. Their meaning is in `ZMod p`, a field.

* `cast_add`, `cast_sub`, `cast_mul`, `cast_pow` : the operations mean those of the field.
* `cast_inverse` : the inverse by exponentiation is the field's, by Fermat's theorem.
* `isSquare_iff` : the power of half the exponents tells the squares, by Euler's criterion.
-/

namespace Airdrop.Field

variable {a b n : Nat}

theorem p_pos : 0 < p := by decide

@[simp] theorem cast_add (a b : Nat) : ((add a b : Nat) : ZMod p) = a + b := by
  rw [add, ZMod.natCast_mod, Nat.cast_add]

@[simp] theorem cast_sub (a b : Nat) : ((sub a b : Nat) : ZMod p) = a - b := by
  have hle : b % p ≤ p := Nat.le_of_lt (Nat.mod_lt b p_pos)
  rw [sub, ZMod.natCast_mod, Nat.cast_add, Nat.cast_sub hle, ZMod.natCast_self, ZMod.natCast_mod, zero_sub,
    ← sub_eq_add_neg]

@[simp] theorem cast_mul (a b : Nat) : ((mul a b : Nat) : ZMod p) = a * b := by
  rw [mul, ZMod.natCast_mod, Nat.cast_mul]

theorem cast_pow (hn : n < 2 ^ 255) : ((pow a n : Nat) : ZMod p) = (a : ZMod p) ^ n := by
  rw [pow, powMod_eq p 255 a n hn, ZMod.natCast_mod, Nat.cast_pow]

/-- The inverse by exponentiation is the field's; that of zero is zero. -/
@[simp] theorem cast_inverse (a : Nat) : ((inverse a : Nat) : ZMod p) = (a : ZMod p)⁻¹ := by
  rw [inverse, cast_pow (by decide)]
  by_cases ha : (a : ZMod p) = 0
  · rw [ha, inv_zero, zero_pow (by decide)]
  · have hfermat : (a : ZMod p) ^ (p - 2) * a = 1 := by
      rw [← pow_succ]
      exact ZMod.pow_card_sub_one_eq_one ha
    exact eq_inv_of_mul_eq_one_left hfermat

theorem mul_lt (a b : Nat) : mul a b < p := Nat.mod_lt _ p_pos

theorem pow_lt (a n : Nat) : pow a n < p := by
  have hlt : ∀ (bits a n : Nat), powMod p bits a n < p := by
    intro bits
    induction bits with
    | zero => exact fun _ _ => Nat.mod_lt _ p_pos
    | succ bits ih =>
      intro a n
      rw [powMod]
      split
      · exact Nat.mod_lt _ p_pos
      · exact ih _ _
  exact hlt 255 a n

/-- Residues with one meaning are the same. -/
theorem cast_inj (ha : a < p) (hb : b < p) : (a : ZMod p) = b ↔ a = b := by
  rw [ZMod.natCast_eq_natCast_iff', Nat.mod_eq_of_lt ha, Nat.mod_eq_of_lt hb]

theorem cast_eq_zero_iff (ha : a < p) : (a : ZMod p) = 0 ↔ a = 0 := by
  rw [← Nat.cast_zero, cast_inj ha p_pos]

/-- The test of squares is exact. -/
theorem isSquare_iff (ha : a < p) : isSquare a = true ↔ IsSquare (a : ZMod p) := by
  have hpow : pow a ((p - 1) / 2) = 1 ↔ (a : ZMod p) ^ (p / 2) = 1 := by
    rw [← cast_inj (pow_lt _ _) (by decide), cast_pow (by decide), Nat.cast_one]
    exact Iff.rfl
  rw [isSquare, Bool.or_eq_true, beq_iff_eq, beq_iff_eq, hpow]
  by_cases hzero : (a : ZMod p) = 0
  · exact iff_of_true (Or.inl ((cast_eq_zero_iff ha).mp hzero)) (hzero ▸ IsSquare.zero)
  · rw [or_iff_right (mt (cast_eq_zero_iff ha).mpr hzero), ZMod.euler_criterion p hzero]

end Airdrop.Field
