import Airdrop.Curve.Point
import Airdrop.Proofs.Curve.Residue
import Mathlib.Data.ZMod.Basic
import Mathlib.Tactic.LinearCombination

/-!
# The equation of the curve

A byte string is tested by the square of the `x` that would belong to its `y`. The quotient that gives this square is
always defined: its denominator is zero only if the curve's constant is a square, since minus one is one.

* `denominator_ne_zero` : no `y` has a denominator that is zero.
* `isSquare_abscissa_iff` : some `x` belongs to `y` exactly if the quotient is a square.
* `ordinate_append` : the last bit of a byte string is no part of its `y`.
* `isOnCurve_exact` : the test decides the equation, all inverses that it takes are inverses, and the last bit does not
  matter.
-/

namespace Airdrop

namespace Field

/-- The constant is the quotient of minus 121665 and 121666. -/
theorem mul_d : (121666 : ZMod p) * d = -121665 := by
  have hminus : ((p - 121665 : Nat) : ZMod p) = -121665 := by
    rw [Nat.cast_sub (by decide), ZMod.natCast_self, zero_sub, Nat.cast_ofNat]
  have hne : ((121666 : Nat) : ZMod p) ≠ 0 := mt (cast_eq_zero_iff (by decide)).mp (by decide)
  rw [d, cast_mul, cast_inverse, hminus, mul_left_comm, ← Nat.cast_ofNat (n := 121666), mul_inv_cancel₀ hne, mul_one]

theorem not_isSquare_d : ¬IsSquare (d : ZMod p) := by
  have htest : isSquare d = false := by decide +kernel
  have hlt : d < p := mul_lt _ _
  rw [← isSquare_iff hlt, htest]
  exact Bool.false_ne_true

theorem isSquare_neg_one : IsSquare (-1 : ZMod p) := ZMod.exists_sq_eq_neg_one_iff.mpr (by decide)

/-- No denominator is zero, or the constant would be a square. -/
theorem denominator_ne_zero (y : ZMod p) : (d : ZMod p) * y ^ 2 + 1 ≠ 0 := by
  intro hzero
  have hy : y ≠ 0 := by
    rintro rfl
    rw [zero_pow two_ne_zero, mul_zero, zero_add] at hzero
    exact one_ne_zero hzero
  obtain ⟨i, hi⟩ := isSquare_neg_one
  have hd : (d : ZMod p) = (i / y) * (i / y) := by
    rw [div_mul_div_comm, ← hi, eq_div_iff (mul_ne_zero hy hy)]
    linear_combination hzero
  exact not_isSquare_d ⟨i / y, hd⟩

end Field

namespace Point

def IsOn (x y : Int) : Prop := -x ^ 2 + y ^ 2 ≡ 1 + Field.d * x ^ 2 * y ^ 2 [ZMOD Field.p]

def denominator (y : Nat) : Nat := Field.add (Field.mul Field.d (Field.mul y y)) 1

theorem cast_denominator (y : Nat) : (denominator y : ZMod Field.p) = Field.d * (y : ZMod Field.p) ^ 2 + 1 := by
  rw [denominator, Field.cast_add, Field.cast_mul, Field.cast_mul, Nat.cast_one, pow_two]

theorem mul_inverse_denominator (y : Nat) : Field.mul (denominator y) (Field.inverse (denominator y)) = 1 := by
  rw [← Field.cast_inj (Field.mul_lt _ _) (by decide), Field.cast_mul, Field.cast_inverse, cast_denominator,
    mul_inv_cancel₀ (Field.denominator_ne_zero _), Nat.cast_one]

theorem cast_abscissaSquared (y : Nat) : (abscissaSquared y : ZMod Field.p) =
    ((y : ZMod Field.p) ^ 2 - 1) / (Field.d * (y : ZMod Field.p) ^ 2 + 1) := by
  have heq : abscissaSquared y = Field.mul (Field.sub (Field.mul y y) 1) (Field.inverse (denominator y)) := rfl
  rw [heq, Field.cast_mul, Field.cast_sub, Field.cast_mul, Field.cast_inverse, cast_denominator, Nat.cast_one,
    ← pow_two, div_eq_mul_inv]

/-- Some `x` belongs to `y` exactly if the quotient is a square. -/
theorem isSquare_abscissa_iff (y : ZMod Field.p) : IsSquare ((y ^ 2 - 1) / (Field.d * y ^ 2 + 1)) ↔
    ∃ x : ZMod Field.p, -x ^ 2 + y ^ 2 = 1 + Field.d * x ^ 2 * y ^ 2 := by
  have hdenominator := Field.denominator_ne_zero y
  rw [isSquare_iff_exists_sq]
  refine exists_congr fun x => ?_
  rw [div_eq_iff hdenominator]
  constructor <;> intro h <;> linear_combination h

theorem exists_isOn_iff (y : Nat) : (∃ x : Int, IsOn x y) ↔
    ∃ x : ZMod Field.p, -x ^ 2 + (y : ZMod Field.p) ^ 2 = 1 + Field.d * x ^ 2 * (y : ZMod Field.p) ^ 2 := by
  have hcast (x : Int) : IsOn x y ↔ -(x : ZMod Field.p) ^ 2 + (y : ZMod Field.p) ^ 2 =
      1 + Field.d * (x : ZMod Field.p) ^ 2 * (y : ZMod Field.p) ^ 2 := by
    rw [IsOn, ← ZMod.intCast_eq_intCast_iff]
    push_cast
    exact Iff.rfl
  simp only [hcast]
  constructor
  · exact fun ⟨x, hx⟩ => ⟨x, hx⟩
  · rintro ⟨x, hx⟩
    obtain ⟨n, rfl⟩ := ZMod.intCast_surjective x
    exact ⟨n, hx⟩

/-! ## Byte strings -/

/-- The last bit of 32 bytes is no part of the `y` that they write. -/
theorem ordinate_append {front : Bytes} (hfront : front.length = 31) (last : UInt8) :
    ordinate (front ++ [last]) = Bytes.toNatLE front + 256 ^ 31 * (last.toNat % 128) := by
  have happend : ∀ bs : Bytes, Bytes.toNatLE (bs ++ [last]) = Bytes.toNatLE bs + 256 ^ bs.length * last.toNat := by
    intro bs
    induction bs with
    | nil => simp [Bytes.toNatLE]
    | cons b bs ih =>
      rw [List.cons_append, Bytes.toNatLE, ih, Bytes.toNatLE, List.length_cons, Nat.pow_succ]
      ring
  have hlt := Bytes.toNatLE_lt front
  rw [hfront] at hlt
  rw [ordinate, happend, hfront]
  omega

theorem toggle_mod (b : UInt8) : (b ^^^ 128).toNat % 128 = b.toNat % 128 := by
  rw [UInt8.toNat_xor, show 128 = 2 ^ 7 from rfl, Nat.xor_mod_two_pow]
  simp

end Point

open Point

/-- **The test decides the equation of the curve.** A byte string passes exactly if it has 32 bytes and some `x`
satisfies the equation with the `y` that they write, the last bit left out and reduced. Here the constant of the curve
is the one with 121666 times it minus 121665. The quotient that is computed has no denominator that is zero for any `y`,
and each inverse taken is one. The last bit of the last byte changes no answer. -/
theorem isOnCurve_exact :
    (∀ bs : Bytes, isOnCurve bs = true ↔
      bs.length = 32 ∧ ∃ x : Int, IsOn x (Bytes.toNatLE bs % 2 ^ 255 % (2 ^ 255 - 19) : Nat)) ∧
    121666 * (Field.d : Int) ≡ -121665 [ZMOD Field.p] ∧
    (∀ y : Int, ¬Field.d * y ^ 2 + 1 ≡ 0 [ZMOD Field.p]) ∧
    (∀ y : Nat, Field.mul (denominator y) (Field.inverse (denominator y)) = 1) ∧
    ∀ (front : Bytes) (last : UInt8), isOnCurve (front ++ [last ^^^ 128]) = isOnCurve (front ++ [last]) := by
  refine ⟨fun bs => ?_, ?_, fun y hzero => ?_, mul_inverse_denominator, fun front last => ?_⟩
  · have hlt : abscissaSquared (ordinate bs % Field.p) < Field.p := Field.mul_lt _ _
    rw [isOnCurve, Bool.and_eq_true, beq_iff_eq, Field.isSquare_iff hlt, cast_abscissaSquared, isSquare_abscissa_iff,
      ← exists_isOn_iff]
    exact Iff.rfl
  · rw [← ZMod.intCast_eq_intCast_iff]
    push_cast
    exact Field.mul_d
  · rw [← ZMod.intCast_eq_intCast_iff] at hzero
    push_cast at hzero
    exact Field.denominator_ne_zero y hzero
  · by_cases hfront : front.length = 31
    · rw [isOnCurve, isOnCurve, ordinate_append hfront, ordinate_append hfront, toggle_mod, List.length_append,
        List.length_append]
      rfl
    · have hlength (b : UInt8) : isOnCurve (front ++ [b]) = false := by
        rw [isOnCurve, List.length_append, List.length_singleton]
        simp [hfront]
      rw [hlength, hlength]

/-- Some `x` belongs to four and none to two, whatever the last bit is. -/
theorem isOnCurve_exact_four :
    (∃ x : Int, IsOn x 4) ∧ (¬∃ x : Int, IsOn x 2) ∧
      isOnCurve (2 :: List.replicate 30 0 ++ [0 ^^^ 128]) = isOnCurve (2 :: List.replicate 30 0 ++ [0]) := by
  obtain ⟨hexact, -, -, -, htoggle⟩ := isOnCurve_exact
  have hfour := hexact (4 :: List.replicate 31 0)
  have htwo := hexact (2 :: List.replicate 31 0)
  refine ⟨(hfour.mp (by decide +kernel)).2, fun hx => ?_, htoggle (2 :: List.replicate 30 0) 0⟩
  have hoff : isOnCurve (2 :: List.replicate 31 0) = false := by decide +kernel
  exact Bool.false_ne_true (hoff.symm.trans (htwo.mpr ⟨rfl, hx⟩))

end Airdrop
