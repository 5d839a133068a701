import Airdrop.Curve.Field
import Mathlib.Data.List.Prime
import Mathlib.NumberTheory.LucasPrimality
import Mathlib.Tactic.NormNum.Prime

/-!
# The modulus of the field is prime

Lucas's test shows that a number is prime by a base of full order; the order is seen from the prime factors of the
number's predecessor. The large ones among these factors are shown prime in the same way.

* `powMod_eq` : square and multiply gives the power, if the exponent has no more bits than it looks at.
* `Certificate.prime_of_passes` : the test of one number. `prime_of_check` : the tests of a list of numbers, of which
  the later ones have the earlier ones as factors of their predecessors.
* `prime_p` : the modulus is prime.
-/

namespace Airdrop.Field

theorem powMod_eq (m : Nat) : ∀ (bits a n : Nat), n < 2 ^ bits → powMod m bits a n = a ^ n % m
  | 0, a, n, hn => by
    obtain rfl : n = 0 := Nat.lt_one_iff.mp hn
    rfl
  | bits + 1, a, n, hn => by
    have hhalf : n / 2 < 2 ^ bits := by
      rw [Nat.pow_succ] at hn
      omega
    have hsquares : (a * a % m) ^ (n / 2) % m = a ^ (2 * (n / 2)) % m := by
      rw [← Nat.pow_mod, Nat.pow_mul, Nat.pow_two]
    rw [powMod, powMod_eq m bits _ _ hhalf, hsquares]
    rcases Nat.mod_two_eq_zero_or_one n with heven | hodd
    · rw [if_neg (by omega), show 2 * (n / 2) = n by omega]
    · rw [if_pos hodd, Nat.mod_mul_mod, ← Nat.pow_succ, show (2 * (n / 2)).succ = n by omega]

/-! ## Lucas's test -/

/-- A number, a base, and the prime factors of the number's predecessor. -/
structure Certificate where
  number : Nat
  base : Nat
  factors : List Nat

/-- The base has full order, and the factors are known. -/
def Certificate.passes (known : List Nat) (e : Certificate) : Bool :=
  1 < e.number && e.number < 2 ^ 255 && e.factors.prod == e.number - 1 && e.factors.all known.contains &&
    powMod e.number 255 e.base (e.number - 1) == 1 &&
    e.factors.all fun q => powMod e.number 255 e.base ((e.number - 1) / q) != 1

/-- Every certificate passes when the numbers of the ones before it are known. -/
def check : (known : List Nat) → List Certificate → Bool
  | _, [] => true
  | known, e :: es => e.passes known && check (e.number :: known) es

theorem pow_eq_one_iff {m a n : Nat} (hm : 1 < m) (hn : n < 2 ^ 255) :
    (a : ZMod m) ^ n = 1 ↔ powMod m 255 a n = 1 := by
  rw [powMod_eq m 255 a n hn, ← Nat.cast_pow, ← Nat.cast_one, ZMod.natCast_eq_natCast_iff',
    Nat.one_mod_eq_one.mpr (by omega)]

theorem Certificate.prime_of_passes {known : List Nat} {e : Certificate} (hknown : ∀ q ∈ known, q.Prime)
    (h : e.passes known = true) : e.number.Prime := by
  simp only [passes, Bool.and_eq_true, decide_eq_true_eq, List.all_eq_true, beq_iff_eq, bne_iff_ne,
    List.contains_iff_mem] at h
  obtain ⟨⟨⟨⟨⟨hone, hbound⟩, hprod⟩, hfactors⟩, hpow⟩, hpows⟩ := h
  refine lucas_primality e.number (e.base : ZMod e.number) ?_ fun q hq hdvd => ?_
  · exact (pow_eq_one_iff hone (by omega)).mpr hpow
  · -- A prime that divides the product of the factors is one of them.
    rw [← hprod] at hdvd
    obtain ⟨r, hr, hqr⟩ := (Nat.Prime.prime hq).dvd_prod_iff.mp hdvd
    obtain rfl : q = r := (Nat.prime_dvd_prime_iff_eq hq (hknown r (hfactors r hr))).mp hqr
    have hsmall : (e.number - 1) / q < 2 ^ 255 := Nat.lt_of_le_of_lt (Nat.div_le_self _ _) (by omega)
    exact fun hno => hpows q hr ((pow_eq_one_iff hone hsmall).mp hno)

theorem prime_of_check : ∀ {known : List Nat} {es : List Certificate}, (∀ q ∈ known, q.Prime) → check known es = true →
    ∀ e ∈ es, e.number.Prime
  | _, [], _, _, _, hno => absurd hno List.not_mem_nil
  | known, e :: es, hknown, h, e', he' => by
    rw [check, Bool.and_eq_true] at h
    have he := e.prime_of_passes hknown h.1
    rcases List.mem_cons.mp he' with rfl | he'
    · exact he
    · exact prime_of_check (List.forall_mem_cons.mpr ⟨he, hknown⟩) h.2 e' he'

/-! ## The modulus -/

/-- The factors that trial division shows to be prime. -/
def smallFactors : List Nat :=
  [2, 3, 5, 7, 13, 19, 31, 47, 107, 127, 223, 353, 2437, 4153, 57467, 65147, 75707, 132049, 430751, 569003, 1923133,
    8574133]

/-- The larger factors, and the modulus at the end. -/
def certificates : List Certificate :=
  [⟨2773320623, 5, [2, 2437, 569003]⟩,
    ⟨72106336199, 7, [2, 13, 2773320623]⟩,
    ⟨1919519569386763, 2, [2, 3, 7, 19, 47, 47, 127, 8574133]⟩,
    ⟨31757755568855353, 10, [2, 2, 2, 3, 31, 107, 223, 4153, 430751]⟩,
    ⟨75445702479781427272750846543864801, 7,
      [2, 2, 2, 2, 2, 3, 3, 5, 5, 75707, 72106336199, 1919519569386763]⟩,
    ⟨74058212732561358302231226437062788676166966415465897661863160754340907, 2,
      [2, 3, 353, 57467, 132049, 1923133, 31757755568855353, 75445702479781427272750846543864801]⟩,
    ⟨p, 2, [2, 2, 3, 65147, 74058212732561358302231226437062788676166966415465897661863160754340907]⟩]

theorem prime_smallFactors : ∀ q ∈ smallFactors, q.Prime := by
  simp only [smallFactors, List.forall_mem_cons]
  norm_num

theorem prime_certificates : ∀ e ∈ certificates, e.number.Prime := prime_of_check prime_smallFactors (by decide +kernel)

/-- The modulus is the last of the certified numbers. -/
theorem prime_p : p.Prime := prime_certificates (certificates.getLast (by simp [certificates])) (List.getLast_mem _)

instance : Fact p.Prime := ⟨prime_p⟩

end Airdrop.Field
