import Airdrop.Number.Power
import Airdrop.Number.Radix
import Mathlib.Data.Nat.Digits.Lemmas

/-!
# Numerals and their numbers

* `digits_eq`, `value_eq` : digits and values are those of the library, whose digits come least significant first.
* `value_digits` : the digits of a number write it.
* `digits_value` : digits without a leading zero are those of the number that they write.
* `exists_digits` : the digits of decimal text.
* `isLong_iff` : an integer is long if its magnitude has more digits than `maxDigits`.
-/

namespace Airdrop.Radix

variable {base : Nat}

theorem digitsFrom_eq (hb : 1 < base) : ∀ fuel n : Nat, n < 2 ^ fuel → digitsFrom base fuel n = Nat.digits base n := by
  intro fuel
  induction fuel with
  | zero =>
    intro n hn
    obtain rfl : n = 0 := Nat.lt_one_iff.mp hn
    rw [digitsFrom, Nat.digits_zero]
  | succ fuel ih =>
    intro n hn
    rw [digitsFrom]
    split
    · next h0 => rw [h0, Nat.digits_zero]
    · next h0 =>
      have hdiv : n / base < 2 ^ fuel := by
        have hle : n / base ≤ n / 2 := Nat.div_le_div_left hb (by decide)
        rw [Nat.pow_succ] at hn
        omega
      rw [Nat.digits_def' hb (Nat.pos_of_ne_zero h0), ih _ hdiv]

theorem digits_eq (hb : 1 < base) (n : Nat) : digits base n = Nat.digits base n :=
  digitsFrom_eq hb _ n Nat.lt_log2_self

theorem value_eq (ds : List Nat) : value base ds = Nat.ofDigits base ds.reverse := by
  unfold value
  induction ds using List.reverseRecOn with
  | nil => rfl
  | append_singleton ds d ih =>
    rw [List.foldl_append, List.foldl_cons, List.foldl_nil, ih, List.reverse_append, List.reverse_singleton,
      List.singleton_append, Nat.ofDigits_cons]
    rw [Nat.mul_comm, Nat.add_comm]

theorem value_digits (hb : 1 < base) (n : Nat) : value base (digits base n).reverse = n := by
  rw [value_eq, List.reverse_reverse, digits_eq hb, Nat.ofDigits_digits]

theorem lt_of_mem_digits (hb : 1 < base) {n d : Nat} (hd : d ∈ digits base n) : d < base := by
  rw [digits_eq hb] at hd
  exact Nat.digits_lt_base hb hd

/-- The most significant digit is not zero. -/
theorem head_reverse_digits_ne_zero (hb : 1 < base) (n : Nat) : ∀ d ∈ (digits base n).reverse.head?, d ≠ 0 := by
  intro d hd
  rw [List.head?_reverse, Option.mem_def, digits_eq hb] at hd
  have hn : n ≠ 0 := by
    rintro rfl
    rw [Nat.digits_zero] at hd
    exact nomatch hd
  rw [List.getLast?_eq_some_getLast (Nat.digits_ne_nil_iff_ne_zero.mpr hn)] at hd
  exact Option.some.inj hd ▸ Nat.getLast_digit_ne_zero base hn

theorem digits_value (hb : 1 < base) {ds : List Nat} (hds : ∀ d ∈ ds, d < base) (hhead : ∀ d ∈ ds.head?, d ≠ 0) :
    (digits base (value base ds)).reverse = ds := by
  rw [digits_eq hb, value_eq, Nat.digits_ofDigits base hb _ (fun d hd => hds d (List.mem_reverse.mp hd)) ?_,
    List.reverse_reverse]
  intro hne
  refine hhead _ ?_
  rw [List.getLast_reverse, Option.mem_def, List.head?_eq_some_head]

/-- Decimal text is written with digits, without a leading zero unless it is the only one. -/
theorem exists_digits (n : Nat) : ∃ ds : List Nat, decimal n = ds.map digitChar ∧ ds ≠ [] ∧
    (∀ d ∈ ds, d < 10) ∧ (ds.length > 1 → ds.head? ≠ some 0) ∧ value 10 ds = n := by
  unfold decimal
  by_cases h0 : n = 0
  · rw [if_pos h0]
    exact ⟨[0], rfl, by simp, by simp, by simp, h0.symm⟩
  · rw [if_neg h0]
    have hvalue : value 10 (digits 10 n).reverse = n := value_digits (by decide) n
    refine ⟨_, rfl, ?_, fun d hd => lt_of_mem_digits (by decide) (List.mem_reverse.mp hd), fun _ hzero => ?_,
      hvalue⟩
    · intro hnil
      rw [hnil] at hvalue
      exact h0 hvalue.symm
    · exact head_reverse_digits_ne_zero (by decide) n 0 hzero rfl

theorem integer_ne_nil : ∀ n : Int, integer n ≠ []
  | .ofNat n => by
    obtain ⟨ds, htext, hne, -⟩ := exists_digits n
    rw [integer, htext]
    simpa using hne
  | .negSucc n => List.cons_ne_nil _ _

/-! ## Long integers -/

theorem length_decimal_le_iff {n k : Nat} (hk : 0 < k) : (decimal n).length ≤ k ↔ n < 10 ^ k := by
  unfold decimal
  split
  · next h0 =>
    rw [h0]
    exact iff_of_true hk (Nat.pow_pos (by decide))
  · rw [List.length_map, List.length_reverse, digits_eq (by decide)]
    exact Nat.digits_length_le_iff (by decide) n

theorem isLong_iff {n : Int} : isLong n = true ↔ 10 ^ maxDigits ≤ n.natAbs := by
  rw [isLong, decide_eq_true_iff, ← Nat.not_le, length_decimal_le_iff (by decide), Nat.not_lt]

theorem isLong_eq_false_iff {n : Int} : isLong n = false ↔ n.natAbs < 10 ^ maxDigits := by
  rw [← Bool.not_eq_true, isLong_iff, Nat.not_le]

/-- Numbers of 64 bits and of far more are not long. -/
theorem isLong_of_lt {n : Int} {k : Nat} (h : n.natAbs < 2 ^ k) (hk : k ≤ maxDigits) : isLong n = false := by
  have hpow : 2 ^ k ≤ 2 ^ maxDigits := Nat.pow_le_pow_right (by decide) hk
  exact isLong_eq_false_iff.mpr (Nat.lt_of_lt_of_le h (hpow.trans (Nat.pow_le_pow_left (by decide) _)))

theorem isLong_ten_pow {k : Nat} (hk : maxDigits ≤ k) : isLong ((10 ^ k : Nat) : Int) = true :=
  isLong_iff.mpr (Nat.pow_le_pow_right (by decide) hk)

theorem integerText?_of_isLong {n : Int} (h : isLong n = true) : integerText? n = none := if_pos h

theorem integerText?_eq_some {n : Int} (h : isLong n = false) :
    integerText? n = some (String.ofList (integer n)) := by
  rw [integerText?, h]
  rfl

end Airdrop.Radix
