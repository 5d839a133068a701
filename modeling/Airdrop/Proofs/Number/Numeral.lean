import Airdrop.Number.Numeral
import Airdrop.Proofs.Number.Radix
import Airdrop.Proofs.Text.Blank

/-!
# Integers are read back from their decimal text

`read_integer` : the text of an integer is read as that integer, unless it is too long.
-/

namespace Airdrop.Numeral

theorem digit?_digitChar : ∀ d < 10, Text.digit? (Radix.digitChar d) = some d := by decide

/-- No decimal digit is a blank, a sign or an underscore. -/
theorem digitChar_ne : ∀ d < 10, isMargin (Radix.digitChar d) = false ∧ Radix.digitChar d ≠ '-' ∧
    Radix.digitChar d ≠ '+' ∧ Radix.digitChar d ≠ '_' := by decide

theorem more?_digits : ∀ (ds : List Nat) (n : Nat), (∀ d ∈ ds, d < 10) →
    more? Text.digit? n (ds.map Radix.digitChar) = some (ds.foldl (fun n d => n * 10 + d) n)
  | [], _, _ => rfl
  | d :: ds, n, h => by
    have hd := h d List.mem_cons_self
    have ih := more?_digits ds (n * 10 + d) fun e he => h e (List.mem_cons_of_mem d he)
    rw [List.map_cons, more?, digit?_digitChar d hd, Option.bind_some, Nat.mul_comm, ih, List.foldl_cons]
    intro c rest hno
    exact absurd hno (digitChar_ne d hd).2.2.2

theorem grouped?_decimal (n : Nat) : grouped? Text.digit? (Radix.decimal n) = some n := by
  obtain ⟨ds, hds, hne, hlt, -, hvalue⟩ := Radix.exists_digits n
  rw [hds]
  cases ds with
  | nil => exact absurd rfl hne
  | cons d ds =>
    have hmore := more?_digits ds d fun e he => hlt e (List.mem_cons_of_mem d he)
    rw [List.map_cons, grouped?, digit?_digitChar d (hlt d List.mem_cons_self), Option.bind_some, hmore]
    simpa [Radix.value] using hvalue

theorem isMargin_of_mem_decimal (n : Nat) : ∀ c ∈ Radix.decimal n, isMargin c = false := by
  obtain ⟨ds, hds, -, hlt, -⟩ := Radix.exists_digits n
  intro c hc
  rw [hds] at hc
  obtain ⟨d, hd, rfl⟩ := List.mem_map.mp hc
  exact (digitChar_ne d (hlt d hd)).1

/-- Without a sign, a number is what its digits write. -/
theorem signed?_decimal (n : Nat) : signed? (grouped? Text.digit?) (Radix.decimal n) = some (n : Int) := by
  have hgrouped := grouped?_decimal n
  obtain ⟨ds, hds, hne, hlt, -⟩ := Radix.exists_digits n
  cases ds with
  | nil => exact absurd rfl hne
  | cons d ds =>
    obtain ⟨-, hminus, hplus, -⟩ := digitChar_ne d (hlt d List.mem_cons_self)
    rw [hds, List.map_cons] at hgrouped ⊢
    rw [signed?, hgrouped]
    · rfl
    · intro cs hno
      exact hminus (List.cons.inj hno).1
    · intro cs hno
      exact hplus (List.cons.inj hno).1

theorem frontDigits_decimal (n : Nat) : frontDigits (Radix.decimal n) = (Radix.decimal n).length := by
  have hgrouped := grouped?_decimal n
  obtain ⟨ds, hds, -, hlt, -⟩ := Radix.exists_digits n
  have hdigit : ∀ c ∈ Radix.decimal n, (Text.digit? c).isSome = true ∧ (c != '_') = true := by
    intro c hc
    rw [hds] at hc
    obtain ⟨d, hd, rfl⟩ := List.mem_map.mp hc
    exact ⟨by rw [digit?_digitChar d (hlt d hd)]; rfl, bne_iff_ne.mpr (digitChar_ne d (hlt d hd)).2.2.2⟩
  have hrun : (Radix.decimal n).takeWhile (fun c => (Text.digit? c).isSome || c == '_') = Radix.decimal n :=
    List.takeWhile_eq_self_iff.mpr fun c hc => by rw [(hdigit c hc).1, Bool.true_or]
  rw [frontDigits, hrun, hgrouped, Option.isSome_some, if_pos rfl,
    List.filter_eq_self.mpr fun c hc => (hdigit c hc).2]

theorem unsigned_decimal (n : Nat) : unsigned (Radix.decimal n) = Radix.decimal n := by
  obtain ⟨ds, hds, hne, hlt, -⟩ := Radix.exists_digits n
  cases ds with
  | nil => exact absurd rfl hne
  | cons d ds =>
    obtain ⟨-, hminus, hplus, -⟩ := digitChar_ne d (hlt d List.mem_cons_self)
    rw [hds, List.map_cons, unsigned]
    · intro cs hno
      exact hminus (List.cons.inj hno).1
    · intro cs hno
      exact hplus (List.cons.inj hno).1

theorem unsigned_integer (n : Int) : unsigned (Radix.integer n) = Radix.decimal n.natAbs := by
  cases n with
  | ofNat n => exact unsigned_decimal n
  | negSucc n => rfl

theorem isMargin_of_mem_integer (n : Int) : ∀ c ∈ Radix.integer n, isMargin c = false := by
  cases n with
  | ofNat n => exact isMargin_of_mem_decimal n
  | negSucc n =>
    intro c hc
    rcases List.mem_cons.mp hc with rfl | hc
    · decide
    · exact isMargin_of_mem_decimal (n + 1) c hc

theorem signed?_integer (n : Int) : signed? (grouped? Text.digit?) (Radix.integer n) = some n := by
  cases n with
  | ofNat n => exact signed?_decimal n
  | negSucc n =>
    rw [Radix.integer, signed?, grouped?_decimal]
    rfl

/-- An integer is read back from its decimal text unless it is too long, and then the text is refused for that. -/
theorem read_integer (n : Int) :
    read (Radix.integer n) =
      if Radix.isLong n then .error (.tooLong (Radix.decimal n.natAbs).length) else .ok n := by
  simp only [read, Text.trim_of_forall (isMargin_of_mem_integer n), unsigned_integer, frontDigits_decimal,
    signed?_integer, Radix.isLong, decide_eq_true_eq]

end Airdrop.Numeral
