import Airdrop.Text.Units
import Mathlib.Data.List.Lex

/-!
# Texts by their UTF-16 units

* `units16_injective` : different texts have different units, for the first unit of a character tells whether it has
  another one.
* `unitsLess_iff` : the order of texts is the lexicographic order of their units.
-/

namespace Airdrop.Text

theorem unitsLess_iff : ∀ as bs : List Nat, unitsLess as bs = true ↔ as < bs
  | [], [] => by simp [unitsLess]
  | [], b :: bs => by simp [unitsLess]
  | a :: as, [] => by simp [unitsLess]
  | a :: as, b :: bs => by
    have ih := unitsLess_iff as bs
    rw [List.cons_lt_cons_iff, unitsLess, ← ih]
    simp

/-- The units of a character are read off the front of a text. -/
theorem units16Char_append_inj {c d : Char} {rest rest' : List Nat}
    (h : units16Char c ++ rest = units16Char d ++ rest') : c = d ∧ rest = rest' := by
  have hc : c.toNat < 0xD800 ∨ 0xDFFF < c.toNat ∧ c.toNat < 0x110000 := c.valid
  have hd : d.toNat < 0xD800 ∨ 0xDFFF < d.toNat ∧ d.toNat < 0x110000 := d.valid
  have hsame : c.toNat = d.toNat → c = d := fun hn => Char.toNat_inj.mp hn
  unfold units16Char at h
  simp only at h
  split at h <;> split at h
  · obtain ⟨hn, hrest⟩ := List.cons.inj h
    exact ⟨hsame hn, hrest⟩
  · have hn := (List.cons.inj h).1
    omega
  · have hn := (List.cons.inj h).1
    omega
  · obtain ⟨hhigh, h⟩ := List.cons.inj h
    obtain ⟨hlow, hrest⟩ := List.cons.inj h
    exact ⟨hsame (by omega), hrest⟩

theorem units16Char_ne_nil (c : Char) : units16Char c ≠ [] := by
  unfold units16Char
  simp only
  split <;> simp

/-- Different texts have different units. -/
theorem units16_injective : Function.Injective units16 := by
  intro cs
  induction cs with
  | nil =>
    intro ds h
    cases ds with
    | nil => rfl
    | cons d ds => exact absurd (List.append_eq_nil_iff.mp h.symm).1 (units16Char_ne_nil d)
  | cons c cs ih =>
    intro ds h
    cases ds with
    | nil => exact absurd (List.append_eq_nil_iff.mp h).1 (units16Char_ne_nil c)
    | cons d ds =>
      obtain ⟨rfl, hrest⟩ := units16Char_append_inj h
      rw [ih hrest]

end Airdrop.Text
