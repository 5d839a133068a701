import Airdrop.Text.Blank
import Mathlib.Data.List.DropRight

/-!
# Texts without blanks at their ends

`trimRight_of_forall`, `trim_of_forall` : a text none of whose characters is a blank stays as it is.
-/

namespace Airdrop.Text

theorem trimRight_eq (p : Char → Bool) (cs : List Char) : trimRight p cs = cs.rdropWhile p := rfl

theorem trimRight_of_forall {p : Char → Bool} {cs : List Char} (h : ∀ c ∈ cs, p c = false) :
    trimRight p cs = cs := by
  rw [trimRight_eq, List.rdropWhile_eq_self_iff]
  exact fun hne => Bool.eq_false_iff.mp (h _ (List.getLast_mem hne))

theorem trim_of_forall {p : Char → Bool} {cs : List Char} (h : ∀ c ∈ cs, p c = false) : trim p cs = cs := by
  have hfront : cs.dropWhile p = cs := by
    cases cs with
    | nil => rfl
    | cons c cs => exact List.dropWhile_cons_of_neg (by simp [h c List.mem_cons_self])
  unfold trim
  rw [hfront, trimRight_of_forall h]

end Airdrop.Text
