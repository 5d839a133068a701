import Airdrop.Proofs.Outcome
import Airdrop.Proofs.Text.Split
import Airdrop.Url
import Mathlib.Data.List.TakeDrop

/-!
# Where the query of a link begins

* `isFrontChar` : the characters that may stand in front of a query whatever they mean there: as a scheme, an authority
  or a path.
* `clean_front`, `afterScheme_front`, `splitAuthority_front` : each step of taking a link apart takes something away
  from its front and leaves the query as it is.
* `query_front` : the query is what follows the question mark.
-/

namespace Airdrop.Url

open Text (dropWhile_front takeWhile_front)

/-- A character of ASCII that neither ends the front of a link nor is a bracket. -/
def isFrontChar (c : Char) : Bool := c.toNat < 128 && !"?#[]".toList.contains c

theorem clean_front (front : List Char) {q : List Char} (hq : ∀ c ∈ ['\t', '\r', '\n'], c ∉ q) :
    ∃ rest, rest ⊆ front ∧ clean (front ++ '?' :: q) = rest ++ '?' :: q := by
  let keeps (c : Char) : Bool := c != '\t' && c != '\r' && c != '\n'
  have hkeep : q.filter keeps = q := by
    rw [List.filter_eq_self]
    intro c hc
    have hne : ∀ x ∈ ['\t', '\r', '\n'], c ≠ x := by
      rintro x hx rfl
      exact hq c hx hc
    simp only [List.mem_cons, List.not_mem_nil, or_false, forall_eq_or_imp, forall_eq] at hne
    simp [keeps, hne]
  refine ⟨(front.dropWhile fun c => c.toNat ≤ 0x20).filter keeps, ?_, ?_⟩
  · exact fun c hc => (List.dropWhile_suffix _).subset (List.mem_filter.mp hc).1
  · unfold clean
    rw [dropWhile_front (by decide), List.filter_append, List.filter_cons_of_pos (by decide)]
    exact congrArg (fun cs => _ ++ '?' :: cs) hkeep

theorem afterScheme_front (front : List Char) {q : List Char} (hq : ':' ∉ q) :
    ∃ rest, rest ⊆ front ∧ afterScheme (front ++ '?' :: q) = rest ++ '?' :: q := by
  unfold afterScheme
  by_cases hcolon : ':' ∈ front
  · obtain ⟨before, after, rfl, hbefore⟩ := List.eq_append_cons_of_mem hcolon
    rw [List.append_assoc, List.cons_append, Text.cut?_append hbefore]
    split
    · next c scheme rest heq =>
      obtain ⟨-, rfl⟩ := Prod.mk.inj (Option.some.inj heq)
      split
      · exact ⟨after, fun y hy => List.mem_append_right _ (List.mem_cons_of_mem _ hy), rfl⟩
      · exact ⟨before ++ ':' :: after, List.Subset.refl _, by simp⟩
    · exact ⟨before ++ ':' :: after, List.Subset.refl _, by simp⟩
  · have hnone : Text.cut? ':' (front ++ '?' :: q) = none := by
      refine Text.cut?_eq_none ?_
      simp [hcolon, hq]
    rw [hnone]
    exact ⟨front, List.Subset.refl _, rfl⟩

theorem splitAuthority_front (front q : List Char) : ∃ authority rest, authority ⊆ front ∧ rest ⊆ front ∧
    splitAuthority (front ++ '?' :: q) = (authority, rest ++ '?' :: q) := by
  let inside (c : Char) : Bool := c != '/' && c != '?' && c != '#'
  unfold splitAuthority
  split
  · next cs heq =>
    -- The question mark is no slash, so both slashes stand in the front.
    obtain ⟨rest, rfl, rfl⟩ : ∃ rest, front = '/' :: '/' :: rest ∧ cs = rest ++ '?' :: q := by
      match front, heq with
      | [], heq => exact absurd (List.cons.inj heq).1 (by decide)
      | [_], heq => exact absurd (List.cons.inj (List.cons.inj heq).2).1 (by decide)
      | _ :: _ :: rest, heq =>
        simp only [List.cons_append, List.cons.injEq] at heq
        obtain ⟨rfl, rfl, rfl⟩ := heq
        exact ⟨rest, rfl, rfl⟩
    have hrest : rest ⊆ '/' :: '/' :: rest := fun y hy => List.mem_cons_of_mem _ (List.mem_cons_of_mem _ hy)
    refine ⟨rest.takeWhile inside, rest.dropWhile inside, ?_, ?_, ?_⟩
    · exact List.Subset.trans (List.takeWhile_prefix _).subset hrest
    · exact List.Subset.trans (List.dropWhile_suffix _).subset hrest
    · rw [List.span_eq_takeWhile_dropWhile, takeWhile_front (by decide), dropWhile_front (by decide)]
  · exact ⟨[], front, List.nil_subset _, List.Subset.refl _, rfl⟩

theorem checkAuthority_front {authority : List Char} (h : ∀ c ∈ authority, isFrontChar c = true) :
    checkAuthority authority = .ok () := by
  have hbracket : ∀ x ∈ ['[', ']'], authority.contains x = false := by
    intro x hx
    have hno : isFrontChar x = false := by
      simp only [List.mem_cons, List.not_mem_nil, or_false] at hx
      rcases hx with rfl | rfl <;> decide
    rw [List.contains_eq_mem, decide_eq_false_iff_not]
    intro hmem
    rw [h x hmem] at hno
    exact Bool.false_ne_true hno.symm
  have hforms : ∀ n ∈ delimiterForms, 128 ≤ n := by decide
  have hplain : authority.any (fun c => delimiterForms.contains c.toNat) = false := by
    rw [List.any_eq_false]
    intro c hc hform
    have hascii := h c hc
    have hbeyond := hforms c.toNat (by simpa using hform)
    simp [isFrontChar] at hascii
    omega
  unfold checkAuthority checkBrackets
  rw [hbracket '[' (by simp), hbracket ']' (by simp), hplain]
  rfl

/-- The query of a link is what follows the question mark, whatever its front means. -/
theorem query_front {front q : List Char} (hfront : ∀ c ∈ front, isFrontChar c = true)
    (hq : ∀ c ∈ ['\t', '\r', '\n', ':', '#'], c ∉ q) : query (front ++ '?' :: q) = .ok q := by
  obtain ⟨cleaned, hcleaned, hclean⟩ := clean_front front (q := q) fun c hc => hq c (by
    simp only [List.mem_cons, List.not_mem_nil, or_false] at hc ⊢
    tauto)
  obtain ⟨rest, hrest, hscheme⟩ := afterScheme_front cleaned (hq ':' (by decide))
  obtain ⟨authority, path, hauthority, hpath, hsplit⟩ := splitAuthority_front rest q
  have hpathFront : ∀ c ∈ path, isFrontChar c = true := fun c hc => hfront c (hcleaned (hrest (hpath hc)))
  have hnot : ∀ x, isFrontChar x = false → x ∉ path := by
    intro x hx hmem
    rw [hpathFront x hmem] at hx
    exact Bool.false_ne_true hx.symm
  have hhash : '#' ∉ path ++ '?' :: q := by
    have hp := hnot '#' (by decide)
    have hown := hq '#' (by decide)
    simp [hp, hown]
  unfold query
  rw [hclean, hscheme, hsplit]
  simp only [checkAuthority_front fun c hc => hfront c (hcleaned (hrest (hauthority hc)))]
  rw [Text.before_eq_self hhash, Text.cut?_append (hnot '?' (by decide))]
  rfl

end Airdrop.Url
