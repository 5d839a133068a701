import Airdrop.Text.Split
import Mathlib.Data.List.TakeWhile

/-!
# Cutting texts and putting them together

* `dropWhile_front`, `takeWhile_front` : a run of characters ends at a character that does not belong to it.
* `cut?_append` : a text is cut at the first separator.
* `join_append` : two lists of pieces are put together with a separator between them.
* `split_intercalate`, `split_join` : pieces without the separator, put together, are cut apart again.
* `not_mem_of_mem_split` : the pieces of any text have no separator.
-/

namespace Airdrop.Text

variable {separator : Char}

/-! ## At the end of a run -/

section
variable {p : Char → Bool} {x : Char}

theorem dropWhile_front (hx : p x = false) (front q : List Char) :
    (front ++ x :: q).dropWhile p = front.dropWhile p ++ x :: q := by
  rw [List.dropWhile_append]
  split
  · next hempty => rw [List.isEmpty_iff.mp hempty, List.dropWhile_cons_of_neg (by simp [hx]), List.nil_append]
  · rfl

theorem takeWhile_front (hx : p x = false) (front q : List Char) :
    (front ++ x :: q).takeWhile p = front.takeWhile p := by
  rw [List.takeWhile_append, List.takeWhile_cons_of_neg (by simp [hx]), List.append_nil]
  split
  · next hall => exact (List.takeWhile_prefix p).eq_of_length hall |>.symm
  · rfl

end

/-! ## At the first separator -/

theorem cut?_append {front : List Char} (hfront : separator ∉ front) (cs : List Char) :
    cut? separator (front ++ separator :: cs) = some (front, cs) := by
  induction front with
  | nil => exact if_pos rfl
  | cons c front ih =>
    rw [List.mem_cons, not_or] at hfront
    rw [List.cons_append, cut?, if_neg fun hc => hfront.1 hc.symm, ih hfront.2]
    rfl

theorem cut?_eq_none {cs : List Char} (hcs : separator ∉ cs) : cut? separator cs = none := by
  induction cs with
  | nil => rfl
  | cons c cs ih =>
    rw [List.mem_cons, not_or] at hcs
    rw [cut?, if_neg fun hc => hcs.1 hc.symm, ih hcs.2]
    rfl

theorem before_eq_self {cs : List Char} (hcs : separator ∉ cs) : before separator cs = cs := by
  unfold before
  rw [List.takeWhile_eq_self_iff]
  intro c hc
  have hne : c ≠ separator := by
    rintro rfl
    exact hcs hc
  simpa using hne

/-! ## At all of them -/

theorem split_ne_nil (separator : Char) : ∀ cs : List Char, split separator cs ≠ []
  | [] => by simp [split]
  | c :: cs => by
    rw [split]
    split
    · simp
    · split <;> simp

theorem split_cons {cs first : List Char} {rest : List (List Char)} (h : split separator cs = first :: rest)
    (c : Char) :
    split separator (c :: cs) = if c = separator then [] :: first :: rest else (c :: first) :: rest := by
  rw [split, h]

theorem split_separator (separator : Char) (cs : List Char) :
    split separator (separator :: cs) = [] :: split separator cs := by
  obtain ⟨first, rest, hcs⟩ := List.exists_cons_of_ne_nil (split_ne_nil separator cs)
  rw [split_cons hcs, if_pos rfl, hcs]

theorem split_append {piece : List Char} (hpiece : separator ∉ piece) (cs : List Char) :
    ∃ first rest, split separator cs = first :: rest ∧ split separator (piece ++ cs) = (piece ++ first) :: rest := by
  induction piece with
  | nil =>
    obtain ⟨first, rest, hcons⟩ := List.exists_cons_of_ne_nil (split_ne_nil separator cs)
    exact ⟨first, rest, hcons, hcons⟩
  | cons c piece ih =>
    rw [List.mem_cons, not_or] at hpiece
    obtain ⟨first, rest, hcs, hpiece'⟩ := ih hpiece.2
    refine ⟨first, rest, hcs, ?_⟩
    rw [List.cons_append, split_cons hpiece', if_neg fun hc => hpiece.1 hc.symm]
    rfl

/-- Pieces without the separator, put together, are cut apart again. -/
theorem split_intercalate : ∀ {pieces : List (List Char)}, pieces ≠ [] → (∀ piece ∈ pieces, separator ∉ piece) →
    split separator (List.intercalate [separator] pieces) = pieces
  | [], hne, _ => absurd rfl hne
  | [piece], _, h => by
    obtain ⟨first, rest, hnil, hsplit⟩ := split_append (h piece (List.mem_singleton_self piece)) []
    obtain ⟨rfl, rfl⟩ : [] = first ∧ [] = rest := List.cons.inj hnil
    rw [List.append_nil] at hsplit
    simpa [List.intercalate] using hsplit
  | piece :: next :: pieces, _, h => by
    have hmore : split separator (List.intercalate [separator] (next :: pieces)) = next :: pieces :=
      split_intercalate (List.cons_ne_nil next pieces) fun x hx => h x (List.mem_cons_of_mem piece hx)
    obtain ⟨first, rest, hnil, hsplit⟩ := split_append (h piece List.mem_cons_self)
      (separator :: List.intercalate [separator] (next :: pieces))
    rw [split_separator, hmore] at hnil
    obtain ⟨rfl, rfl⟩ := List.cons.inj hnil
    simpa [List.intercalate] using hsplit

/-- A text is its pieces put together, so a piece has no separator. -/
theorem not_mem_of_mem_split : ∀ {cs piece : List Char}, piece ∈ split separator cs → separator ∉ piece
  | [], piece, h => by
    obtain rfl := List.mem_singleton.mp h
    exact List.not_mem_nil
  | c :: cs, piece, h => by
    obtain ⟨first, rest, hcs⟩ := List.exists_cons_of_ne_nil (split_ne_nil separator cs)
    have ih : ∀ x ∈ first :: rest, separator ∉ x := fun x hx => not_mem_of_mem_split (hcs ▸ hx)
    rw [split_cons hcs] at h
    by_cases hc : c = separator
    · rw [if_pos hc] at h
      rcases List.mem_cons.mp h with rfl | h
      · exact List.not_mem_nil
      · exact ih piece h
    · rw [if_neg hc] at h
      rcases List.mem_cons.mp h with rfl | h
      · rw [List.mem_cons, not_or]
        exact ⟨fun heq => hc heq.symm, ih first List.mem_cons_self⟩
      · exact ih piece (List.mem_cons_of_mem first h)

theorem join_eq_intercalate (separator : List Char) : ∀ pieces : List (List Char),
    join separator pieces = List.intercalate separator pieces
  | [] => rfl
  | [piece] => by simp [join, List.intercalate]
  | piece :: next :: pieces => by
    rw [join, join_eq_intercalate separator (next :: pieces)]
    simp [List.intercalate]

theorem join_append {separator : List Char} : ∀ {pieces more : List (List Char)}, pieces ≠ [] → more ≠ [] →
    join separator (pieces ++ more) = join separator pieces ++ separator ++ join separator more
  | [], _, hne, _ => absurd rfl hne
  | [piece], _, _, hmore => by
    obtain ⟨next, rest, rfl⟩ := List.exists_cons_of_ne_nil hmore
    rfl
  | piece :: next :: pieces, more, _, hmore => by
    rw [List.cons_append, List.cons_append, join, ← List.cons_append, join_append (List.cons_ne_nil next pieces) hmore,
      join]
    simp only [List.append_assoc]

theorem split_join {pieces : List (List Char)} (hne : pieces ≠ []) (h : ∀ piece ∈ pieces, separator ∉ piece) :
    split separator (join [separator] pieces) = pieces := by
  rw [join_eq_intercalate]
  exact split_intercalate hne h

end Airdrop.Text
