import Airdrop.Log.Redaction
import Mathlib.Data.Nat.Init

/-!
# Substitution

A search tells which passage stands at the front of a text, given the character before, and what it becomes. Passages
are replaced from left to right and without overlap.

* `preceding` : the character before a text that stands behind another one.
* `Everywhere P previous cs` : a property of all positions of a text, which may depend on the character before.
* `Finder` : what is replaced is not empty and keeps its first character. `substitute_of_none`, `substitute_of_some` :
  one step.
* `everywhere_substitute` : a property holds everywhere after a substitution if it holds at the characters that are kept
  and in the replacements.
* `substitute_eq_append` : characters at which no replacement can start were there before.
-/

namespace Airdrop.Redaction

variable {passage? : Option Char → List Char → Option Passage} {P Q : Option Char → List Char → Prop} {c : Char}
  {cs out text replacement : List Char} {previous : Option Char} {length : Nat}

/-! ## Positions -/

/-- The character before a text that stands behind another one. -/
def preceding : (previous : Option Char) → List Char → Option Char
  | previous, [] => previous
  | _, c :: cs => preceding (some c) cs

theorem preceding_eq_getLast? : ∀ (previous : Option Char) (cs : List Char),
    preceding previous cs = cs.getLast?.or previous
  | _, [] => rfl
  | previous, c :: cs => by
    rw [preceding, preceding_eq_getLast?, List.getLast?_cons]
    cases cs.getLast? <;> rfl

theorem any_preceding {p : Char → Bool} (hc : p c = true) (hcs : ∀ d ∈ cs, p d = true) :
    (preceding (some c) cs).any p = true := by
  induction cs generalizing c with
  | nil => exact hc
  | cons d cs ih => exact ih (hcs d List.mem_cons_self) fun e he => hcs e (List.mem_cons_of_mem d he)

/-- A property of all positions of a text, given the character before. -/
def Everywhere (P : Option Char → List Char → Prop) : (previous : Option Char) → List Char → Prop
  | _, [] => True
  | previous, c :: cs => P previous (c :: cs) ∧ Everywhere P (some c) cs

theorem everywhere_append_iff : ∀ (previous : Option Char) (front cs : List Char),
    Everywhere P previous (front ++ cs) ↔
      (∀ before here, front = before ++ here → here ≠ [] → P (preceding previous before) (here ++ cs)) ∧
      Everywhere P (preceding previous front) cs
  | previous, [], cs => by
    refine (and_iff_right fun before here h hne => ?_).symm
    exact absurd (List.append_eq_nil_iff.mp h.symm).2 hne
  | previous, c :: front, cs => by
    rw [List.cons_append, Everywhere, everywhere_append_iff, preceding, ← and_assoc]
    refine and_congr_left fun _ => ⟨fun ⟨hhere, hfront⟩ before here h hne => ?_, fun h => ⟨?_, ?_⟩⟩
    · cases before with
      | nil =>
        obtain rfl : c :: front = here := h
        exact hhere
      | cons d before =>
        obtain ⟨rfl, rfl⟩ := List.cons.inj h
        exact hfront before here rfl hne
    · exact h [] (c :: front) rfl (List.cons_ne_nil _ _)
    · exact fun before here heq hne => h (c :: before) here (congrArg (c :: ·) heq) hne

theorem everywhere_iff : Everywhere P previous cs ↔
    ∀ before here, cs = before ++ here → here ≠ [] → P (preceding previous before) here := by
  have h := everywhere_append_iff (P := P) previous cs []
  simp only [List.append_nil, Everywhere, and_true] at h
  exact h

theorem Everywhere.drop (h : Everywhere P previous cs) (n : Nat) :
    Everywhere P (preceding previous (cs.take n)) (cs.drop n) := by
  rw [← List.take_append_drop n cs, everywhere_append_iff] at h
  exact h.2

/-! ## Substitution -/

/-- What is found is not empty, and its replacement keeps its first character. -/
structure Finder (passage? : Option Char → List Char → Option Passage) : Prop where
  span : ∀ previous cs replacement length, passage? previous cs = some (replacement, length) →
    0 < length ∧ length ≤ cs.length
  head : ∀ previous cs replacement length, passage? previous cs = some (replacement, length) →
    replacement.head? = cs.head?

theorem substitute_of_skip : ∀ (skip : Nat) (previous : Option Char) (cs : List Char),
    substitute passage? skip previous cs =
      substitute passage? 0 (preceding previous (cs.take skip)) (cs.drop skip)
  | 0, _, _ => rfl
  | skip + 1, _, [] => by rw [List.drop_nil, substitute, substitute]
  | skip + 1, _, c :: cs => by
    rw [substitute, substitute_of_skip skip, List.take_succ_cons, List.drop_succ_cons, preceding]

theorem substitute_of_none (h : passage? previous (c :: cs) = none) :
    substitute passage? 0 previous (c :: cs) = c :: substitute passage? 0 (some c) cs := by
  rw [substitute, h]

theorem substitute_of_some (hfinder : Finder passage?) (h : passage? previous cs = some (replacement, length)) :
    substitute passage? 0 previous cs =
      replacement ++ substitute passage? 0 (preceding previous (cs.take length)) (cs.drop length) := by
  obtain ⟨hpos, hle⟩ := hfinder.span _ _ _ _ h
  obtain ⟨length, rfl⟩ := Nat.exists_eq_add_of_le' hpos
  cases cs with
  | nil => exact absurd hle (Nat.not_succ_le_zero _)
  | cons c cs =>
    rw [substitute, h, List.take_succ_cons, List.drop_succ_cons, preceding, ← substitute_of_skip]
    rfl

theorem head?_substitute (hfinder : Finder passage?) (previous : Option Char) (cs : List Char) :
    (substitute passage? 0 previous cs).head? = cs.head? := by
  cases cs with
  | nil => rw [substitute]
  | cons c cs =>
    cases h : passage? previous (c :: cs) with
    | none =>
      rw [substitute_of_none h]
      rfl
    | some passage =>
      have hhead := hfinder.head _ _ _ _ h
      rw [substitute_of_some hfinder h, List.head?_append, hhead]
      rfl

/-- Induction along a substitution: the first character is kept, or a passage is replaced. -/
theorem Finder.induction {motive : Option Char → List Char → Prop} (hfinder : Finder passage?)
    (nil : ∀ previous, motive previous [])
    (keep : ∀ previous c cs, passage? previous (c :: cs) = none → motive (some c) cs → motive previous (c :: cs))
    (replace : ∀ previous cs replacement length, passage? previous cs = some (replacement, length) →
      motive (preceding previous (cs.take length)) (cs.drop length) → motive previous cs)
    (previous : Option Char) (cs : List Char) : motive previous cs := by
  -- a passage may take any number of characters, so the induction is on the length of the text
  induction hn : cs.length using Nat.strong_induction_on generalizing previous cs with
  | _ n ih =>
    subst hn
    cases cs with
    | nil => exact nil previous
    | cons c cs =>
      cases h : passage? previous (c :: cs) with
      | none => exact keep previous c cs h (ih cs.length (Nat.lt_succ_self _) (some c) cs rfl)
      | some passage =>
        obtain ⟨replacement, length⟩ := passage
        obtain ⟨hpos, hle⟩ := hfinder.span _ _ _ _ h
        have hlt : ((c :: cs).drop length).length < (c :: cs).length := by
          rw [List.length_drop]
          omega
        exact replace previous (c :: cs) replacement length h (ih _ hlt _ _ rfl)

/-- Where a property holds after a substitution: at the characters that are kept, in the replacements, and behind
them, where another character stands before than it did. -/
theorem everywhere_substitute (hfinder : Finder passage?)
    (hkeep : ∀ previous c cs, P previous (c :: cs) → passage? previous (c :: cs) = none →
      Q previous (c :: substitute passage? 0 (some c) cs))
    (hreplace : ∀ previous cs replacement length, passage? previous cs = some (replacement, length) →
      ∀ before here, replacement = before ++ here → here ≠ [] → Q (preceding previous before)
        (here ++ substitute passage? 0 (preceding previous (cs.take length)) (cs.drop length)))
    (hborder : ∀ previous cs replacement length, passage? previous cs = some (replacement, length) → ∀ c out,
      substitute passage? 0 (preceding previous (cs.take length)) (cs.drop length) = c :: out →
        Q (preceding previous (cs.take length)) (c :: out) → Q (preceding previous replacement) (c :: out))
    (previous : Option Char) (cs : List Char) (hP : Everywhere P previous cs) :
    Everywhere Q previous (substitute passage? 0 previous cs) := by
  induction previous, cs using hfinder.induction with
  | nil =>
    rw [substitute]
    trivial
  | keep previous c cs h ih =>
    rw [substitute_of_none h]
    exact ⟨hkeep previous c cs hP.1 h, ih hP.2⟩
  | replace previous cs replacement length h ih =>
    have hrest := ih (hP.drop length)
    rw [substitute_of_some hfinder h, everywhere_append_iff]
    refine ⟨hreplace _ _ _ _ h, ?_⟩
    -- behind the replacement, only the first position has another character before it than `ih` knows of
    cases hout : substitute passage? 0 (preceding previous (cs.take length)) (cs.drop length) with
    | nil => trivial
    | cons d out =>
      rw [hout] at hrest
      exact ⟨hborder _ _ _ _ h d out hout hrest.1, hrest.2⟩

/-- A text in which every passage is its own replacement stays as it is. -/
theorem substitute_eq_self (hfinder : Finder passage?) (previous : Option Char) (cs : List Char)
    (hstable : Everywhere (fun previous cs => ∀ replacement length, passage? previous cs = some (replacement, length) →
      replacement = cs.take length) previous cs) : substitute passage? 0 previous cs = cs := by
  induction previous, cs using hfinder.induction with
  | nil => rw [substitute]
  | keep previous c cs h ih => rw [substitute_of_none h, ih hstable.2]
  | replace previous cs replacement length h ih =>
    obtain ⟨hpos, hle⟩ := hfinder.span _ _ _ _ h
    obtain ⟨c, cs, rfl⟩ := List.exists_cons_of_length_pos (Nat.lt_of_lt_of_le hpos hle)
    rw [substitute_of_some hfinder h, ih (hstable.drop length), hstable.1 replacement length h, List.take_append_drop]

/-- No replacement starts in a text that stands before another one. -/
def NoneStarts (passage? : Option Char → List Char → Option Passage) (previous : Option Char) (front out : List Char) :
    Prop :=
  ∀ before here, before ++ here = front → here ≠ [] → ∀ text replacement length more,
    passage? (preceding previous before) text = some (replacement, length) → replacement ++ more ≠ here ++ out

/-- Characters at which no replacement can start were there before a substitution. -/
theorem substitute_eq_append (hfinder : Finder passage?) (front : List Char) (previous : Option Char) (cs : List Char)
    (h : substitute passage? 0 previous cs = front ++ out) (hno : NoneStarts passage? previous front out) :
    ∃ rest, cs = front ++ rest ∧ substitute passage? 0 (preceding previous front) rest = out := by
  induction front generalizing previous cs with
  | nil => exact ⟨cs, rfl, h⟩
  | cons d front ih =>
    cases cs with
    | nil =>
      rw [substitute] at h
      exact absurd h.symm (List.cons_ne_nil _ _)
    | cons c cs =>
      cases hfound : passage? previous (c :: cs) with
      | some passage =>
        obtain ⟨replacement, length⟩ := passage
        rw [substitute_of_some hfinder hfound] at h
        exact absurd h (hno [] (d :: front) rfl (List.cons_ne_nil _ _) _ _ _ _ hfound)
      | none =>
        rw [substitute_of_none hfound] at h
        obtain ⟨rfl, htail⟩ := List.cons.inj h
        obtain ⟨rest, rfl, hrest⟩ := ih (some c) cs htail fun before here heq hne =>
          hno (c :: before) here (congrArg (c :: ·) heq) hne
        exact ⟨rest, rfl, hrest⟩

/-- A word with a separator in which no replacement starts was there before a substitution, and the same character stood
behind it. -/
theorem exists_before {first : Char} (hfinder : Finder passage?) (letters separator : List Char)
    (h : first :: substitute passage? 0 (some first) cs = first :: letters ++ (separator ++ c :: text))
    (hno : NoneStarts passage? (some first) (letters ++ separator) (c :: text)) :
    ∃ behind previous, first :: cs = first :: letters ++ (separator ++ c :: behind) ∧
      substitute passage? 0 previous (c :: behind) = c :: text := by
  have hfront : substitute passage? 0 (some first) cs = letters ++ separator ++ c :: text := by
    rw [List.append_assoc]
    exact (List.cons.inj h).2
  obtain ⟨behind, rfl, hbehind⟩ := substitute_eq_append hfinder _ _ cs hfront hno
  have hhead := head?_substitute hfinder (preceding (some first) (letters ++ separator)) behind
  rw [hbehind] at hhead
  obtain ⟨behind, rfl⟩ := List.head?_eq_some_iff.mp hhead.symm
  exact ⟨behind, _, congrArg (first :: ·) (List.append_assoc _ _ _), hbehind⟩

end Airdrop.Redaction
