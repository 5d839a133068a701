import Airdrop.Disk.Path
import Airdrop.Proofs.Text.Split
import Mathlib.Data.List.Basic
import Mathlib.Data.String.Basic

/-!
# Paths and their texts

* `Normal` : a path without empty steps and steps to the place itself. `normal_ofText`, `normal_child` : such paths.
* `ofText_text` : a normal path is read back from its text.
-/

namespace Airdrop

namespace Path

variable {p : Path}

/-- A path without empty steps and steps to the place itself, with a start that a text can have. -/
structure Normal (p : Path) : Prop where
  start : p.start ∈ ["", "/", "//"]
  names : ∀ name ∈ p.names, name ≠ "" ∧ name ≠ "." ∧ '/' ∉ name.toList

theorem normal_ofText (s : String) : (ofText s).Normal := by
  refine ⟨?_, fun name hname => ?_⟩
  · show startOf _ ∈ _
    unfold startOf
    split <;> decide
  · obtain ⟨hmem, hkept⟩ := List.mem_filter.mp hname
    obtain ⟨piece, hpiece, rfl⟩ := List.mem_map.mp hmem
    rw [decide_eq_true_iff] at hkept
    refine ⟨hkept.1, hkept.2, ?_⟩
    rw [String.toList_ofList]
    exact Text.not_mem_of_mem_split hpiece

theorem normal_child (h : p.Normal) {name : String} (hname : name ≠ "" ∧ name ≠ "." ∧ '/' ∉ name.toList) :
    (p.child name).Normal := by
  refine ⟨h.start, fun other hother => ?_⟩
  rcases List.mem_append.mp hother with hother | hother
  · exact h.names other hother
  · obtain rfl := List.mem_singleton.mp hother
    exact hname

/-- The slashes at the start of a text are empty pieces in front of the others. -/
theorem split_start {start : String} (hstart : start ∈ ["", "/", "//"]) (cs : List Char) :
    Text.split '/' (start.toList ++ cs) = List.replicate start.toList.length [] ++ Text.split '/' cs := by
  simp only [List.mem_cons, List.not_mem_nil, or_false] at hstart
  rcases hstart with rfl | rfl | rfl
  · rfl
  · exact Text.split_separator '/' cs
  · show Text.split '/' ('/' :: '/' :: cs) = _
    rw [Text.split_separator, Text.split_separator]
    rfl

theorem startOf_length {start : String} (hstart : start ∈ ["", "/", "//"]) : startOf start.toList.length = start := by
  simp only [List.mem_cons, List.not_mem_nil, or_false] at hstart
  rcases hstart with rfl | rfl | rfl <;> rfl

theorem takeWhile_start {start : String} (hstart : start ∈ ["", "/", "//"]) {cs : List Char}
    (hcs : cs.head? ≠ some '/') : (start.toList ++ cs).takeWhile (· == '/') = start.toList := by
  have hnone : cs.takeWhile (· == '/') = [] := by
    cases cs with
    | nil => rfl
    | cons c cs =>
      refine List.takeWhile_cons_of_neg fun hc => hcs ?_
      rw [List.head?_cons, beq_iff_eq.mp hc]
  simp only [List.mem_cons, List.not_mem_nil, or_false] at hstart
  rcases hstart with rfl | rfl | rfl <;> simp [hnone]

theorem toList_text (hne : p.names ≠ []) :
    p.text.toList = p.start.toList ++ List.intercalate ['/'] (p.names.map String.toList) := by
  have hsteps : ¬ (p.start.isEmpty ∧ p.names.isEmpty) := fun hempty => hne (List.isEmpty_iff.mp hempty.2)
  rw [text, if_neg hsteps, String.toList_append, String.toList_intercalate]
  rfl

/-- The first step of a path does not begin with a slash. -/
theorem head?_intercalate {names : List String} (h : ∀ name ∈ names, name ≠ "" ∧ name ≠ "." ∧ '/' ∉ name.toList) :
    (List.intercalate ['/'] (names.map String.toList)).head? ≠ some '/' := by
  cases names with
  | nil => exact fun hno => nomatch hno
  | cons name names =>
    obtain ⟨hne, -, hslash⟩ := h name List.mem_cons_self
    obtain ⟨c, cs, hname⟩ := List.exists_cons_of_ne_nil fun hnil => hne (String.toList_eq_nil_iff.mp hnil)
    have hc : c ≠ '/' := by
      rintro rfl
      exact hslash (hname ▸ List.mem_cons_self)
    cases names <;> simpa [List.intercalate, hname] using hc

/-- A normal path is read back from its text. -/
theorem ofText_text (h : p.Normal) : ofText p.text = p := by
  by_cases hnil : p.names = []
  · obtain ⟨start, names⟩ := p
    obtain rfl : names = [] := hnil
    have hstart := h.start
    simp only [List.mem_cons, List.not_mem_nil, or_false] at hstart
    rcases hstart with rfl | rfl | rfl <;> rfl
  have hpieces : Text.split '/' (List.intercalate ['/'] (p.names.map String.toList)) = p.names.map String.toList := by
    refine Text.split_intercalate (by simpa using hnil) fun piece hpiece => ?_
    obtain ⟨name, hname, rfl⟩ := List.mem_map.mp hpiece
    exact (h.names name hname).2.2
  have hback : (p.names.map String.toList).map String.ofList = p.names := by
    rw [List.map_map]
    exact (List.map_congr_left fun name _ => String.ofList_toList).trans (List.map_id p.names)
  have hkeep : p.names.filter (fun name => name ≠ "" ∧ name ≠ ".") = p.names := by
    rw [List.filter_eq_self]
    exact fun name hname => decide_eq_true ⟨(h.names name hname).1, (h.names name hname).2.1⟩
  have hempty : (List.replicate p.start.toList.length "").filter (fun name => name ≠ "" ∧ name ≠ ".") = [] := by
    rw [List.filter_replicate]
    rfl
  have hnames : (((Text.split '/' p.text.toList).map String.ofList).filter fun name => name ≠ "" ∧ name ≠ ".") =
      p.names := by
    rw [toList_text hnil, split_start h.start, hpieces, List.map_append, hback, List.map_replicate, List.filter_append,
      hkeep]
    exact congrArg (· ++ p.names) hempty
  have hstart : startOf (p.text.toList.takeWhile (· == '/')).length = p.start := by
    rw [toList_text hnil, takeWhile_start h.start (head?_intercalate h.names), startOf_length h.start]
  unfold ofText
  rw [hstart, hnames]

end Path
end Airdrop
