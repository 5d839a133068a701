import Airdrop.Json.Canonical
import Airdrop.Proofs.Text.Units
import Mathlib.Data.List.Nodup

/-!
# Canonical JSON does not depend on the order of fields

* `fieldLess` is a strict order in which different names can be compared (`fieldLess_trans`, `fieldLess_asymm`,
  `fieldLess_of_ne`).
* `sortFields_perm`, `ascending_sortFields` : sorting keeps the fields and puts them in this order.
* `sortFields_of_perm` : there is only one such arrangement, so objects with the same fields have the same canonical
  form (`canonical_of_perm`).
-/

namespace Airdrop.Json

/-! ## The order of names -/

section
variable {a b c : String × Value}

theorem fieldLess_iff : fieldLess a b = true ↔ Text.units16 a.1.toList < Text.units16 b.1.toList :=
  Text.unitsLess_iff _ _

theorem fieldLess_trans (hab : fieldLess a b = true) (hbc : fieldLess b c = true) : fieldLess a c = true := by
  rw [fieldLess_iff] at *
  exact lt_trans hab hbc

theorem fieldLess_asymm (hab : fieldLess a b = true) : ¬ fieldLess b a = true := by
  rw [fieldLess_iff] at *
  exact lt_asymm hab

theorem fieldLess_of_ne (hne : a.1 ≠ b.1) (hab : ¬ fieldLess a b = true) : fieldLess b a = true := by
  rw [fieldLess_iff] at *
  have hunits : Text.units16 a.1.toList ≠ Text.units16 b.1.toList := by
    intro heq
    exact hne (String.toList_inj.mp (Text.units16_injective heq))
  exact lt_of_le_of_ne (not_lt.mp hab) hunits.symm

end

/-! ## Sorting -/

section
variable {α : Type} (less : α → α → Bool)

theorem insertField_perm (f : α) : ∀ fs : List α, (insertField less f fs).Perm (f :: fs)
  | [] => List.Perm.refl _
  | g :: fs => by
    unfold insertField
    split
    · exact List.Perm.refl _
    · exact ((insertField_perm f fs).cons g).trans (List.Perm.swap f g fs)

theorem foldl_insertField_perm : ∀ fs sorted : List α,
    (fs.foldl (fun sorted f => insertField less f sorted) sorted).Perm (sorted ++ fs)
  | [], sorted => by rw [List.foldl_nil, List.append_nil]
  | f :: fs, sorted => by
    have hrest := foldl_insertField_perm fs (insertField less f sorted)
    have hfirst : (insertField less f sorted ++ fs).Perm (f :: sorted ++ fs) :=
      (insertField_perm less f sorted).append_right fs
    exact (hrest.trans hfirst).trans List.perm_middle.symm

theorem sortFields_perm (fs : List α) : (sortFields less fs).Perm fs := foldl_insertField_perm less fs []

end

section
variable {f : String × Value} {fs gs sorted : List (String × Value)}

def Ascending (fs : List (String × Value)) : Prop := fs.Pairwise fun a b => fieldLess a b = true

theorem ascending_insertField (h : Ascending fs) (hnew : ∀ g ∈ fs, f.1 ≠ g.1) :
    Ascending (insertField fieldLess f fs) := by
  induction fs with
  | nil => exact List.pairwise_singleton _ _
  | cons g fs ih =>
    obtain ⟨hfirst, hrest⟩ := List.pairwise_cons.mp h
    unfold insertField
    split
    · next hless =>
      refine List.pairwise_cons.mpr ⟨?_, h⟩
      intro x hx
      rcases List.mem_cons.mp hx with rfl | hx
      · exact hless
      · exact fieldLess_trans hless (hfirst x hx)
    · next hless =>
      have hgf : fieldLess g f = true := fieldLess_of_ne (hnew g List.mem_cons_self) hless
      refine List.pairwise_cons.mpr ⟨?_, ih hrest fun x hx => hnew x (List.mem_cons_of_mem g hx)⟩
      intro x hx
      rcases List.mem_cons.mp ((insertField_perm fieldLess f fs).mem_iff.mp hx) with rfl | hx
      · exact hgf
      · exact hfirst x hx

theorem ascending_foldl_insertField : ∀ fs sorted : List (String × Value), Ascending sorted →
    ((sorted ++ fs).map (·.1)).Nodup → Ascending (fs.foldl (fun sorted f => insertField fieldLess f sorted) sorted)
  | [], _, h, _ => h
  | f :: fs, sorted, h, hnames => by
    -- A field moves from the rest into the sorted ones, and all names stay different.
    have hnames' : ((insertField fieldLess f sorted ++ fs).map (·.1)).Nodup := by
      have hperm : (sorted ++ f :: fs).Perm (insertField fieldLess f sorted ++ fs) :=
        List.perm_middle.trans ((insertField_perm fieldLess f sorted).append_right fs).symm
      exact (hperm.map _).nodup_iff.mp hnames
    have hnew : ∀ g ∈ sorted, f.1 ≠ g.1 := by
      intro g hg heq
      rw [List.map_append, List.nodup_append] at hnames
      exact hnames.2.2 g.1 (List.mem_map_of_mem hg) f.1 List.mem_cons_self heq.symm
    exact ascending_foldl_insertField fs _ (ascending_insertField h hnew) hnames'

theorem ascending_sortFields (hnames : (fs.map (·.1)).Nodup) : Ascending (sortFields fieldLess fs) :=
  ascending_foldl_insertField fs [] List.Pairwise.nil hnames

/-- Fields have one arrangement in ascending order. -/
theorem sortFields_of_perm (h : fs.Perm gs) (hnames : (fs.map (·.1)).Nodup) :
    sortFields fieldLess fs = sortFields fieldLess gs := by
  have hnames' : (gs.map (·.1)).Nodup := (h.map _).nodup_iff.mp hnames
  have hperm : (sortFields fieldLess fs).Perm (sortFields fieldLess gs) :=
    ((sortFields_perm fieldLess fs).trans h).trans (sortFields_perm fieldLess gs).symm
  refine List.Perm.eq_of_pairwise ?_ (ascending_sortFields hnames) (ascending_sortFields hnames') hperm
  intro a b _ _ hab hba
  exact absurd hba (fieldLess_asymm hab)

/-! ## Objects -/

theorem sortedFields_eq : ∀ fs : List (String × Value), sortedFields fs = fs.map fun f => (f.1, Json.sorted f.2)
  | [] => rfl
  | (k, v) :: fs => by
    rw [sortedFields, sortedFields_eq fs]
    rfl

/-- Objects with the same fields have the same canonical form. -/
theorem canonical_of_perm (h : fs.Perm gs) (hnames : (fs.map (·.1)).Nodup) :
    canonical (.object fs) = canonical (.object gs) := by
  have hsorted : (sortedFields fs).Perm (sortedFields gs) := by
    rw [sortedFields_eq, sortedFields_eq]
    exact h.map _
  have hnames' : ((sortedFields fs).map (·.1)).Nodup := by
    rw [sortedFields_eq, List.map_map]
    exact hnames
  unfold canonical
  rw [Json.sorted, Json.sorted, sortFields_of_perm hsorted hnames']

end
end Airdrop.Json
