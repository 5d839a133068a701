import Airdrop.Value.Display
import Mathlib.Data.List.Nodup

/-!
# Values

An object whose fields have different names is a finite map: `lookup_eq_some_iff` says what it holds under a name, so
the order of the fields does not matter to a look-up (`lookup_of_perm`), nor do the fields of other names
(`lookup_dropField`).

A value can be written if its parts can: `isWritable_list`, `isWritable_object`.
-/

namespace Airdrop.Value

variable {name : String} {v : Value} {fs gs : List (String × Value)}

/-! ## What a value is made of -/

theorem allItems_eq (p : Value → Bool) : ∀ vs : List Value, allItems p vs = vs.all (all p)
  | [] => rfl
  | v :: vs => by rw [allItems, allItems_eq p vs, List.all_cons]

theorem allFields_eq (p : Value → Bool) : ∀ fs : List (String × Value), allFields p fs = fs.all fun f => all p f.2
  | [] => rfl
  | (name, v) :: fs => by rw [allFields, allFields_eq p fs, List.all_cons]

@[simp] theorem isWritable_int (n : Int) : (int n).isWritable = !Radix.isLong n := rfl

@[simp] theorem isWritable_text (s : String) : (text s).isWritable = true := rfl

@[simp] theorem isWritable_toValue (t : RawText) : t.toValue.isWritable = true := by cases t <;> rfl

@[simp] theorem isWritable_list (vs : List Value) : (list vs).isWritable = vs.all isWritable := allItems_eq _ vs

@[simp] theorem isWritable_object (fs : List (String × Value)) :
    (object fs).isWritable = fs.all fun f => f.2.isWritable := allFields_eq _ fs

theorem displayText?_int (n : Int) : (int n).displayText? = Radix.integerText? n := by
  rw [displayText?, isWritable_int, Radix.integerText?]
  cases Radix.isLong n <;> rfl

/-! ## Looking up -/

theorem lookup_cons (f : String × Value) (fs : List (String × Value)) :
    lookup name (f :: fs) = if f.1 = name then some f.2 else lookup name fs := by
  unfold lookup
  by_cases hf : f.1 = name
  · rw [if_pos hf, List.find?_cons_of_pos (by simpa using hf), Option.map_some]
  · rw [if_neg hf, List.find?_cons_of_neg (by simpa using hf)]

theorem lookup_eq_some_iff (hnames : (fs.map (·.1)).Nodup) : lookup name fs = some v ↔ (name, v) ∈ fs := by
  induction fs with
  | nil => simp [lookup]
  | cons f fs ih =>
    rw [List.map_cons, List.nodup_cons] at hnames
    rw [lookup_cons, List.mem_cons]
    by_cases hf : f.1 = name
    · have hrest : (name, v) ∉ fs := by
        intro hmem
        exact hnames.1 (hf ▸ List.mem_map_of_mem hmem)
      rw [if_pos hf, Option.some.injEq, or_iff_left hrest, Prod.ext_iff]
      exact ⟨fun h => ⟨hf.symm, h.symm⟩, fun h => h.2.symm⟩
    · have hfirst : (name, v) ≠ f := by
        rintro rfl
        exact hf rfl
      rw [if_neg hf, ih hnames.2, or_iff_right hfirst]

/-- The order of its fields does not matter to what an object holds. -/
theorem lookup_of_perm (h : fs.Perm gs) (hnames : (fs.map (·.1)).Nodup) : lookup name fs = lookup name gs := by
  have hnames' : (gs.map (·.1)).Nodup := (h.map _).nodup_iff.mp hnames
  ext v
  rw [lookup_eq_some_iff hnames, lookup_eq_some_iff hnames', h.mem_iff]

/-! ## Setting and dropping -/

theorem setField_of_not_mem : ∀ {fs : List (String × Value)},
    name ∉ fs.map (·.1) → setField name v fs = fs ++ [(name, v)]
  | [], _ => rfl
  | (k, w) :: fs, h => by
    rw [List.map_cons, List.mem_cons, not_or] at h
    rw [setField, if_neg fun hk => h.1 hk.symm, setField_of_not_mem h.2]
    rfl

theorem setField_of_nodup {fields : List (String × Value)} (hnames : ((fields ++ (name, v) :: fs).map (·.1)).Nodup) :
    setField name v fields = fields ++ [(name, v)] := by
  refine setField_of_not_mem fun hmem => ?_
  rw [List.map_append, List.nodup_append] at hnames
  exact hnames.2.2 name hmem name List.mem_cons_self rfl

theorem dropField_insert (name : String) (before after : List (String × Value)) (v : Value) :
    dropField name (before ++ (name, v) :: after) = dropField name (before ++ after) := by
  simp [dropField]

theorem lookup_dropField {dropped : String} (hne : name ≠ dropped) :
    lookup name (dropField dropped fs) = lookup name fs := by
  induction fs with
  | nil => rfl
  | cons f fs ih =>
    unfold dropField at ih ⊢
    by_cases hf : f.1 = dropped
    · have hother : f.1 ≠ name := fun hno => hne (hno.symm.trans hf)
      rw [List.filter_cons_of_neg (by simpa using hf), ih, lookup_cons, if_neg hother]
    · rw [List.filter_cons_of_pos (by simpa using hf), lookup_cons, lookup_cons, ih]

theorem nodup_dropField (hnames : (fs.map (·.1)).Nodup) (dropped : String) :
    ((dropField dropped fs).map (·.1)).Nodup :=
  hnames.sublist (List.filter_sublist.map _)

end Airdrop.Value
