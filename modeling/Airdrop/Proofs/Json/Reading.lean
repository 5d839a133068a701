import Airdrop.Proofs.Form
import Airdrop.Proofs.Outcome
import Airdrop.Proofs.Value

/-!
# What a text can hold

* `Value.IsJson` : a value without byte strings, in whose objects no name stands twice.
* `Json.isJson_of_read` : every value that is read from a text is such a value.
* `Check.eq_text_of_accepted` : the texts that a form accepts from such a value are those that stand in it.
-/

namespace Airdrop

/-- A value without byte strings, in whose objects no name stands twice. -/
inductive Value.IsJson : Value → Prop
  | null : Value.IsJson .null
  | bool (b : Bool) : Value.IsJson (.bool b)
  | int (n : Int) : Value.IsJson (.int n)
  | float (x : Binary64) : Value.IsJson (.float x)
  | text (s : String) : Value.IsJson (.text s)
  | torn (t : TornText) : Value.IsJson (.torn t)
  | list {vs : List Value} : (∀ v ∈ vs, v.IsJson) → Value.IsJson (.list vs)
  | object {fs : List (String × Value)} : (fs.map (·.1)).Nodup → (∀ f ∈ fs, f.2.IsJson) → Value.IsJson (.object fs)

namespace Value

variable {name : String} {v : Value} {fs : List (String × Value)}

theorem IsJson.empty : (Value.object []).IsJson := .object List.nodup_nil fun _ hno => nomatch hno

theorem IsJson.nodup (h : (Value.object fs).IsJson) : (fs.map (·.1)).Nodup := by
  cases h with
  | object hnames _ => exact hnames

theorem IsJson.of_mem (h : (Value.object fs).IsJson) : ∀ f ∈ fs, f.2.IsJson := by
  cases h with
  | object _ hfields => exact hfields

theorem IsJson.of_mem_list {vs : List Value} (h : (Value.list vs).IsJson) : ∀ v ∈ vs, v.IsJson := by
  cases h with
  | list hitems => exact hitems

theorem IsJson.of_lookup (h : (Value.object fs).IsJson) (hv : lookup name fs = some v) : v.IsJson :=
  h.of_mem (name, v) ((lookup_eq_some_iff h.nodup).mp hv)

theorem map_fst_setField (name : String) (v : Value) : ∀ fs : List (String × Value),
    (setField name v fs).map (·.1) = if name ∈ fs.map (·.1) then fs.map (·.1) else fs.map (·.1) ++ [name]
  | [] => rfl
  | (k, w) :: fs => by
    by_cases hk : k = name
    · subst hk
      simp [setField]
    · have hne : name ≠ k := fun hno => hk hno.symm
      have ih := map_fst_setField name v fs
      by_cases hmem : name ∈ fs.map (·.1)
      · rw [if_pos hmem] at ih
        rw [setField, if_neg hk, List.map_cons, ih, List.map_cons, if_pos (List.mem_cons_of_mem k hmem)]
      · rw [if_neg hmem] at ih
        rw [setField, if_neg hk, List.map_cons, ih, List.map_cons, if_neg, List.cons_append]
        exact fun hno => (List.mem_cons.mp hno).elim hne hmem

theorem of_mem_setField {f : String × Value} : ∀ {fs : List (String × Value)},
    f ∈ setField name v fs → f = (name, v) ∨ f ∈ fs
  | [], h => Or.inl (List.mem_singleton.mp h)
  | (k, w) :: fs, h => by
    unfold setField at h
    split at h
    · next hk =>
      rcases List.mem_cons.mp h with rfl | h
      · exact Or.inl (hk ▸ rfl)
      · exact Or.inr (List.mem_cons_of_mem _ h)
    · rcases List.mem_cons.mp h with rfl | h
      · exact Or.inr List.mem_cons_self
      · exact (of_mem_setField h).imp_right (List.mem_cons_of_mem _)

theorem IsJson.setField (h : (Value.object fs).IsJson) (hv : v.IsJson) (name : String) :
    (Value.object (setField name v fs)).IsJson := by
  refine .object ?_ fun f hf => ?_
  · rw [map_fst_setField]
    split
    · exact h.nodup
    · next hnot => exact List.nodup_append.mpr ⟨h.nodup, List.nodup_singleton _, by
        rintro a ha b hb rfl
        exact hnot (List.mem_singleton.mp hb ▸ ha)⟩
  · rcases of_mem_setField hf with rfl | hf
    · exact hv
    · exact h.of_mem f hf

end Value

namespace Json

open Outcome

variable {strict : Bool} {cs rest : List Char} {v : Value}

theorem isJson_of_number {negative : Bool} (h : number negative cs = .ok (v, rest)) : v.IsJson := by
  unfold number at h
  split at h
  · exact nomatch h
  · split at h
    · exact nomatch h
    · dsimp only at h
      split at h
      · split at h
        · exact nomatch h
        · obtain ⟨rfl, -⟩ := Prod.mk.inj (Except.ok.inj h)
          exact .int _
      · obtain ⟨rfl, -⟩ := Prod.mk.inj (Except.ok.inj h)
        exact .float _

theorem isJson_of_string (h : string strict cs = .ok (v, rest)) : v.IsJson := by
  unfold string at h
  split at h
  · exact nomatch h
  · split at h
    · obtain ⟨rfl, -⟩ := Prod.mk.inj (Except.ok.inj h)
      exact .text _
    · split at h
      · exact nomatch h
      · obtain ⟨rfl, -⟩ := Prod.mk.inj (Except.ok.inj h)
        exact .torn _

theorem isJson_of_scalar (h : scalar strict cs = .ok (v, rest)) : v.IsJson := by
  have hnamed {word : String} {w : Value} {cs : List Char} (hw : w.IsJson) (h : named word w cs = .ok (v, rest)) :
      v.IsJson := by
    unfold named at h
    split at h
    · obtain ⟨rfl, -⟩ := Prod.mk.inj (Except.ok.inj h)
      exact hw
    · exact nomatch h
  unfold scalar at h
  split at h
  · exact isJson_of_string h
  · exact hnamed .null h
  · exact hnamed (.bool _) h
  · exact hnamed (.bool _) h
  · exact hnamed (.float _) h
  · exact hnamed (.float _) h
  · exact hnamed (.float _) h
  · exact isJson_of_number h
  · exact isJson_of_number h

/-- What the three readers give with some fuel. The members already read are part of the object, so they are given. -/
structure Yields (strict : Bool) (fuel : Nat) : Prop where
  value : ∀ {depth cs v rest}, value strict fuel depth cs = .ok (v, rest) → v.IsJson
  elements : ∀ {depth cs vs rest}, elements strict fuel depth cs = .ok (vs, rest) → ∀ v ∈ vs, v.IsJson
  members : ∀ {depth fields cs fs rest}, (Value.object fields).IsJson →
    members strict fuel depth fields cs = .ok (fs, rest) → (Value.object fs).IsJson

section
variable {fuel depth : Nat} {fields fs : List (String × Value)} {vs : List Value}

theorem Yields.value_succ (hy : Yields strict fuel) (h : Json.value strict (fuel + 1) depth cs = .ok (v, rest)) :
    v.IsJson := by
  unfold Json.value at h
  split at h
  · split at h
    · exact nomatch h
    · split at h
      · obtain ⟨rfl, -⟩ := Prod.mk.inj (Except.ok.inj h)
        exact .list fun _ hno => nomatch hno
      · obtain ⟨⟨vs, _⟩, hvs, h⟩ := map_eq_ok.mp h
        obtain ⟨rfl, -⟩ := Prod.mk.inj h
        exact .list (hy.elements hvs)
  · split at h
    · exact nomatch h
    · split at h
      · obtain ⟨rfl, -⟩ := Prod.mk.inj (Except.ok.inj h)
        exact .empty
      · obtain ⟨⟨fs, _⟩, hfs, h⟩ := map_eq_ok.mp h
        obtain ⟨rfl, -⟩ := Prod.mk.inj h
        exact hy.members .empty hfs
  · exact isJson_of_scalar h

theorem Yields.elements_succ (hy : Yields strict fuel) (h : Json.elements strict (fuel + 1) depth cs = .ok (vs, rest)) :
    ∀ v ∈ vs, v.IsJson := by
  unfold Json.elements at h
  obtain ⟨⟨v, _⟩, hv, h⟩ := bind_eq_ok.mp h
  have hfirst := hy.value hv
  dsimp only at h
  split at h
  · obtain ⟨rfl, -⟩ := Prod.mk.inj (Except.ok.inj h)
    exact List.forall_mem_singleton.mpr hfirst
  · obtain ⟨⟨ws, _⟩, hws, h⟩ := bind_eq_ok.mp h
    obtain ⟨rfl, -⟩ := Prod.mk.inj (Except.ok.inj h)
    exact List.forall_mem_cons.mpr ⟨hfirst, hy.elements hws⟩
  · exact nomatch h

theorem Yields.members_succ (hy : Yields strict fuel) (hfields : (Value.object fields).IsJson)
    (h : Json.members strict (fuel + 1) depth fields cs = .ok (fs, rest)) : (Value.object fs).IsJson := by
  unfold Json.members at h
  split at h
  · obtain ⟨⟨name, _⟩, -, h⟩ := bind_eq_ok.mp h
    dsimp only at h
    split at h
    · obtain ⟨⟨v, _⟩, hv, h⟩ := bind_eq_ok.mp h
      have hmore := hfields.setField (hy.value hv)
      dsimp only at h
      split at h
      · obtain ⟨rfl, -⟩ := Prod.mk.inj (Except.ok.inj h)
        exact hmore _
      · exact hy.members (hmore _) h
      · exact nomatch h
    · exact nomatch h
  · exact nomatch h

end

theorem yields (strict : Bool) (fuel : Nat) : Yields strict fuel := by
  induction fuel with
  | zero => exact ⟨fun hno => (nomatch hno), fun hno => (nomatch hno), fun _ hno => nomatch hno⟩
  | succ fuel ih => exact ⟨ih.value_succ, ih.elements_succ, ih.members_succ⟩

/-- What is read from a text holds no byte strings, and no object of it has a name twice. -/
theorem isJson_of_read {limit : Nat} (h : read strict limit cs = .ok v) : v.IsJson := by
  unfold read at h
  split at h
  · exact nomatch h
  · next hvalue =>
    split at h
    · obtain rfl := Except.ok.inj h
      exact (yields _ _).value hvalue
    · exact nomatch h

end Json

namespace Check

open Reading

variable {source : Source} {v : Value}

theorem eq_text_of_accepted {s : RawText} (hv : v.IsJson) (h : text source v = .accepted s) : v = s.toValue := by
  cases hv with
  | text own => exact congrArg RawText.toValue (Reading.accepted.inj h)
  | torn own => exact congrArg RawText.toValue (Reading.accepted.inj h)
  | _ => exact nomatch h

theorem eq_texts_of_accepted {ss : List RawText} (hv : v.IsJson) (h : list text source v = .accepted ss) :
    v = .list (ss.map RawText.toValue) := by
  refine eq_list_of_accepted h ?_
  rintro vs rfl w hw s hs
  exact eq_text_of_accepted (hv.of_mem_list w hw) hs

end Check

/-- A text that must be there stands in the object. -/
theorem Form.lookup_of_required {name : String} {s : RawText} {source : Source} {fs : Fields}
    (hjson : (Value.object fs).IsJson) (h : required name Check.text source fs = .accepted s) :
    Value.lookup name fs = some s.toValue := by
  obtain ⟨v, hv, htext⟩ := required_eq_accepted.mp h
  rw [hv, Check.eq_text_of_accepted (hjson.of_lookup hv) htext]

end Airdrop
