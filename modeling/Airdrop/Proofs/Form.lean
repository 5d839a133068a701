import Airdrop.Form

/-!
# When a form accepts

What an accepted reading says about the parts of a form, one lemma for each way to put checks and fields together. A
form accepts an object exactly if every field passes its check.
-/

namespace Airdrop

/-! ## Readings -/

namespace Reading

variable {α β : Type}

theorem map_eq_accepted {g : α → β} {x : Reading α} {b : β} :
    g <$> x = .accepted b ↔ ∃ a, x = .accepted a ∧ g a = b := by
  show apply (.accepted g) x = .accepted b ↔ _
  cases x <;> simp [apply]

theorem seq_eq_accepted {f : Reading (α → β)} {x : Reading α} {b : β} :
    f <*> x = .accepted b ↔ ∃ g a, f = .accepted g ∧ x = .accepted a ∧ g a = b := by
  show apply f x = .accepted b ↔ _
  cases f <;> cases x <;> simp [apply]

theorem pure_eq_accepted {a b : α} : (pure a : Reading α) = .accepted b ↔ a = b := by
  rw [show (pure a : Reading α) = .accepted a from rfl, accepted.injEq]

theorem andThen_eq_accepted {x : Reading α} {f : α → Reading β} {b : β} :
    x.andThen f = .accepted b ↔ ∃ a, x = .accepted a ∧ f a = .accepted b := by
  cases x <;> simp [andThen]

theorem within_eq_accepted {s : Step} {x : Reading α} {a : α} : x.within s = .accepted a ↔ x = .accepted a := by
  cases x <;> simp [within]

theorem outcome_eq_ok {title : String} {x : Reading α} {a : α} : x.outcome title = .ok a ↔ x = .accepted a := by
  cases x <;> simp [outcome]

theorem ite_fault_eq_accepted {p : Prop} [Decidable p] {f : Fault} {a b : α} :
    (if p then fault f else pure a) = accepted b ↔ ¬ p ∧ a = b := by
  by_cases hp : p
  · rw [if_pos hp, iff_false_right fun h => h.1 hp]
    exact fun hno => nomatch hno
  · rw [if_neg hp, pure_eq_accepted, and_iff_right hp]

end Reading

/-! ## Checks -/

namespace Check

open Reading

variable {α : Type} {source : Source} {v : Value}

theorem text_toValue (s : RawText) : text source s.toValue = .accepted s := by cases s <;> rfl

theorem string_text (s : String) : string source (.text s) = .accepted s := rfl

theorem atLeast_eq_accepted {least : Nat} {c : Check Int} {n : Int} :
    atLeast least c source v = .accepted n ↔ c source v = .accepted n ∧ (least : Int) ≤ n := by
  unfold atLeast
  simp only [andThen_eq_accepted, ite_fault_eq_accepted, Int.not_lt]
  exact ⟨fun ⟨_, hc, hle, heq⟩ => heq ▸ ⟨hc, hle⟩, fun ⟨hc, hle⟩ => ⟨n, hc, hle, rfl⟩⟩

theorem lessThan_eq_accepted {bound : Nat} {c : Check Int} {n : Int} :
    lessThan bound c source v = .accepted n ↔ c source v = .accepted n ∧ n < (bound : Int) := by
  unfold lessThan
  simp only [andThen_eq_accepted, ite_fault_eq_accepted, Int.not_le]
  exact ⟨fun ⟨_, hc, hlt, heq⟩ => heq ▸ ⟨hc, hlt⟩, fun ⟨hc, hlt⟩ => ⟨n, hc, hlt, rfl⟩⟩

theorem satisfying_eq_accepted {p : α → Bool} {reason : String} {c : Check α} {a : α} :
    satisfying p reason c source v = .accepted a ↔ c source v = .accepted a ∧ p a = true := by
  unfold satisfying
  rw [andThen_eq_accepted]
  constructor
  · rintro ⟨b, hc, hp⟩
    by_cases hb : p b = true
    · rw [if_pos hb, pure_eq_accepted] at hp
      exact hp ▸ ⟨hc, hb⟩
    · rw [if_neg hb] at hp
      exact nomatch hp
  · rintro ⟨hc, hp⟩
    exact ⟨a, hc, if_pos hp⟩

theorem optional_eq_accepted {c : Check α} {o : Option α} :
    optional c source v = .accepted o ↔
      v = .null ∧ o = none ∨ v ≠ .null ∧ ∃ a, c source v = .accepted a ∧ some a = o := by
  unfold optional
  cases v with
  | null => simp [pure_eq_accepted, eq_comm]
  | _ => simp [map_eq_accepted]

/-- What a check ensures of a value, it ensures of an optional one. -/
theorem of_optional {P : α → Prop} {c : Check α} {o : Option α} (h : optional c source v = .accepted o)
    (hc : ∀ a, c source v = .accepted a → P a) : ∀ a, o = some a → P a := by
  rintro a rfl
  obtain ⟨-, hno⟩ | ⟨-, b, hb, heq⟩ := optional_eq_accepted.mp h
  · exact nomatch hno
  · exact Option.some.inj heq ▸ hc b hb

/-- An optional field that is written out is read back if the value in it is. -/
theorem optional_ofOption {c : Check α} {f : α → Value} {o : Option α} (hf : ∀ a, f a ≠ .null)
    (hc : ∀ a, o = some a → c source (f a) = .accepted a) : optional c source (Value.ofOption f o) = .accepted o := by
  rw [optional_eq_accepted]
  cases o with
  | none => exact Or.inl ⟨rfl, rfl⟩
  | some a => exact Or.inr ⟨hf a, a, hc a rfl, rfl⟩

/-- What a check ensures of the values that are written, it ensures of an optional one that is written. -/
theorem of_optional_ofOption {P : α → Prop} {c : Check α} {f : α → Value} {o o' : Option α}
    (h : optional c source (Value.ofOption f o) = .accepted o') (hf : ∀ a, f a ≠ .null)
    (hc : ∀ a b, c source (f a) = .accepted b → P a) : ∀ a, o = some a → P a := by
  rintro a rfl
  obtain ⟨hno, -⟩ | ⟨-, b, hb, -⟩ := optional_eq_accepted.mp h
  · exact absurd hno (hf a)
  · exact hc a b hb

theorem items_map {c : Check α} {f : α → Value} : ∀ (position : Nat) (as : List α),
    (∀ a ∈ as, c source (f a) = .accepted a) → items c source position (as.map f) = .accepted as
  | _, [], _ => rfl
  | position, a :: as, h => by
    rw [List.map_cons, items, h a List.mem_cons_self,
      items_map (position + 1) as fun b hb => h b (List.mem_cons_of_mem a hb)]
    rfl

/-- A list that is written out is read back if its items are. -/
theorem list_map {c : Check α} {f : α → Value} {as : List α} (h : ∀ a ∈ as, c source (f a) = .accepted a) :
    list c source (.list (as.map f)) = .accepted as :=
  items_map 0 as h

theorem eq_items_of_accepted {c : Check α} {f : α → Value} : ∀ {position : Nat} {vs : List Value} {as : List α},
    items c source position vs = .accepted as → (∀ v ∈ vs, ∀ a, c source v = .accepted a → v = f a) → vs = as.map f
  | _, [], _, h, _ => by
    obtain rfl := Reading.accepted.inj h
    rfl
  | _, v :: vs, _, h, hc => by
    rw [items, seq_eq_accepted] at h
    obtain ⟨_, as, hfirst, has, rfl⟩ := h
    obtain ⟨a, ha, rfl⟩ := map_eq_accepted.mp hfirst
    rw [List.map_cons, ← hc v List.mem_cons_self a (within_eq_accepted.mp ha),
      ← eq_items_of_accepted has fun w hw => hc w (List.mem_cons_of_mem v hw)]

/-- If the items are what would be written, so is the list. -/
theorem eq_list_of_accepted {c : Check α} {f : α → Value} {as : List α} (h : list c source v = .accepted as)
    (hc : ∀ vs, v = .list vs → ∀ w ∈ vs, ∀ a, c source w = .accepted a → w = f a) : v = .list (as.map f) := by
  unfold list at h
  split at h
  · next vs => exact congrArg Value.list (eq_items_of_accepted h (hc vs rfl))
  · exact nomatch h

theorem eq_object_of_accepted {fs : Fields} (h : object source v = .accepted fs) : v = .object fs := by
  unfold object at h
  split at h
  · exact congrArg Value.object (Reading.accepted.inj h)
  · exact nomatch h

end Check

/-! ## Fields -/

namespace Form

open Reading

variable {α : Type} {name : String} {c : Check α} {source : Source} {fs : Fields} {a default : α}

theorem required_eq_accepted :
    required name c source fs = .accepted a ↔ ∃ v, Value.lookup name fs = some v ∧ c source v = .accepted a := by
  unfold required
  rw [within_eq_accepted]
  cases Value.lookup name fs with
  | none => exact ⟨fun hno => (nomatch hno), fun ⟨_, hno, _⟩ => (nomatch hno)⟩
  | some v => simp

theorem withDefault_eq_accepted :
    withDefault name c default source fs = .accepted a ↔
      (∃ v, Value.lookup name fs = some v ∧ c source v = .accepted a) ∨ Value.lookup name fs = none ∧ default = a := by
  unfold withDefault
  cases Value.lookup name fs with
  | none => simp [pure_eq_accepted]
  | some v => simp [within_eq_accepted]

/-- What a check ensures of a value, it ensures of a field whose default has it. -/
theorem of_withDefault {P : α → Prop} (h : withDefault name c default source fs = .accepted a) (hdefault : P default)
    (hc : ∀ v, c source v = .accepted a → P a) : P a := by
  obtain ⟨v, -, hv⟩ | ⟨-, rfl⟩ := withDefault_eq_accepted.mp h
  · exact hc v hv
  · exact hdefault

theorem required_of_lookup {v : Value} (hv : Value.lookup name fs = some v) (hc : c source v = .accepted a) :
    required name c source fs = .accepted a :=
  required_eq_accepted.mpr ⟨v, hv, hc⟩

theorem withDefault_of_lookup {v : Value} (hv : Value.lookup name fs = some v) (hc : c source v = .accepted a) :
    withDefault name c default source fs = .accepted a :=
  withDefault_eq_accepted.mpr (Or.inl ⟨v, hv, hc⟩)

theorem of_required_of_lookup {v : Value} (hv : Value.lookup name fs = some v)
    (h : required name c source fs = .accepted a) : c source v = .accepted a := by
  obtain ⟨w, hw, hc⟩ := required_eq_accepted.mp h
  obtain rfl := Option.some.inj (hv.symm.trans hw)
  exact hc

theorem of_withDefault_of_lookup {v : Value} (hv : Value.lookup name fs = some v)
    (h : withDefault name c default source fs = .accepted a) : c source v = .accepted a := by
  obtain ⟨w, hw, hc⟩ | ⟨hno, -⟩ := withDefault_eq_accepted.mp h
  · obtain rfl := Option.some.inj (hv.symm.trans hw)
    exact hc
  · rw [hv] at hno
    exact nomatch hno

/-- An object whose fields all have given names holds no extra ones. -/
theorem only_of_forall {names : List String} {r : Reading α} (h : ∀ f ∈ fs, f.1 ∈ names) : only names fs r = r := by
  have hextra : (fs.map (·.1)).filter (fun name => !names.contains name) = [] := by
    rw [List.filter_eq_nil_iff]
    intro name hname
    obtain ⟨f, hf, rfl⟩ := List.mem_map.mp hname
    simpa using h f hf
  unfold only
  rw [hextra]

theorem of_only {names : List String} {r : Reading α} (h : only names fs r = .accepted a) : r = .accepted a := by
  unfold only at h
  split at h
  · exact h
  · exact nomatch h

theorem read_eq_ok_iff {f : Form α} : f.read fs = .ok a ↔ f.fields .call fs = .accepted a := outcome_eq_ok

end Form
end Airdrop
