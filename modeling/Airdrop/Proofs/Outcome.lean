import Mathlib.Data.List.Forall2

/-!
# When a sequence of steps succeeds

What a success or a failure of an `Except` computation says about its steps, one lemma for each way to put steps
together; and the same for computations that also change a state.
-/

namespace Airdrop.Outcome

variable {ε ε' α β : Type}

theorem bind_eq_ok {x : Except ε α} {f : α → Except ε β} {b : β} :
    (x >>= f) = .ok b ↔ ∃ a, x = .ok a ∧ f a = .ok b := by
  cases x <;> simp [bind, Except.bind]

theorem bind_eq_error {x : Except ε α} {f : α → Except ε β} {e : ε} :
    (x >>= f) = .error e ↔ x = .error e ∨ ∃ a, x = .ok a ∧ f a = .error e := by
  cases x <;> simp [bind, Except.bind]

theorem bind_pure_eq_ok {x : Except ε α} {f : α → β} {b : β} :
    (x >>= fun a => pure (f a)) = .ok b ↔ ∃ a, x = .ok a ∧ b = f a := by
  rw [bind_eq_ok]
  refine exists_congr fun a => and_congr_right fun _ => ?_
  exact ⟨fun h => (Except.ok.inj h).symm, fun h => congrArg Except.ok h.symm⟩

theorem ok_bind {a : α} {f : α → Except ε β} : (.ok a >>= f) = f a := rfl

theorem error_bind {e : ε} {f : α → Except ε β} : (.error e >>= f) = .error e := rfl

theorem map_eq_ok {x : Except ε α} {f : α → β} {b : β} : x.map f = .ok b ↔ ∃ a, x = .ok a ∧ f a = b := by
  cases x <;> simp [Except.map]

theorem map_eq_error {x : Except ε α} {f : α → β} {e : ε} : x.map f = .error e ↔ x = .error e := by
  cases x <;> simp [Except.map]

theorem mapError_eq_ok {x : Except ε α} {f : ε → ε'} {a : α} : x.mapError f = .ok a ↔ x = .ok a := by
  cases x with
  | error e => exact ⟨fun hno => (nomatch hno), fun hno => (nomatch hno)⟩
  | ok b =>
    show (.ok b : Except ε' α) = .ok a ↔ _
    rw [Except.ok.injEq, Except.ok.injEq]

theorem mapError_eq_error {x : Except ε α} {f : ε → ε'} {e : ε'} :
    x.mapError f = .error e ↔ ∃ fault, x = .error fault ∧ f fault = e := by
  cases x with
  | error fault =>
    show (.error (f fault) : Except ε' α) = .error e ↔ _
    simp
  | ok a => exact ⟨fun hno => (nomatch hno), fun ⟨_, hno, _⟩ => (nomatch hno)⟩

theorem ite_error_eq_ok {p : Prop} [Decidable p] {e : ε} {x : Except ε α} {a : α} :
    (if p then .error e else x) = .ok a ↔ ¬ p ∧ x = .ok a := by
  by_cases hp : p <;> simp [hp]

theorem toOption_eq_some {x : Except ε α} {a : α} : x.toOption = some a ↔ x = .ok a := by
  cases x <;> simp [Except.toOption]

theorem toOption_map_eq_some {x : Except ε α} {f : α → β} {b : β} :
    x.toOption.map f = some b ↔ ∃ a, x = .ok a ∧ f a = b := by
  cases x <;> simp [Except.toOption]

theorem mapM_eq_ok {f : α → Except ε β} {g : α → β} :
    ∀ xs : List α, (∀ x ∈ xs, f x = .ok (g x)) → xs.mapM f = .ok (xs.map g)
  | [], _ => rfl
  | x :: xs, h => by
    rw [List.mapM_cons, h x List.mem_cons_self, mapM_eq_ok xs fun y hy => h y (List.mem_cons_of_mem x hy)]
    rfl

/-- Values that one function makes texts of and another one reads back, all together. -/
theorem mapM_map_eq_some {f : β → Option α} {g : α → β} : ∀ xs : List α, (∀ x ∈ xs, f (g x) = some x) →
    (xs.map g).mapM f = some xs
  | [], _ => rfl
  | x :: xs, h => by
    rw [List.map_cons, List.mapM_cons, h x List.mem_cons_self,
      mapM_map_eq_some xs fun y hy => h y (List.mem_cons_of_mem x hy)]
    rfl

theorem mapM_eq_ok_iff {f : α → Except ε β} {xs : List α} {ys : List β} :
    xs.mapM f = .ok ys ↔ List.Forall₂ (fun x y => f x = .ok y) xs ys := by
  induction xs generalizing ys with
  | nil =>
    rw [List.forall₂_nil_left_iff]
    exact ⟨fun h => (Except.ok.inj h).symm, fun h => congrArg Except.ok h.symm⟩
  | cons x xs ih =>
    rw [List.mapM_cons, bind_eq_ok, List.forall₂_cons_left_iff]
    constructor
    · rintro ⟨y, hy, h⟩
      obtain ⟨more, hmore, h⟩ := bind_eq_ok.mp h
      exact ⟨y, more, hy, ih.mp hmore, (Except.ok.inj h).symm⟩
    · rintro ⟨y, more, hy, hmore, rfl⟩
      exact ⟨y, hy, bind_eq_ok.mpr ⟨more, ih.mpr hmore, rfl⟩⟩

/-- If a function fails on a list, it does so on the first member on which it fails. -/
theorem mapM_eq_error_iff {f : α → Except ε β} {xs : List α} {e : ε} :
    xs.mapM f = .error e ↔ ∃ before x after, xs = before ++ x :: after ∧ (∀ y ∈ before, ∃ b, f y = .ok b) ∧
      f x = .error e := by
  induction xs with
  | nil => exact ⟨fun hno => (nomatch hno), fun ⟨before, x, after, hno, _⟩ => by simp at hno⟩
  | cons x xs ih =>
    rw [List.mapM_cons, bind_eq_error]
    constructor
    · rintro (hx | ⟨b, hb, h⟩)
      · exact ⟨[], x, xs, rfl, fun y hy => absurd hy List.not_mem_nil, hx⟩
      · rcases bind_eq_error.mp h with h | ⟨_, _, hno⟩
        · obtain ⟨before, y, after, rfl, hbefore, hy⟩ := ih.mp h
          refine ⟨x :: before, y, after, rfl, fun z hz => ?_, hy⟩
          rcases List.mem_cons.mp hz with rfl | hz
          · exact ⟨b, hb⟩
          · exact hbefore z hz
        · exact nomatch hno
    · rintro ⟨_ | ⟨y, before⟩, z, after, heq, hbefore, hz⟩ <;> obtain ⟨rfl, rfl⟩ := List.cons.inj heq
      · exact .inl hz
      · obtain ⟨b, hb⟩ := hbefore x List.mem_cons_self
        have hrest := ih.mpr ⟨before, z, after, rfl, fun w hw => hbefore w (List.mem_cons_of_mem x hw), hz⟩
        exact .inr ⟨b, hb, bind_eq_error.mpr (.inl hrest)⟩

/-- If a function succeeds on each member of a list, it succeeds on all together. -/
theorem exists_mapM {f : α → Except ε β} {xs : List α} (h : ∀ x ∈ xs, ∃ y, f x = .ok y) : ∃ ys, xs.mapM f = .ok ys := by
  simp only [mapM_eq_ok_iff]
  induction xs with
  | nil => exact ⟨[], .nil⟩
  | cons x xs ih =>
    obtain ⟨y, hy⟩ := h x List.mem_cons_self
    obtain ⟨ys, hys⟩ := ih fun z hz => h z (List.mem_cons_of_mem x hz)
    exact ⟨y :: ys, .cons hy hys⟩

theorem exists_of_forall₂ {R : α → β → Prop} {xs : List α} {ys : List β}
    (h : List.Forall₂ R xs ys) : ∀ y ∈ ys, ∃ x ∈ xs, R x y := by
  induction h with
  | nil => exact fun _ hno => absurd hno List.not_mem_nil
  | cons hxy _ ih =>
    intro y hy
    rcases List.mem_cons.mp hy with rfl | hy
    · exact ⟨_, List.mem_cons_self, hxy⟩
    · obtain ⟨x, hx, hR⟩ := ih y hy
      exact ⟨x, List.mem_cons_of_mem _ hx, hR⟩

theorem getElem?_of_forall₂ {R : α → β → Prop} {xs : List α} {ys : List β} (h : List.Forall₂ R xs ys) {i : Nat} {y : β}
    (hy : ys[i]? = some y) : ∃ x, xs[i]? = some x ∧ R x y := by
  induction h generalizing i with
  | nil => exact nomatch hy
  | cons hxy _ ih =>
    cases i with
    | zero => exact ⟨_, rfl, Option.some.inj hy ▸ hxy⟩
    | succ i => exact ih hy

/-! ## Families of errors -/

/-- A computation succeeds or fails with an error of a family. -/
def EndsIn (F : ε → Prop) (x : Except ε α) : Prop := (∃ a, x = .ok a) ∨ ∃ e, F e ∧ x = .error e

section
variable {F : ε → Prop} {x : Except ε α}

theorem endsIn_ok {a : α} : EndsIn F (.ok a : Except ε α) := Or.inl ⟨a, rfl⟩

theorem endsIn_error {e : ε} (he : F e) : EndsIn F (.error e : Except ε α) := Or.inr ⟨e, he, rfl⟩

theorem endsIn_bind {f : α → Except ε β} (hx : EndsIn F x) (hf : ∀ a, EndsIn F (f a)) : EndsIn F (x >>= f) := by
  rcases hx with ⟨a, rfl⟩ | ⟨e, he, rfl⟩
  · exact hf a
  · exact endsIn_error he

theorem endsIn_mapError {G : ε' → Prop} {y : Except ε' α} {f : ε' → ε} (hy : EndsIn G y)
    (hf : ∀ fault, G fault → F (f fault)) : EndsIn F (y.mapError f) := by
  rcases hy with ⟨a, rfl⟩ | ⟨fault, hfault, rfl⟩
  · exact endsIn_ok
  · exact endsIn_error (hf fault hfault)

theorem EndsIn.of_error {e : ε} (h : EndsIn F x) (hx : x = .error e) : F e := by
  rcases h with ⟨a, rfl⟩ | ⟨e', he, rfl⟩
  · exact nomatch hx
  · exact Except.error.inj hx ▸ he

end

/-! ## With a state -/

section
variable {σ : Type} {s s' : σ}

theorem run_bind_eq_ok {x : ExceptT ε (StateM σ) α} {f : α → ExceptT ε (StateM σ) β} {b : β} :
    (x >>= f).run.run s = (.ok b, s') ↔ ∃ a t, x.run.run s = (.ok a, t) ∧ (f a).run.run t = (.ok b, s') := by
  rw [ExceptT.run_bind, StateT.run_bind]
  rcases x.run.run s with ⟨e | a, t⟩
  · exact ⟨fun hno => (nomatch hno), fun ⟨_, _, hno, _⟩ => (nomatch hno)⟩
  · refine ⟨fun h => ⟨a, t, rfl, h⟩, ?_⟩
    rintro ⟨_, _, ⟨⟩, h⟩
    exact h

theorem run_pure_eq_ok {a b : α} : (pure a : ExceptT ε (StateM σ) α).run.run s = (.ok b, s') ↔ a = b ∧ s = s' := by
  show ((.ok a, s) : Except ε α × σ) = (.ok b, s') ↔ _
  rw [Prod.mk.injEq, Except.ok.injEq]

theorem run_mk_pure_eq_ok {x : Except ε α} {a : α} :
    (ExceptT.mk (pure x) : ExceptT ε (StateM σ) α).run.run s = (.ok a, s') ↔ x = .ok a ∧ s = s' := by
  show ((x, s) : Except ε α × σ) = (.ok a, s') ↔ _
  rw [Prod.mk.injEq]

theorem fst_toOption_map_eq_some {r : Except ε α × σ} {f : α → β} {b : β} :
    r.1.toOption.map f = some b ↔ ∃ a t, r = (.ok a, t) ∧ f a = b := by
  rw [toOption_map_eq_some]
  constructor
  · rintro ⟨a, ha, hb⟩
    exact ⟨a, r.2, Prod.ext ha rfl, hb⟩
  · rintro ⟨a, t, rfl, hb⟩
    exact ⟨a, rfl, hb⟩

end

end Airdrop.Outcome
