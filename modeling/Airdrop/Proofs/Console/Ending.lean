import Airdrop.Proofs.Console.Run

/-!
# How steps end

* `Leads P x Q E` : from disks with the property `P` the step `x` comes to a result with the property `Q`, or to an
  error with the property `E`. `leads_bind` : one step after the other.
* `Orderly P x` : whatever `x` comes to, the disk keeps `P`, and where it ends the run, the exit code is 1.
* `orderly_attempt` : a step whose errors are told or end the run. `orderly_readValue` : reading is orderly.
* `keeps_makeDirectories` : what no new directory changes stays.
-/

namespace Airdrop.Console

open Outcome

variable {α β ε : Type} {P P' : Disk → Prop} {Q : α → Disk → Prop} {R : β → Disk → Prop} {E : ε → Disk → Prop}

/-- From disks with a property, a step comes to results and errors with other ones. -/
def Leads (P : Disk → Prop) (x : ExceptT ε (StateM Desk) α) (Q : α → Disk → Prop) (E : ε → Disk → Prop) : Prop :=
  ∀ d : Desk, P d.disk →
    (∀ a d', x.run.run d = (.ok a, d') → Q a d'.disk) ∧ ∀ e d', x.run.run d = (.error e, d') → E e d'.disk

section
variable {x : ExceptT ε (StateM Desk) α} {f : α → ExceptT ε (StateM Desk) β}

theorem Keeps.leads (h : Keeps P x) : Leads P x (fun _ => P) (fun _ => P) := fun _ hd =>
  ⟨fun _ _ hrun => h.of_run hd hrun, fun _ _ hrun => h.of_run hd hrun⟩

theorem leads_bind (hx : Leads P x Q E) (hf : ∀ a, Leads (Q a) (f a) R E) : Leads P (x >>= f) R E := by
  intro d hd
  obtain ⟨hok, herror⟩ := hx d hd
  rw [ExceptT.run_bind, StateT.run_bind]
  rcases hrun : x.run.run d with ⟨e | a, t⟩
  · refine ⟨fun b d' hno => (nomatch hno), ?_⟩
    rintro e' d' ⟨⟩
    exact herror e t hrun
  · exact hf a t (hok a t hrun)

theorem leads_lift {x : StateM Desk α} (hx : ∀ d : Desk, P d.disk → Q (x.run d).1 (x.run d).2.disk) :
    Leads P (ExceptT.lift x : ExceptT ε (StateM Desk) α) Q E := by
  intro d hd
  refine ⟨fun a d' hrun => ?_, fun e d' hno => nomatch hno⟩
  have hown := hx d hd
  rwa [lift_eq_ok.mp hrun] at hown

theorem leads_pure {a : α} (h : ∀ disk, P disk → Q a disk) : Leads P (pure a : ExceptT ε (StateM Desk) α) Q E := by
  intro d hd
  refine ⟨fun b d' hrun => ?_, fun e d' hno => nomatch hno⟩
  obtain ⟨rfl, rfl⟩ := run_pure_eq_ok.mp hrun
  exact h d.disk hd

theorem leads_throw {e : ε} (h : ∀ disk, P disk → E e disk) : Leads P (throw e : ExceptT ε (StateM Desk) α) Q E := by
  intro d hd
  refine ⟨fun a d' hno => absurd hno throw_ne_ok, ?_⟩
  rintro e' d' ⟨⟩
  exact h d.disk hd

end

/-! ## Reading, writing and directories -/

theorem keeps_readText {p : Path} : Keeps P (readText p : ExceptT Error (StateM Desk) (List Char)) := by
  refine keeps_bind keeps_read fun content => ?_
  split
  · exact keeps_pure
  · exact keeps_throw

/-- Where a file cannot be written, the disk is as before. -/
theorem leads_write {p : Path} {content : Bytes} :
    Leads P (write p content : ExceptT Error (StateM Desk) Unit) (fun _ _ => True) (fun _ => P) := by
  intro d hd
  refine ⟨fun _ _ _ => trivial, fun e d' hrun => ?_⟩
  unfold write at hrun
  cases hnul : p.text.toList.contains '\x00' with
  | true =>
    rw [run_onFile_nul hnul] at hrun
    obtain ⟨-, rfl⟩ := Prod.mk.inj hrun
    exact hd
  | false =>
    rw [run_onFile hnul] at hrun
    change ((d.change (d.disk.write p content)).1.mapError _, (d.change (d.disk.write p content)).2) = _ at hrun
    cases hwrite : d.disk.write p content with
    | error fault =>
      rw [hwrite] at hrun
      obtain ⟨-, rfl⟩ := Prod.mk.inj hrun
      exact hd
    | ok disk =>
      rw [hwrite] at hrun
      exact nomatch (Prod.mk.inj hrun).1

section
variable (hP : ∀ (p : Path) (disk disk' : Disk), P disk → disk.makeDirectory p = .ok disk' → P disk')
include hP

theorem keeps_makeDirectory (p : Path) : Keeps P (makeDirectory p : ExceptT Error (StateM Desk) Unit) := by
  refine keeps_tryCatch (keeps_onFile fun d hd => ?_) fun e => ?_
  · show P (d.change (d.disk.makeDirectory p)).2.disk
    cases hmake : d.disk.makeDirectory p with
    | error fault => exact hd
    | ok disk => exact hP p d.disk disk hd hmake
  · split
    · split
      · refine keeps_bind (keeps_lift fun _ h => h) fun isDirectory => ?_
        split
        · exact keeps_pure
        · exact keeps_throw
      · exact keeps_throw
    · exact keeps_throw

theorem keeps_makeDirectoriesFrom (start : String) : ∀ steps : List String,
    Keeps P (makeDirectoriesFrom start steps : ExceptT Error (StateM Desk) Unit)
  | [] => keeps_makeDirectory hP _
  | name :: above => by
    refine keeps_tryCatch (keeps_makeDirectory hP _) fun e => ?_
    split
    · exact keeps_bind (keeps_makeDirectoriesFrom start above) fun _ => keeps_makeDirectory hP _
    · exact keeps_throw

theorem keeps_makeDirectories (p : Path) : Keeps P (makeDirectories p : ExceptT Error (StateM Desk) Unit) :=
  keeps_makeDirectoriesFrom hP p.start _

end

/-! ## Orderly endings -/

/-- A run that ends with the code 1 and leaves a disk with a property. -/
def Stops (P : Disk → Prop) (e : Ending) (disk : Disk) : Prop := e.code = 1 ∧ P disk

/-- Whatever a step of a command comes to, a property of the disk stays, and the exit code is 1 where it ends the
run. -/
def Orderly (P : Disk → Prop) (x : Act (StateM Desk) α) : Prop := Leads P x (fun _ => P) (Stops P)

theorem leads_fail {message : String} (h : ∀ disk, P disk → P' disk) :
    Leads P (fail message : Act (StateM Desk) α) Q (Stops P') := by
  refine leads_bind (leads_lift (Q := fun _ => P) fun _ hd => hd) fun _ => ?_
  exact leads_throw fun disk hd => ⟨rfl, h disk hd⟩

theorem leads_ite_fail {message : String} {q : Prop} [Decidable q] {f : β → Act (StateM Desk) α}
    {x : Act (StateM Desk) α} (hx : Leads P x Q (Stops P)) :
    Leads P (if q then fail message >>= f else x) Q (Stops P) := by
  split
  · exact leads_bind (leads_fail (Q := fun _ _ => False) fun _ hd => hd) fun _ _ hno => hno.elim
  · exact hx

theorem leads_attempt {what : String} {isExpected : Error → Bool} {step : ExceptT Error (StateM Desk) α}
    (h : Leads P step Q (fun _ => P')) : Leads P (attempt what isExpected step) Q (Stops P') := by
  refine leads_bind (leads_lift (Q := fun r disk => (∀ a, r = .ok a → Q a disk) ∧ ∀ e, r = .error e → P' disk) ?_) ?_
  · intro d hd
    obtain ⟨hok, herror⟩ := h d hd
    exact ⟨fun a ha => hok a _ (Prod.ext ha rfl), fun e he => herror e _ (Prod.ext he rfl)⟩
  · rintro (e | a)
    · dsimp only
      split
      · exact leads_fail fun _ hd => hd.2 e rfl
      · exact leads_throw fun _ hd => ⟨rfl, hd.2 e rfl⟩
    · exact leads_pure fun _ hd => hd.1 a rfl

theorem orderly_attempt {what : String} {isExpected : Error → Bool} {step : ExceptT Error (StateM Desk) α}
    (h : Keeps P step) : Orderly P (attempt what isExpected step) := leads_attempt h.leads

theorem orderly_readValue {what file : String} : Orderly P (readValue what file : Act (StateM Desk) Value) :=
  orderly_attempt (keeps_bind keeps_readText fun _ => keeps_given)

end Airdrop.Console
