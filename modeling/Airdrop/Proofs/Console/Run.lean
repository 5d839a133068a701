import Airdrop.Console.Desk
import Airdrop.Proofs.Disk
import Airdrop.Proofs.Outcome

/-!
# Steps of commands on a desk

When a step succeeds and what it leaves, one lemma for each kind of step; a command is peeled apart by them.

* `attempt_eq_ok`, `given_eq_ok`, `print_eq_ok`, `run_mapM`, `of_run_mapM` : steps without files.
* `Desk.Holds`, `Desk.HoldsValue` : what a file on a desk holds. `attempt_readText_eq_ok`, `write_eq_ok` : reading and
  writing.
* `Desk.Writable` : where a file can be written. `exists_write`, `write_of_not_writable`.
* `isDirectory_of_makeDirectories`, `run_makeDirectories` : directories.
* `Keeps P x` : a property of the disk that stays whatever a step comes to. `keeps_bind` : by the parts of the step.
-/

namespace Airdrop.Console

open Outcome

variable {α β : Type} {d d' : Desk} {p : Path} {a : α}

/-! ## Steps that may fail -/

section
variable {ε σ : Type} {s s' : σ}

theorem throw_ne_ok {e : ε} : (throw e : ExceptT ε (StateM σ) α).run.run s ≠ (.ok a, s') := fun hno => nomatch hno

theorem lift_eq_ok {x : StateM σ α} :
    (ExceptT.lift x : ExceptT ε (StateM σ) α).run.run s = (.ok a, s') ↔ x.run s = (a, s') := by
  show ((.ok (x s).1, (x s).2) : Except ε α × σ) = _ ↔ x s = _
  rw [Prod.mk.injEq, Except.ok.injEq, ← Prod.mk.injEq]
  exact Iff.rfl

theorem run_lift_bind {x : StateM σ α} {f : α → ExceptT ε (StateM σ) β} :
    (ExceptT.lift x >>= f).run.run s = (f (x.run s).1).run.run (x.run s).2 := rfl

theorem run_bind_of_ok {x : ExceptT ε (StateM σ) α} {f : α → ExceptT ε (StateM σ) β} (hx : x.run.run s = (.ok a, s')) :
    (x >>= f).run.run s = (f a).run.run s' := by
  rw [ExceptT.run_bind, StateT.run_bind, hx]
  rfl

theorem run_bind_of_error {x : ExceptT ε (StateM σ) α} {f : α → ExceptT ε (StateM σ) β} {e : ε}
    (hx : x.run.run s = (.error e, s')) : (x >>= f).run.run s = (.error e, s') := by
  rw [ExceptT.run_bind, StateT.run_bind, hx]
  rfl

theorem run_tryCatch_eq_ok {x : ExceptT ε (StateM σ) α} {f : ε → ExceptT ε (StateM σ) α} :
    (tryCatch x f).run.run s = (.ok a, s') ↔
      x.run.run s = (.ok a, s') ∨ ∃ e t, x.run.run s = (.error e, t) ∧ (f e).run.run t = (.ok a, s') := by
  rw [ExceptT.run_tryCatch, StateT.run_bind]
  rcases x.run.run s with ⟨e | b, t⟩
  · constructor
    · exact fun h => Or.inr ⟨e, t, rfl, h⟩
    · rintro (hno | ⟨_, _, ⟨⟩, h⟩)
      · exact nomatch hno
      · exact h
  · exact ⟨Or.inl, fun h => h.elim id fun ⟨_, _, hno, _⟩ => nomatch hno⟩

end

theorem fail_ne_ok {message : String} : (fail message : Act (StateM Desk) α).run.run d ≠ (.ok a, d') := by
  intro hno
  rw [fail, run_bind_eq_ok] at hno
  obtain ⟨_, _, -, hthrow⟩ := hno
  exact throw_ne_ok hthrow

theorem attempt_eq_ok {what : String} {isExpected : Error → Bool} {step : ExceptT Error (StateM Desk) α} :
    (attempt what isExpected step).run.run d = (.ok a, d') ↔ step.run.run d = (.ok a, d') := by
  unfold attempt
  rw [run_bind_eq_ok]
  constructor
  · rintro ⟨r, t, hrun, hr⟩
    rw [lift_eq_ok] at hrun
    cases r with
    | ok b =>
      obtain ⟨rfl, rfl⟩ := run_pure_eq_ok.mp hr
      exact hrun
    | error e =>
      simp only at hr
      split at hr
      · exact absurd hr fail_ne_ok
      · exact absurd hr throw_ne_ok
  · intro hrun
    exact ⟨.ok a, d', lift_eq_ok.mpr hrun, run_pure_eq_ok.mpr ⟨rfl, rfl⟩⟩

theorem require_eq_ok {step : ExceptT Error (StateM Desk) α} :
    (require step).run.run d = (.ok a, d') ↔ step.run.run d = (.ok a, d') := attempt_eq_ok

/-- An error of a required step ends the run. -/
theorem run_require {step : ExceptT Error (StateM Desk) α} : (require step : Act (StateM Desk) α).run.run d =
    ((step.run.run d).1.mapError .failed, (step.run.run d).2) := by
  rw [require, attempt, run_lift_bind]
  rcases hrun : step.run.run d with ⟨e | a, t⟩ <;> rfl

theorem given_eq_ok {r : Except Error α} :
    (given r : ExceptT Error (StateM Desk) α).run.run d = (.ok a, d') ↔ r = .ok a ∧ d = d' := run_mk_pure_eq_ok

theorem print_eq_ok {o : Output} {u : Unit} :
    (print o : Act (StateM Desk) Unit).run.run d = (.ok u, d') ↔ { d with printed := d.printed ++ [o] } = d' := by
  rw [print, lift_eq_ok]
  show ((), { d with printed := d.printed ++ [o] }) = (u, d') ↔ _
  rw [Prod.mk.injEq, and_iff_right rfl]

/-- A step for each member of a list, none of which changes the state. -/
theorem run_mapM {ε σ : Type} {s : σ} {f : α → ExceptT ε (StateM σ) β} {g : α → β} : ∀ as : List α,
    (∀ a ∈ as, (f a).run.run s = (.ok (g a), s)) → (as.mapM f).run.run s = (.ok (as.map g), s)
  | [], _ => rfl
  | a :: as, h => by
    rw [List.mapM_cons, run_bind_eq_ok]
    refine ⟨g a, s, h a List.mem_cons_self, run_bind_eq_ok.mpr ⟨as.map g, s, ?_, rfl⟩⟩
    exact run_mapM as fun b hb => h b (List.mem_cons_of_mem a hb)

/-- What a step that leads to a good result shows of its item, steps that all lead to good results show of all items;
and if such a step leaves the state, so do all together. -/
theorem of_run_mapM {ε σ : Type} {f : α → ExceptT ε (StateM σ) β} {P : α → Prop} {Q : β → Prop}
    (hf : ∀ a b s s', (f a).run.run s = (.ok b, s') → Q b → s = s' ∧ P a) : ∀ (as : List α) (bs : List β) (s s' : σ),
    (as.mapM f).run.run s = (.ok bs, s') → (∀ b ∈ bs, Q b) → s = s' ∧ ∀ a ∈ as, P a
  | [], _, s, s', h, _ => by
    rw [List.mapM_nil] at h
    obtain ⟨-, rfl⟩ := run_pure_eq_ok.mp h
    exact ⟨rfl, fun _ hno => absurd hno List.not_mem_nil⟩
  | a :: as, _, s, s', h, hgood => by
    rw [List.mapM_cons, run_bind_eq_ok] at h
    obtain ⟨b, t, hb, h⟩ := h
    obtain ⟨bs, t', hbs, h⟩ := run_bind_eq_ok.mp h
    obtain ⟨rfl, rfl⟩ := run_pure_eq_ok.mp h
    rw [List.forall_mem_cons] at hgood
    obtain ⟨rfl, ha⟩ := hf a b s t hb hgood.1
    obtain ⟨rfl, has⟩ := of_run_mapM hf as bs s t' hbs hgood.2
    exact ⟨rfl, List.forall_mem_cons.mpr ⟨ha, has⟩⟩

/-! ## Files -/

section
variable {operation : StateM Desk (Except FileFault α)}

theorem run_onFile (hnul : p.text.toList.contains '\x00' = false) :
    (onFile p operation : ExceptT Error (StateM Desk) α).run.run d =
      ((operation.run d).1.mapError (.file · p.text), (operation.run d).2) := by
  unfold onFile
  rw [hnul, if_neg Bool.false_ne_true, run_lift_bind]
  rcases operation.run d with ⟨fault | b, t⟩ <;> rfl

theorem run_onFile_nul (hnul : p.text.toList.contains '\x00' = true) :
    (onFile p operation : ExceptT Error (StateM Desk) α).run.run d = (.error (.value .nulInPath), d) := by
  unfold onFile
  rw [hnul, if_pos rfl]
  rfl

theorem onFile_eq_ok :
    (onFile p operation).run.run d = (.ok a, d') ↔
      p.text.toList.contains '\x00' = false ∧ operation.run d = (.ok a, d') := by
  cases hnul : p.text.toList.contains '\x00' with
  | true =>
    rw [run_onFile_nul hnul]
    exact ⟨fun hno => (nomatch hno), fun hno => nomatch hno.1⟩
  | false =>
    rw [run_onFile hnul, and_iff_right rfl, Prod.mk.injEq, mapError_eq_ok, ← Prod.mk.injEq]
    exact Iff.rfl

end

theorem read_eq_ok {content : Bytes} :
    (read p : ExceptT Error (StateM Desk) Bytes).run.run d = (.ok content, d') ↔
      p.text.toList.contains '\x00' = false ∧ d.disk.read p = .ok content ∧ d = d' := by
  rw [read, onFile_eq_ok]
  show _ ∧ (d.disk.read p, d) = (.ok content, d') ↔ _
  rw [Prod.mk.injEq]

theorem readText_eq_ok {cs : List Char} :
    (readText p : ExceptT Error (StateM Desk) (List Char)).run.run d = (.ok cs, d') ↔
      p.text.toList.contains '\x00' = false ∧
        (∃ content, d.disk.read p = .ok content ∧ Utf8.decode? content = some cs) ∧ d = d' := by
  rw [readText, run_bind_eq_ok]
  simp only [read_eq_ok]
  constructor
  · rintro ⟨content, _, ⟨hnul, hread, rfl⟩, hdecode⟩
    split at hdecode
    · next decoded hsome =>
      obtain ⟨rfl, rfl⟩ := run_pure_eq_ok.mp hdecode
      exact ⟨hnul, ⟨content, hread, hsome⟩, rfl⟩
    · exact absurd hdecode throw_ne_ok
  · rintro ⟨hnul, ⟨content, hread, hsome⟩, rfl⟩
    refine ⟨content, d, ⟨hnul, hread, rfl⟩, ?_⟩
    rw [hsome]
    exact run_pure_eq_ok.mpr ⟨rfl, rfl⟩

theorem parse_eq_ok {cs : List Char} {v : Value} : parse cs = .ok v ↔ Json.read false depthLimit cs = .ok v := by
  unfold parse
  split
  · next hw => rw [hw, Except.ok.injEq, Except.ok.injEq]
  · next hw => exact ⟨fun hno => (nomatch hno), fun hno => nomatch hw.symm.trans hno⟩
  · next hw => exact ⟨fun hno => (nomatch hno), fun hno => nomatch hw.symm.trans hno⟩
  · next hw => exact ⟨fun hno => (nomatch hno), fun hno => nomatch hw.symm.trans hno⟩

theorem change_eq_ok {r : Except FileFault Disk} {u : Unit} :
    d.change r = (.ok u, d') ↔ ∃ disk, r = .ok disk ∧ { d with disk } = d' := by
  cases r with
  | error fault => exact ⟨fun hno => (nomatch hno), fun ⟨_, hno, _⟩ => nomatch hno⟩
  | ok disk =>
    constructor
    · intro h
      exact ⟨disk, rfl, congrArg Prod.snd h⟩
    · rintro ⟨_, ⟨⟩, rfl⟩
      rfl

theorem write_eq_ok {content : Bytes} {u : Unit} :
    (write p content : ExceptT Error (StateM Desk) Unit).run.run d = (.ok u, d') ↔
      p.text.toList.contains '\x00' = false ∧ ∃ disk, d.disk.write p content = .ok disk ∧ { d with disk } = d' := by
  rw [write, onFile_eq_ok]
  exact and_congr_right fun _ => change_eq_ok

namespace Desk

/-- A file on a desk that commands can read. -/
structure Holds (d : Desk) (file : String) (content : Bytes) : Prop where
  noNul : (Path.ofText file).text.toList.contains '\x00' = false
  content : d.disk.read (Path.ofText file) = .ok content

/-- A file on a desk whose text is a document with a value. -/
def HoldsValue (d : Desk) (file : String) (v : Value) : Prop :=
  ∃ content cs, d.Holds file content ∧ Utf8.decode? content = some cs ∧ Json.read false depthLimit cs = .ok v

/-- A file can be written at a path. -/
structure Writable (d : Desk) (p : Path) : Prop where
  noNul : p.text.toList.contains '\x00' = false
  free : ∃ place, d.disk.place p = .ok place ∧ d.disk.node? place ≠ some .directory

end Desk

theorem exists_write (hw : d.Writable p) (content : Bytes) :
    ∃ d', (write p content : ExceptT Error (StateM Desk) Unit).run.run d = (.ok (), d') := by
  obtain ⟨hnul, place, hplace, hfree⟩ := hw
  exact ⟨_, write_eq_ok.mpr ⟨hnul, _, Disk.write_eq_ok.mpr ⟨place, hplace, hfree, rfl⟩, rfl⟩⟩

theorem write_of_not_writable (hw : ¬d.Writable p) (content : Bytes) :
    ∃ e, (write p content : ExceptT Error (StateM Desk) Unit).run.run d = (.error e, d) := by
  cases hnul : p.text.toList.contains '\x00' with
  | true => exact ⟨_, run_onFile_nul hnul⟩
  | false =>
    cases hdisk : d.disk.write p content with
    | ok disk =>
      obtain ⟨place, hplace, hfree, -⟩ := Disk.write_eq_ok.mp hdisk
      exact absurd ⟨hnul, place, hplace, hfree⟩ hw
    | error fault =>
      have hchange : (MonadConsole.writeFile p content : StateM Desk _).run d = (.error fault, d) := by
        show d.change (d.disk.write p content) = _
        rw [hdisk]
        rfl
      refine ⟨.file fault p.text, (run_onFile hnul).trans ?_⟩
      rw [hchange]
      rfl

/-- What a reader makes of the text in a file. -/
theorem attempt_readText_eq_ok {what file : String} {reader : List Char → Except Error α} :
    (attempt what isUnreadable do given (reader (← readText (Path.ofText file))) : Act (StateM Desk) α).run.run d =
        (.ok a, d') ↔
      (∃ content cs, d.Holds file content ∧ Utf8.decode? content = some cs ∧ reader cs = .ok a) ∧ d = d' := by
  rw [attempt_eq_ok, run_bind_eq_ok]
  simp only [readText_eq_ok, given_eq_ok]
  constructor
  · rintro ⟨cs, _, ⟨hnul, ⟨content, hread, hdecode⟩, rfl⟩, ha, rfl⟩
    exact ⟨⟨content, cs, ⟨hnul, hread⟩, hdecode, ha⟩, rfl⟩
  · rintro ⟨⟨content, cs, ⟨hnul, hread⟩, hdecode, ha⟩, rfl⟩
    exact ⟨cs, d, ⟨hnul, ⟨content, hread, hdecode⟩, rfl⟩, ha, rfl⟩

theorem readValue_eq_ok {what file : String} {v : Value} :
    (readValue what file : Act (StateM Desk) Value).run.run d = (.ok v, d') ↔ d.HoldsValue file v ∧ d = d' := by
  rw [readValue, attempt_readText_eq_ok]
  simp only [parse_eq_ok]
  exact Iff.rfl

theorem readObject_eq_ok {what file refusal : String} {fs : Fields} :
    (readObject what file refusal : Act (StateM Desk) Fields).run.run d = (.ok fs, d') ↔
      d.HoldsValue file (.object fs) ∧ d = d' := by
  rw [readObject, run_bind_eq_ok]
  simp only [readValue_eq_ok]
  constructor
  · rintro ⟨v, _, ⟨hv, rfl⟩, hfs⟩
    split at hfs
    · obtain ⟨rfl, rfl⟩ := run_pure_eq_ok.mp hfs
      exact ⟨hv, rfl⟩
    · exact absurd hfs fail_ne_ok
  · rintro ⟨hv, rfl⟩
    exact ⟨_, d, ⟨hv, rfl⟩, run_pure_eq_ok.mpr ⟨rfl, rfl⟩⟩

/-! ## Directories -/

theorem isDirectory_of_made {u : Unit}
    (h : (makeDirectory p : ExceptT Error (StateM Desk) Unit).run.run d = (.ok u, d')) :
    p.text.toList.contains '\x00' = false ∧ d'.disk.at? p = some .directory := by
  rw [makeDirectory, run_tryCatch_eq_ok] at h
  obtain h | ⟨e, t, hfail, h⟩ := h
  · obtain ⟨hnul, h⟩ := onFile_eq_ok.mp h
    obtain ⟨disk, hmake, rfl⟩ := change_eq_ok.mp h
    exact ⟨hnul, Disk.isDirectory_of_makeDirectory hmake⟩
  · split at h
    · next fault there =>
      constructor
      · refine Bool.eq_false_iff.mpr fun hnul => ?_
        rw [run_onFile_nul hnul] at hfail
        exact nomatch hfail
      · by_cases hfault : fault ≠ .notFound
        · simp only [if_pos hfault, run_lift_bind] at h
          change (if (t.disk.at? p == some .directory) = true then pure () else throw _ :
            ExceptT Error (StateM Desk) Unit).run.run t = _ at h
          split at h
          · next hdirectory =>
            obtain ⟨-, rfl⟩ := run_pure_eq_ok.mp h
            exact beq_iff_eq.mp hdirectory
          · exact absurd h throw_ne_ok
        · simp only [if_neg hfault] at h
          exact absurd h throw_ne_ok
    · exact absurd h throw_ne_ok

/-- A directory that is there need not be made. -/
theorem run_makeDirectory (hnul : p.text.toList.contains '\x00' = false) (h : d.disk.at? p = some .directory) :
    (makeDirectory p : ExceptT Error (StateM Desk) Unit).run.run d = (.ok (), d) := by
  have hfail : (onFile p (MonadConsole.makeDirectory p) : ExceptT Error (StateM Desk) Unit).run.run d =
      (.error (.file .alreadyExists p.text), d) := by
    rw [run_onFile hnul]
    show ((d.change (d.disk.makeDirectory p)).1.mapError _, (d.change (d.disk.makeDirectory p)).2) = _
    rw [Disk.makeDirectory_of_at? h]
    rfl
  rw [makeDirectory, run_tryCatch_eq_ok]
  refine Or.inr ⟨_, d, hfail, ?_⟩
  simp only [if_pos (show FileFault.alreadyExists ≠ .notFound by decide), run_lift_bind]
  show (if (d.disk.at? p == some .directory) = true then pure () else _ :
    ExceptT Error (StateM Desk) Unit).run.run d = _
  rw [if_pos (beq_iff_eq.mpr h)]
  rfl

theorem isDirectory_of_madeFrom {start : String} {u : Unit} : ∀ (steps : List String) {d d' : Desk},
    (makeDirectoriesFrom start steps : ExceptT Error (StateM Desk) Unit).run.run d = (.ok u, d') →
      (⟨start, steps.reverse⟩ : Path).text.toList.contains '\x00' = false ∧
        d'.disk.at? ⟨start, steps.reverse⟩ = some .directory
  | [], _, _, h => isDirectory_of_made h
  | name :: above, d, d', h => by
    rw [makeDirectoriesFrom, run_tryCatch_eq_ok] at h
    obtain h | ⟨e, t, -, h⟩ := h
    · exact isDirectory_of_made h
    · split at h
      · obtain ⟨_, _, -, h⟩ := run_bind_eq_ok.mp h
        exact isDirectory_of_made h
      · exact absurd h throw_ne_ok

theorem isDirectory_of_makeDirectories {u : Unit}
    (h : (makeDirectories p : ExceptT Error (StateM Desk) Unit).run.run d = (.ok u, d')) :
    p.text.toList.contains '\x00' = false ∧ d'.disk.at? p = some .directory := by
  have hmade := isDirectory_of_madeFrom _ h
  rwa [List.reverse_reverse] at hmade

theorem run_makeDirectories (hnul : p.text.toList.contains '\x00' = false) (h : d.disk.at? p = some .directory) :
    (makeDirectories p : ExceptT Error (StateM Desk) Unit).run.run d = (.ok (), d) := by
  rcases p with ⟨start, names⟩
  show (makeDirectoriesFrom start names.reverse : ExceptT Error (StateM Desk) Unit).run.run d = _
  cases hsteps : names.reverse with
  | nil =>
    obtain rfl := List.reverse_eq_nil_iff.mp hsteps
    exact run_makeDirectory hnul h
  | cons name above =>
    rw [makeDirectoriesFrom, ← hsteps, List.reverse_reverse, run_tryCatch_eq_ok]
    exact Or.inl (run_makeDirectory hnul h)

/-! ## Properties that stay -/

/-- Whatever a step comes to, a property of the disk stays. -/
def Keeps {ε : Type} (P : Disk → Prop) (x : ExceptT ε (StateM Desk) α) : Prop :=
  ∀ d : Desk, P d.disk → P (x.run.run d).2.disk

section
variable {ε : Type} {P : Disk → Prop}

theorem Keeps.of_run {x : ExceptT ε (StateM Desk) α} (h : Keeps P x) (hd : P d.disk) {r : Except ε α}
    (hrun : x.run.run d = (r, d')) : P d'.disk := by
  have hkept := h d hd
  rwa [hrun] at hkept

theorem keeps_pure : Keeps P (pure a : ExceptT ε (StateM Desk) α) := fun _ h => h

theorem keeps_throw {e : ε} : Keeps P (throw e : ExceptT ε (StateM Desk) α) := fun _ h => h

theorem keeps_given {r : Except Error α} : Keeps P (given r : ExceptT Error (StateM Desk) α) := fun _ h => h

theorem keeps_lift {x : StateM Desk α} (hx : ∀ d : Desk, P d.disk → P (x.run d).2.disk) :
    Keeps P (ExceptT.lift x : ExceptT ε (StateM Desk) α) := hx

theorem keeps_bind {x : ExceptT ε (StateM Desk) α} {f : α → ExceptT ε (StateM Desk) β} (hx : Keeps P x)
    (hf : ∀ a, Keeps P (f a)) : Keeps P (x >>= f) := by
  intro d hd
  rw [ExceptT.run_bind, StateT.run_bind]
  have hd' := hx d hd
  revert hd'
  rcases x.run.run d with ⟨e | a, t⟩
  · exact id
  · exact hf a t

theorem keeps_tryCatch {x : ExceptT ε (StateM Desk) α} {f : ε → ExceptT ε (StateM Desk) α} (hx : Keeps P x)
    (hf : ∀ e, Keeps P (f e)) :
    Keeps P (tryCatch x f) := by
  intro d hd
  have hkept := hx d hd
  rw [ExceptT.run_tryCatch, StateT.run_bind]
  revert hkept
  rcases x.run.run d with ⟨e | a, t⟩
  · exact hf e t
  · exact id

theorem keeps_print {o : Output} : Keeps P (print o : Act (StateM Desk) Unit) := fun _ h => h

theorem keeps_fail {message : String} : Keeps P (fail message : Act (StateM Desk) α) :=
  keeps_bind keeps_print fun _ => keeps_throw

theorem keeps_attempt {what : String} {isExpected : Error → Bool} {step : ExceptT Error (StateM Desk) α}
    (hstep : Keeps P step) : Keeps P (attempt what isExpected step) := by
  refine keeps_bind (keeps_lift hstep) fun r => ?_
  cases r with
  | ok a => exact keeps_pure
  | error e =>
    show Keeps P (if isExpected e then _ else _)
    split
    · exact keeps_fail
    · exact keeps_throw

theorem keeps_onFile {operation : StateM Desk (Except FileFault α)}
    (h : ∀ d : Desk, P d.disk → P (operation.run d).2.disk) :
    Keeps P (onFile p operation : ExceptT Error (StateM Desk) α) := by
  intro d hd
  cases hnul : p.text.toList.contains '\x00' with
  | true =>
    rw [run_onFile_nul hnul]
    exact hd
  | false =>
    rw [run_onFile hnul]
    exact h d hd

theorem keeps_read : Keeps P (read p : ExceptT Error (StateM Desk) Bytes) := keeps_onFile fun _ h => h

theorem keeps_write {content : Bytes} (h : ∀ d d' : Disk, P d → d.write p content = .ok d' → P d') :
    Keeps P (write p content : ExceptT Error (StateM Desk) Unit) := by
  refine keeps_onFile fun d hd => ?_
  show P (d.change (d.disk.write p content)).2.disk
  cases hwrite : d.disk.write p content with
  | error fault => exact hd
  | ok disk => exact h d.disk disk hd hwrite

end

end Airdrop.Console
