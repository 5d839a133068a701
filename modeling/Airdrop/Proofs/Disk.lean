import Airdrop.Disk
import Airdrop.Proofs.Outcome

/-!
# What operations on files leave

A file is only put where no directory stands, so no way through directories is cut off.

* `place_put` : every path leads where it led before.
* `read_of_write`, `read_write_ne` : the content of the written file, and that of every other one.
* `isDirectory_of_write` : directories stay.
* `place_sibling_ne` : a file and its neighbour with another name stand at different places.
* `write_of_isDirectory` : when a path can be written.
* `file?` : the files of a disk by their places. `file?_of_write`, `file?_of_makeDirectory` : what becomes of them.
-/

namespace Airdrop.Disk

open Outcome

variable {d d' : Disk} {p q : Path} {place other here : List String} {name : String} {content : Bytes} {n : Node}

/-! ## Places -/

theorem enter_eq_ok : d.enter here name = .ok place ↔ step here name = .ok place ∧ d.node? place = some .directory := by
  rw [enter, bind_eq_ok]
  constructor
  · rintro ⟨other, hstep, hnode⟩
    split at hnode
    · next hdirectory =>
      obtain rfl := Except.ok.inj hnode
      exact ⟨hstep, hdirectory⟩
    · exact nomatch hnode
    · exact nomatch hnode
  · rintro ⟨hstep, hdirectory⟩
    refine ⟨place, hstep, ?_⟩
    rw [hdirectory]

/-- The start of a path. -/
def startOf (d : Disk) (p : Path) : List String := if p.isAbsolute then [] else d.home

/-- The place of the last step of a path, if it has one. -/
def last (here : List String) (p : Path) : Except FileFault (List String) :=
  match p.names.getLast? with
  | none => .ok here
  | some name => step here name

theorem place_eq_ok : d.place p = .ok place ↔ (Utf8.ofText p.text).length ≤ maxPath ∧
    ∃ here, p.names.dropLast.foldlM d.enter (d.startOf p) = .ok here ∧ last here p = .ok place := by
  unfold Disk.place
  by_cases hlong : maxPath < (Utf8.ofText p.text).length
  · rw [if_pos hlong]
    exact ⟨fun hno => (nomatch hno), fun h => absurd h.1 (Nat.not_le.mpr hlong)⟩
  · rw [if_neg hlong, and_iff_right (Nat.not_lt.mp hlong)]
    exact bind_eq_ok

theorem node?_nil (d : Disk) : d.node? [] = some .directory := rfl

theorem node?_put_of_directory (hfree : d.node? place ≠ some .directory) (hother : d.node? other = some .directory) :
    (d.put place n).node? other = some .directory := by
  have hne : other ≠ place := by
    rintro rfl
    exact hfree hother
  have hplace : place ≠ [] := by
    rintro rfl
    exact hfree (node?_nil d)
  rw [node?_put d place other n hplace, if_neg hne, hother]

theorem foldlM_enter_put (hfree : d.node? place ≠ some .directory) : ∀ (names : List String) (here there : List String),
    names.foldlM d.enter here = .ok there → names.foldlM (d.put place n).enter here = .ok there
  | [], _, _, h => h
  | name :: names, here, there, h => by
    rw [List.foldlM_cons, bind_eq_ok] at h ⊢
    obtain ⟨next, henter, hrest⟩ := h
    obtain ⟨hstep, hdirectory⟩ := enter_eq_ok.mp henter
    exact ⟨next, enter_eq_ok.mpr ⟨hstep, node?_put_of_directory hfree hdirectory⟩,
      foldlM_enter_put hfree names next there hrest⟩

/-- Every path leads where it led before. -/
theorem place_put (hfree : d.node? place ≠ some .directory) (hq : d.place q = .ok other) :
    (d.put place n).place q = .ok other := by
  obtain ⟨hlength, here, hhere, hlast⟩ := place_eq_ok.mp hq
  exact place_eq_ok.mpr ⟨hlength, here, foldlM_enter_put hfree _ _ _ hhere, hlast⟩

/-! ## Reading and writing -/

theorem read_eq_ok : d.read p = .ok content ↔
    ∃ place, d.place p = .ok place ∧ d.node? place = some (.file content) := by
  rw [read, bind_eq_ok]
  refine exists_congr fun place => and_congr_right fun _ => ?_
  cases d.node? place with
  | none => simp
  | some n => cases n <;> simp

theorem write_eq_ok : d.write p content = .ok d' ↔
    ∃ place, d.place p = .ok place ∧ d.node? place ≠ some .directory ∧ d' = d.put place (.file content) := by
  rw [write, bind_eq_ok]
  refine exists_congr fun place => and_congr_right fun _ => ?_
  cases d.node? place with
  | none => simp [eq_comm]
  | some n => cases n <;> simp [eq_comm]

theorem at?_eq_some : d.at? p = some n ↔ ∃ place, d.place p = .ok place ∧ d.node? place = some n := by
  unfold at?
  simp only [Option.bind_eq_some_iff, toOption_eq_some]

theorem makeDirectory_eq_ok : d.makeDirectory p = .ok d' ↔
    ∃ place, d.place p = .ok place ∧ d.node? place = none ∧ d' = d.put place .directory := by
  rw [makeDirectory, bind_eq_ok]
  refine exists_congr fun place => and_congr_right fun _ => ?_
  cases d.node? place <;> simp [eq_comm]

theorem makeDirectory_of_at? (h : d.at? p = some n) : d.makeDirectory p = .error .alreadyExists := by
  obtain ⟨place, hplace, hnode⟩ := at?_eq_some.mp h
  simp only [makeDirectory, hplace, bind, Except.bind, hnode]

theorem ne_nil_of_free (hfree : d.node? place ≠ some .directory) : place ≠ [] := by
  rintro rfl
  exact hfree (node?_nil d)

theorem read_of_write (h : d.write p content = .ok d') : d'.read p = .ok content := by
  obtain ⟨place, hplace, hfree, rfl⟩ := write_eq_ok.mp h
  refine read_eq_ok.mpr ⟨place, place_put hfree hplace, ?_⟩
  rw [node?_put d place place _ (ne_nil_of_free hfree), if_pos rfl]

theorem read_write_ne {old : Bytes} (h : d.write p content = .ok d') (hq : d.read q = .ok old)
    (hne : d.place q ≠ d.place p) : d'.read q = .ok old := by
  obtain ⟨place, hplace, hfree, rfl⟩ := write_eq_ok.mp h
  obtain ⟨other, hother, hnode⟩ := read_eq_ok.mp hq
  have hdiffer : other ≠ place := by
    rintro rfl
    exact hne (hother.trans hplace.symm)
  refine read_eq_ok.mpr ⟨other, place_put hfree hother, ?_⟩
  rw [node?_put d place other _ (ne_nil_of_free hfree), if_neg hdiffer, hnode]

theorem isDirectory_of_write (h : d.write p content = .ok d') (hq : d.at? q = some .directory) :
    d'.at? q = some .directory := by
  obtain ⟨place, -, hfree, rfl⟩ := write_eq_ok.mp h
  obtain ⟨other, hother, hnode⟩ := at?_eq_some.mp hq
  exact at?_eq_some.mpr ⟨other, place_put hfree hother, node?_put_of_directory hfree hnode⟩

theorem isDirectory_of_makeDirectory (h : d.makeDirectory p = .ok d') : d'.at? p = some .directory := by
  obtain ⟨place, hplace, hnone, rfl⟩ := makeDirectory_eq_ok.mp h
  have hfree : d.node? place ≠ some .directory := by
    rw [hnone]
    exact fun hno => nomatch hno
  refine at?_eq_some.mpr ⟨place, place_put hfree hplace, ?_⟩
  rw [node?_put d place place _ (ne_nil_of_free hfree), if_pos rfl]

/-! ## Neighbours -/

theorem step_of_name (hname : name ≠ "..") (hstep : step here name = .ok place) : place = here ++ [name] := by
  rw [step, if_neg hname, ite_error_eq_ok] at hstep
  exact (Except.ok.inj hstep.2).symm

/-- A file and its neighbour with another name stand at different places. -/
theorem place_sibling_ne (hname : name ≠ "..") (hlast : p.names.getLast? ≠ some name) (hp : d.place p = .ok place) :
    d.place (p.sibling name) ≠ .ok place := by
  intro hsibling
  obtain ⟨-, here, hhere, hplace⟩ := place_eq_ok.mp hp
  obtain ⟨-, here', hhere', hplace'⟩ := place_eq_ok.mp hsibling
  have hnames : (p.sibling name).names = p.names.dropLast ++ [name] := rfl
  rw [hnames, List.dropLast_concat] at hhere'
  obtain rfl : here = here' := Except.ok.inj (hhere.symm.trans hhere')
  have hown : place = here ++ [name] := by
    rw [last, hnames, List.getLast?_concat] at hplace'
    exact step_of_name hname hplace'
  rw [last] at hplace
  split at hplace
  · obtain rfl : here = place := Except.ok.inj hplace
    simpa using congrArg List.length hown
  · next other hother =>
    by_cases hup : other = ".."
    · subst hup
      rw [step, if_pos rfl] at hplace
      have hlength := congrArg List.length ((Except.ok.inj hplace).trans hown)
      simp only [List.length_dropLast, List.length_append, List.length_singleton] at hlength
      omega
    · have hsame := (step_of_name hup hplace).symm.trans hown
      simp only [List.append_cancel_left_eq, List.cons.injEq, and_true] at hsame
      exact hlast (hsame ▸ hother)

/-! ## When a path can be written -/

theorem startOf_parent (d : Disk) (p : Path) : d.startOf p.parent = d.startOf p := rfl

/-- The steps to a directory can be gone on from there. -/
theorem foldlM_of_isDirectory (hp : d.at? p = some .directory) :
    ∃ here, p.names.foldlM d.enter (d.startOf p) = .ok here := by
  obtain ⟨place, hplace, hdirectory⟩ := at?_eq_some.mp hp
  obtain ⟨-, here, hhere, hlast⟩ := place_eq_ok.mp hplace
  rw [last] at hlast
  split at hlast
  · next hnone =>
    rw [List.getLast?_eq_none_iff.mp hnone]
    exact ⟨d.startOf p, rfl⟩
  · next name hname =>
    obtain ⟨init, hinit⟩ := List.getLast?_eq_some_iff.mp hname
    rw [hinit, List.dropLast_concat] at hhere
    refine ⟨place, ?_⟩
    rw [hinit, List.foldlM_append, bind_eq_ok]
    refine ⟨here, hhere, ?_⟩
    rw [List.foldlM_cons, bind_eq_ok]
    exact ⟨place, enter_eq_ok.mpr ⟨hlast, hdirectory⟩, rfl⟩

/-- Only the lengths of names and paths are bounded: what one disk can hold, another one can that has the directory. -/
theorem exists_place (hp : d.place p = .ok place) (hparent : d'.at? p.parent = some .directory) :
    ∃ other, d'.place p = .ok other := by
  obtain ⟨hlength, here, -, hlast⟩ := place_eq_ok.mp hp
  obtain ⟨there, hthere⟩ := foldlM_of_isDirectory hparent
  rw [startOf_parent] at hthere
  suffices hstep : ∃ other, last there p = .ok other by
    obtain ⟨other, hother⟩ := hstep
    exact ⟨other, place_eq_ok.mpr ⟨hlength, there, hthere, hother⟩⟩
  unfold last at hlast ⊢
  split at hlast
  · exact ⟨there, rfl⟩
  · next name _ =>
    unfold step at hlast ⊢
    by_cases hup : name = ".."
    · rw [if_pos hup]
      exact ⟨_, rfl⟩
    · rw [if_neg hup, ite_error_eq_ok] at hlast
      rw [if_neg hup, if_neg hlast.1]
      exact ⟨_, rfl⟩

theorem write_of_isDirectory (hp : d.place p = .ok place) (hparent : d'.at? p.parent = some .directory)
    (hfree : d'.at? p ≠ some .directory) : ∃ d'', d'.write p content = .ok d'' := by
  obtain ⟨other, hother⟩ := exists_place hp hparent
  exact ⟨_, write_eq_ok.mpr ⟨other, hother, fun hno => hfree (at?_eq_some.mpr ⟨other, hother, hno⟩), rfl⟩⟩

/-! ## Files -/

/-- The content of the file at a place, if one stands there. -/
def file? (d : Disk) (place : List String) : Option Bytes :=
  match d.node? place with
  | some (.file content) => some content
  | _ => none

theorem file?_put_file (hplace : place ≠ []) :
    (d.put place (.file content)).file? = Function.update d.file? place (some content) := by
  funext other
  unfold file?
  rw [node?_put d place other _ hplace, Function.update_apply]
  by_cases hother : other = place
  · rw [if_pos hother, if_pos hother]
  · rw [if_neg hother, if_neg hother]

/-- Writing changes one file. -/
theorem file?_of_write (h : d.write p content = .ok d') :
    ∃ place, d'.place p = .ok place ∧ d'.file? = Function.update d.file? place (some content) := by
  obtain ⟨place, hplace, hfree, rfl⟩ := write_eq_ok.mp h
  exact ⟨place, place_put hfree hplace, file?_put_file (ne_nil_of_free hfree)⟩

/-- A new directory leaves all files. -/
theorem file?_of_makeDirectory (h : d.makeDirectory p = .ok d') : d'.file? = d.file? := by
  obtain ⟨place, -, hnone, rfl⟩ := makeDirectory_eq_ok.mp h
  have hplace : place ≠ [] := by
    rintro rfl
    exact nomatch hnone
  funext other
  unfold file?
  rw [node?_put d place other _ hplace]
  by_cases hother : other = place
  · rw [if_pos hother, hother, hnone]
  · rw [if_neg hother]

end Airdrop.Disk
