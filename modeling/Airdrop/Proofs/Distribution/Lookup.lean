import Airdrop.Proofs.Distribution.Offence
import Airdrop.Proofs.Error

/-!
# Lookups by position

Paths are looked up in the tree, which refuses every position without a leaf by one error. `Distribution.verify` looks
into the list of entries instead, as lists are indexed: a negative position counts from the end. So it answers at some
positions that have no path, and refuses the others by the error of a list.

* `path_of_outside`, `verify_of_outside` : the tree, where no leaf stands.
* `entryAt?_of_neg`, `entryAt?_eq_none_iff` : which entry a position means, and which positions mean none.
* `climb_of_verify` : what it means that an entry is verified.
* `Built.verify_of_neg`, `Built.verify_of_none` : what becomes of them in a distribution.
* `lookups_by_position` : every position, by way of the path, the tree and the entry.
-/

namespace Airdrop

open Radix (isLong)

namespace Merkle.Tree

variable {t : Tree} {i : Int}

theorem path_of_outside (hi : i < 0 ∨ t.size ≤ i) :
    t.path i = .error (if isLong i then .value .tooLongToWrite else .indexRange i t.size) := by
  have hout : ¬(0 ≤ i ∧ i < t.size) := by omega
  rw [path, if_neg hout, Error.raised_indexRange]

theorem verify_of_outside (hi : i < 0 ∨ t.size ≤ i) (leaf : Bytes) :
    t.verify i leaf = .error (if isLong i then .value .tooLongToWrite else .indexRange i t.size) := by
  rw [Tree.verify, path_of_outside hi]
  rfl

theorem verify_of_path_eq {leaf : Bytes} {p : List Bytes} (hp : t.path i = .ok p) :
    t.verify i leaf = Merkle.verify t.hasher leaf p i t.root (some t.size) := by
  rw [Tree.verify, hp]
  rfl

end Merkle.Tree

namespace Distribution

open Outcome
open Merkle.Tree (path_of_outside verify_of_outside verify_of_path_eq)

variable {d : Distribution} {i : Int}

/-! ## Entries -/

theorem entryAt?_of_nonneg (h0 : 0 ≤ i) : d.entryAt? i = d.entries[i.toNat]? := if_pos h0

/-- A negative position means the one that is further by the number of entries. -/
theorem entryAt?_of_neg (hlow : -(d.entries.length : Int) ≤ i) (hneg : i < 0) :
    d.entryAt? i = d.entryAt? (d.entries.length + i) := by
  have hcount : 0 ≤ (d.entries.length : Int) + i := by omega
  rw [entryAt?_of_nonneg hcount, entryAt?, if_neg (by omega), if_pos hcount]

theorem entryAt?_eq_none_iff :
    d.entryAt? i = none ↔ i < -(d.entries.length : Int) ∨ (d.entries.length : Int) ≤ i := by
  unfold entryAt?
  split
  · rw [List.getElem?_eq_none_iff]
    omega
  · split
    · rw [List.getElem?_eq_none_iff]
      omega
    · simp only [true_iff]
      omega

theorem verify_congr {j : Int} (h : d.entryAt? i = d.entryAt? j) : d.verify i = d.verify j := by
  rw [verify, h, verify]

/-- The path of an entry leads from its hash to the root. -/
theorem climb_of_verify {i : Nat} {entry : Entry} (hentry : d.entries[i]? = some entry) (hv : d.verify i = .ok true) :
    Merkle.climb d.hasher entry.leafHash entry.proof entry.index = d.root := by
  rw [verify, entryAt?_of_nonneg (Int.natCast_nonneg i), Int.toNat_natCast, hentry] at hv
  exact (Merkle.verify_eq_true_iff.mp hv).2

/-! ## Positions of a distribution -/

namespace Built

variable {h : Hasher} {records : List Leaf} {encoded : List Bytes}

theorem length_eq_size (hb : Built h records encoded d) : d.entries.length = d.size :=
  hb.length_entries.trans hb.size_eq.symm

theorem verify_of_lt (hb : Built h records encoded d) (h0 : 0 ≤ i) (hlt : i < d.size) :
    ∃ entry, d.entries[i.toNat]? = some entry ∧ d.path i = .ok entry.proof ∧
      d.tree.verify i entry.leafHash = .ok true ∧ d.verify i = .ok true := by
  have hrecord : i.toNat < records.length := by
    rw [← hb.size_eq]
    omega
  obtain ⟨entry, hentry, hindex, -, -, hpath, hverify⟩ := hb.entry_eq (List.getElem?_eq_getElem hrecord)
  rw [Int.toNat_of_nonneg h0] at hpath hverify
  refine ⟨entry, hentry, hpath, ?_, hverify⟩
  have hown : d.verify i = d.tree.verify i entry.leafHash := by
    rw [verify_of_path_eq hpath, verify, entryAt?_of_nonneg h0, hentry]
    simp only [hindex, Int.toNat_of_nonneg h0]
    rfl
  rw [← hown, hverify]

theorem verify_of_neg (hb : Built h records encoded d) (hlow : -(d.size : Int) ≤ i) (hneg : i < 0) :
    d.verify i = d.verify (d.size + i) := by
  rw [← hb.length_eq_size] at hlow ⊢
  exact verify_congr (entryAt?_of_neg hlow hneg)

theorem verify_of_none (hb : Built h records encoded d) (hi : i < -(d.size : Int) ∨ (d.size : Int) ≤ i) :
    d.verify i = .error (.plain .noItem) := by
  rw [← hb.length_eq_size] at hi
  rw [verify, entryAt?_eq_none_iff.mpr hi]

end Built

/-- **What a distribution answers at a position.** Where no record stands, the path is refused by an error that names
the position and the size, or, if the position is too long for the message, by the error about that; and so is every
leaf that the tree is asked about. Where one stands, the path is that of its entry, with which the tree accepts its
hash, and the entry is verified. The entries are also verified at their negative positions, counted from the end. All
other positions are refused by an error of the list. -/
theorem lookups_by_position {h : Hasher} {records : List Leaf} (hd : ofRecords h records = .ok d) (i : Int) :
    d.size = records.length ∧
    (i < 0 ∨ d.size ≤ i → ∃ e, d.tree.path i = .error e ∧ d.path i = .error e ∧
      (∀ leaf, d.tree.verify i leaf = .error e) ∧
      e = if isLong i then .value .tooLongToWrite else .indexRange i d.size) ∧
    (0 ≤ i → i < d.size → ∃ entry, d.entries[i.toNat]? = some entry ∧ d.tree.path i = .ok entry.proof ∧
      d.path i = .ok entry.proof ∧ d.tree.verify i entry.leafHash = .ok true ∧ d.verify i = .ok true) ∧
    (-(d.size : Int) ≤ i → i < 0 → d.verify i = d.verify (d.size + i) ∧ d.verify i = .ok true) ∧
    (i < -(d.size : Int) ∨ d.size ≤ i → d.verify i = .error (.plain .noItem)) ∧
    (Error.indexRange i d.size).kind = "IndexOutOfRangeError" ∧ (Error.plain .noItem).kind = "IndexError" := by
  obtain ⟨encoded, hb⟩ := built_of_ofRecords hd
  refine ⟨hb.size_eq, fun hi => ?_, fun h0 hlt => ?_, fun hlow hneg => ?_, hb.verify_of_none, rfl, rfl⟩
  · exact ⟨_, path_of_outside hi, path_of_outside hi, verify_of_outside hi, rfl⟩
  · obtain ⟨entry, hentry, hpath, htree, hverify⟩ := hb.verify_of_lt h0 hlt
    exact ⟨entry, hentry, hpath, hpath, htree, hverify⟩
  · have hsame := hb.verify_of_neg hlow hneg
    obtain ⟨_, -, -, -, hverify⟩ := hb.verify_of_lt (i := d.size + i) (by omega) (by omega)
    exact ⟨hsame, hsame.trans hverify⟩

theorem exists_of_two_ingredients :
    ∃ d, ofRecords {} [.ingredient (.bytes (List.replicate 32 1)) (.int 0),
      .ingredient (.bytes (List.replicate 32 2)) (.int 2)] = .ok d ∧ d.size = 2 := by
  have hrun : (ofRecords {} [.ingredient (.bytes (List.replicate 32 1)) (.int 0),
      .ingredient (.bytes (List.replicate 32 2)) (.int 2)]).toOption.map size = some 2 := by
    decide +kernel
  exact toOption_map_eq_some.mp hrun

theorem isLong_two : isLong 2 = false := Radix.isLong_of_lt (k := 2) (by decide) (by decide)

/-- Two ingredients: the position before the first one means the second one. -/
theorem lookups_by_position_two :
    ∃ d, ofRecords {} [.ingredient (.bytes (List.replicate 32 1)) (.int 0),
        .ingredient (.bytes (List.replicate 32 2)) (.int 2)] = .ok d ∧
      d.path 2 = .error (.indexRange 2 2) ∧ d.verify 1 = .ok true ∧ d.verify (-1) = d.verify 1 := by
  obtain ⟨d, hd, hsize⟩ := exists_of_two_ingredients
  obtain ⟨-, hout, -⟩ := lookups_by_position hd 2
  obtain ⟨-, -, hin, -⟩ := lookups_by_position hd 1
  obtain ⟨-, -, -, hneg, -⟩ := lookups_by_position hd (-1)
  rw [hsize] at hout hin hneg
  obtain ⟨_, -, hpath, -, rfl⟩ := hout (.inr (by decide))
  rw [isLong_two] at hpath
  obtain ⟨_, -, -, -, -, hverify⟩ := hin (by decide) (by decide)
  exact ⟨d, hd, hpath, hverify, (hneg (by decide) (by decide)).1⟩

/-- An entry is verified at a position that has no path, and another position is refused by two kinds of errors. -/
theorem verified_without_path :
    ∃ d, ofRecords {} [.ingredient (.bytes (List.replicate 32 1)) (.int 0),
        .ingredient (.bytes (List.replicate 32 2)) (.int 2)] = .ok d ∧
      d.path (-1) = .error (.indexRange (-1) 2) ∧ d.verify (-1) = .ok true ∧
      d.path 2 = .error (.indexRange 2 2) ∧ d.verify 2 = .error (.plain .noItem) := by
  obtain ⟨d, hd, hsize⟩ := exists_of_two_ingredients
  obtain ⟨encoded, hb⟩ := built_of_ofRecords hd
  have hsize' : d.tree.size = 2 := hsize
  obtain ⟨_, -, -, -, hlast⟩ := hb.verify_of_lt (i := 1) (by decide) (by rw [hsize]; decide)
  have hlow := path_of_outside (t := d.tree) (i := -1) (.inl (by decide))
  have hhigh := path_of_outside (t := d.tree) (i := 2) (.inr (by rw [hsize']; decide))
  rw [show isLong (-1) = false from Radix.isLong_of_lt (k := 1) (by decide) (by decide), hsize'] at hlow
  rw [isLong_two, hsize'] at hhigh
  refine ⟨d, hd, hlow, ?_, hhigh, hb.verify_of_none (by rw [hsize]; decide)⟩
  · rw [hb.verify_of_neg (by rw [hsize]; decide) (by decide), hsize]
    exact hlast

end Distribution
end Airdrop
