import Airdrop.Proofs.Error
import Airdrop.Proofs.Merkle.Inclusion
import Airdrop.Proofs.Merkle.Recursion

/-!
# What a path is and where it ends

* `Branch` : the way from a leaf hash up to a root, step by step, with the sides taken from the index.
* `branch_iff` : a path of `d` siblings has one end for every index below `2 ^ d`; it is what the climb computes.
  `Branch.lt` : there is none for any other index.
* `Unusable` : the inputs that describe no path, in the terms of their widths, their index and their size.
* `Unwritable` : the unusable inputs whose refusal would have to show an index or a size that is too long.
* `isLeast_depthFor_int` : the depth for a size, for sizes that no tree has too.
* `verify_outcome` : the check fails on the unusable inputs, and compares the end of the path with the root on all
  others.
-/

namespace Airdrop.Merkle

open Outcome
open Radix (isLong)

variable {h : Hasher} {leaf root : Bytes} {proof : List Bytes} {index : Int} {size : Option Int}

/-! ## Branches -/

/-- The way from a hash by siblings up to a root. The lowest bit of the index is the side at which the hash stands. -/
inductive Branch (h : Hasher) : (hash : Bytes) → (siblings : List Bytes) → (index : Nat) → (root : Bytes) → Prop
  | root (hash : Bytes) : Branch h hash [] 0 hash
  | left {hash sibling root : Bytes} {above : List Bytes} {index : Nat}
      (up : Branch h (h.node hash sibling) above index root) : Branch h hash (sibling :: above) (2 * index) root
  | right {hash sibling root : Bytes} {above : List Bytes} {index : Nat}
      (up : Branch h (h.node sibling hash) above index root) : Branch h hash (sibling :: above) (2 * index + 1) root

theorem Branch.lt {x r : Bytes} {p : List Bytes} {i : Nat} (hb : Branch h x p i r) : i < 2 ^ p.length := by
  induction hb with
  | root => exact Nat.one_pos
  | left up ih | right up ih =>
    rw [List.length_cons, Nat.pow_succ]
    omega

theorem Branch.climb_eq {x r : Bytes} {p : List Bytes} {i : Nat} (hb : Branch h x p i r) : climb h x p i = r := by
  induction hb with
  | root => rfl
  | left up ih =>
    rw [climb, if_neg (by omega), Nat.mul_div_cancel_left _ Nat.two_pos]
    exact ih
  | @right _ _ _ _ i up ih =>
    have hhalf : (2 * i + 1) / 2 = i := by omega
    rw [climb, if_pos (by omega), hhalf]
    exact ih

theorem branch_climb : ∀ (p : List Bytes) (x : Bytes) (i : Nat), i < 2 ^ p.length → Branch h x p i (climb h x p i)
  | [], x, i, hi => by
    obtain rfl : i = 0 := Nat.lt_one_iff.mp hi
    exact .root x
  | s :: p, x, i, hi => by
    rw [List.length_cons, Nat.pow_succ] at hi
    have hup (y : Bytes) := branch_climb p y (i / 2) (by omega)
    -- the lowest bit of the index says on which side the node stands
    rcases Nat.mod_two_eq_zero_or_one i with heven | hodd
    · have hi' : 2 * (i / 2) = i := by omega
      have hleft := Branch.left (hup (h.node x s))
      rw [climb, if_neg (by omega)]
      rwa [hi'] at hleft
    · have hi' : 2 * (i / 2) + 1 = i := by omega
      have hright := Branch.right (hup (h.node s x))
      rw [climb, if_pos hodd]
      rwa [hi'] at hright

/-- A path has one end for each index that it can address. -/
theorem branch_iff {x r : Bytes} {p : List Bytes} {i : Nat} (hi : i < 2 ^ p.length) :
    Branch h x p i r ↔ r = climb h x p i :=
  ⟨fun hb => hb.climb_eq.symm, fun heq => heq ▸ branch_climb p x i hi⟩

/-! ## Inputs that describe no path -/

/-- The inputs that describe no path: a width is wrong, the path cannot address the index, or the size has no room for
the index or demands a path of another length. -/
def Unusable (leaf : Bytes) (proof : List Bytes) (index : Int) (root : Bytes) (size : Option Int) : Prop :=
  leaf.length ≠ 32 ∨ root.length ≠ 32 ∨ (∃ s ∈ proof, s.length ≠ 32) ∨ index < 0 ∨ 2 ^ proof.length ≤ index ∨
    ∃ n, size = some n ∧ (n ≤ index ∨ ¬IsLeast {d : Nat | n ≤ 2 ^ d} proof.length)

/-- The widths are right, and the first thing that is wrong with the index or the size cannot be told: the index is
beyond the path and long, or it is not below the size and one of the two is long, or the path has another length than
the size demands and the size is long. -/
def Unwritable (leaf : Bytes) (proof : List Bytes) (index : Int) (root : Bytes) (size : Option Int) : Prop :=
  leaf.length = 32 ∧ root.length = 32 ∧ (∀ s ∈ proof, s.length = 32) ∧
    ((index < 0 ∨ 2 ^ proof.length ≤ index) ∧ isLong index = true ∨
      (0 ≤ index ∧ index < 2 ^ proof.length) ∧ ∃ n, size = some n ∧
        (n ≤ index ∧ (isLong index = true ∨ isLong n = true) ∨
          index < n ∧ ¬IsLeast {d : Nat | n ≤ 2 ^ d} proof.length ∧ isLong n = true))

theorem isLeast_depthFor_int (n : Int) : IsLeast {d : Nat | n ≤ 2 ^ d} (depthFor n) := by
  rcases Int.le_total 0 n with hn | hn
  · obtain ⟨k, rfl⟩ := Int.eq_ofNat_of_zero_le hn
    have hleast := isLeast_depthFor k
    refine ⟨by exact_mod_cast hleast.1, fun d hd => hleast.2 ?_⟩
    have hd : (k : Int) ≤ 2 ^ d := hd
    show k ≤ 2 ^ d
    exact_mod_cast hd
  · have hdepth : depthFor n = 0 := if_neg (by omega)
    rw [hdepth]
    exact ⟨Int.le_trans hn (by decide), fun d _ => Nat.zero_le d⟩

theorem eq_depthFor_iff {d : Nat} {n : Int} : d = depthFor n ↔ IsLeast {d : Nat | n ≤ 2 ^ d} d := by
  constructor
  · rintro rfl
    exact isLeast_depthFor_int n
  · exact fun hleast => hleast.unique (isLeast_depthFor_int n)

theorem checkPath_eq_ok_iff_usable :
    checkPath leaf proof index root size = .ok () ↔ ¬Unusable leaf proof index root size := by
  simp only [checkPath_eq_ok_iff, Unusable, eq_depthFor_iff, not_or, not_not, not_exists, not_and, Int.not_lt,
    Int.not_le]

theorem checkPath_of_widths (hleaf : leaf.length = 32) (hroot : root.length = 32)
    (hproof : ∀ s ∈ proof, s.length = 32) :
    checkPath leaf proof index root size =
      if index < 0 ∨ 2 ^ proof.length ≤ index then .error (Error.proof (.unreachable proof.length index)).raised
      else match size with
        | none => .ok ()
        | some n =>
          if n ≤ index then .error (Error.proof (.outside index n)).raised
          else if proof.length ≠ depthFor n then .error (Error.proof (.depthMismatch proof.length n)).raised
          else .ok () := by
  have hleaf' : ¬leaf.length ≠ Hasher.digestSize := not_not.mpr hleaf
  have hroot' : ¬root.length ≠ Hasher.digestSize := not_not.mpr hroot
  unfold checkPath
  rewrite [if_neg hleaf', if_neg hroot', findIdx?_width_eq_none_iff.mpr hproof]
  rfl

theorem fault_of_misfit {e : Error} (hwidths : ¬(leaf.length = 32 ∧ root.length = 32 ∧ ∀ s ∈ proof, s.length = 32))
    (he : checkPath leaf proof index root size = .error e) : ∃ fault, e = .proof fault := by
  unfold checkPath at he
  split at he
  · exact ⟨_, (Except.error.inj he).symm⟩
  next hleaf =>
  split at he
  · exact ⟨_, (Except.error.inj he).symm⟩
  next hroot =>
  split at he
  · exact ⟨_, (Except.error.inj he).symm⟩
  next hproof =>
  exact absurd ⟨not_not.mp hleaf, not_not.mp hroot, findIdx?_width_eq_none_iff.mp hproof⟩ hwidths

theorem refusal_of_raised {fault : ProofFault} {e : Error} {long : Prop} [Decidable long]
    (hraised : (Error.proof fault).raised = if long then .value .tooLongToWrite else .proof fault)
    (he : (Except.error (Error.proof fault).raised : Except Error Unit) = .error e) :
    (∃ fault, e = .proof fault) ∧ ¬long ∨ e = .value .tooLongToWrite ∧ long := by
  obtain rfl := Except.error.inj he
  exact (Error.raised_cases hraised).imp_left fun ⟨hsame, hshort⟩ => ⟨⟨fault, hsame⟩, hshort⟩

/-- An input is refused with a proof fault, unless it is unwritable. -/
theorem checkPath_eq_error {e : Error} (he : checkPath leaf proof index root size = .error e) :
    (∃ fault, e = .proof fault) ∧ ¬Unwritable leaf proof index root size ∨
      e = .value .tooLongToWrite ∧ Unwritable leaf proof index root size := by
  by_cases hwidths : leaf.length = 32 ∧ root.length = 32 ∧ ∀ s ∈ proof, s.length = 32
  · obtain ⟨hleaf, hroot, hproof⟩ := hwidths
    rw [checkPath_of_widths hleaf hroot hproof] at he
    simp only [Unwritable, hleaf, hroot, true_and, and_iff_right hproof]
    split_ifs at he with hindex
    · have hin : ¬(0 ≤ index ∧ index < 2 ^ proof.length) := by omega
      simpa only [hindex, hin, true_and, false_and, or_false] using
        refusal_of_raised (Error.raised_unreachable _ _) he
    · have hin : 0 ≤ index ∧ index < 2 ^ proof.length := by omega
      cases size with
      | none => exact nomatch he
      | some n =>
        simp only [hindex, hin, false_and, false_or, and_self, true_and, Option.some.injEq, exists_eq_left']
        dsimp only at he
        split_ifs at he with hsize hdepth
        · have hnot : ¬index < n := by omega
          simpa only [hsize, hnot, true_and, false_and, or_false] using
            refusal_of_raised (Error.raised_outside _ _) he
        · have hlt : index < n := by omega
          rw [ne_eq, eq_depthFor_iff] at hdepth
          simpa only [hsize, hlt, hdepth, false_and, false_or, not_false_eq_true, true_and] using
            refusal_of_raised (Error.raised_depthMismatch _ _) he
  · exact .inl ⟨fault_of_misfit hwidths he, fun hno => hwidths ⟨hno.1, hno.2.1, hno.2.2.1⟩⟩

/-! ## The outcome of the check -/

theorem verify_eq_error_iff {e : Error} :
    verify h leaf proof index root size = .error e ↔ checkPath leaf proof index root size = .error e := map_eq_error

theorem exists_verify_error_iff :
    (∃ e, verify h leaf proof index root size = .error e) ↔ Unusable leaf proof index root size := by
  simp only [verify_eq_error_iff]
  cases hcheck : checkPath leaf proof index root size with
  | error fault =>
    have husable : ¬¬Unusable leaf proof index root size := fun hno => by
      rw [checkPath_eq_ok_iff_usable.mpr hno] at hcheck
      exact nomatch hcheck
    exact iff_of_true ⟨fault, rfl⟩ (not_not.mp husable)
  | ok =>
    exact iff_of_false (fun ⟨_, hno⟩ => nomatch hno) (checkPath_eq_ok_iff_usable.mp hcheck)

theorem Unwritable.unusable (hw : Unwritable leaf proof index root size) : Unusable leaf proof index root size := by
  obtain ⟨-, -, -, ⟨h0 | hlt, -⟩ | ⟨-, n, hn, hsize⟩⟩ := hw
  · exact .inr (.inr (.inr (.inl h0)))
  · exact .inr (.inr (.inr (.inr (.inl hlt))))
  · exact .inr (.inr (.inr (.inr (.inr ⟨n, hn, hsize.imp And.left fun hdepth => hdepth.2.1⟩))))

theorem verify_refused_iff : (∃ fault, verify h leaf proof index root size = .error (.proof fault)) ↔
    Unusable leaf proof index root size ∧ ¬Unwritable leaf proof index root size := by
  constructor
  · rintro ⟨fault, hv⟩
    refine ⟨exists_verify_error_iff.mp ⟨_, hv⟩, ?_⟩
    exact (checkPath_eq_error (verify_eq_error_iff.mp hv)).elim And.right fun hno => nomatch hno.1
  · rintro ⟨hunusable, hwritable⟩
    obtain ⟨e, hv⟩ := exists_verify_error_iff.mpr hunusable
    rcases checkPath_eq_error (verify_eq_error_iff.mp hv) with ⟨⟨fault, rfl⟩, -⟩ | ⟨-, hno⟩
    · exact ⟨fault, hv⟩
    · exact absurd hno hwritable

theorem verify_unwritable_iff : verify h leaf proof index root size = .error (.value .tooLongToWrite) ↔
    Unwritable leaf proof index root size := by
  constructor
  · intro hv
    rcases checkPath_eq_error (verify_eq_error_iff.mp hv) with ⟨⟨_, hno⟩, -⟩ | ⟨-, hunwritable⟩
    · exact nomatch hno
    · exact hunwritable
  · intro hunwritable
    obtain ⟨e, hv⟩ := exists_verify_error_iff.mpr hunwritable.unusable
    rcases checkPath_eq_error (verify_eq_error_iff.mp hv) with ⟨-, hno⟩ | ⟨rfl, -⟩
    · exact absurd hunwritable hno
    · exact hv

/-- What the check compares with the root is the end of the path. -/
theorem verify_of_usable (h : Hasher) (hu : ¬Unusable leaf proof index root size) :
    ∃ r, (∀ r', Branch h leaf proof index.toNat r' ↔ r' = r) ∧
      verify h leaf proof index root size = .ok (decide (root = r)) := by
  have hcheck := checkPath_eq_ok_iff_usable.mpr hu
  obtain ⟨-, -, -, h0, hlt, -⟩ := checkPath_eq_ok_iff.mp hcheck
  have hindex : index.toNat < 2 ^ proof.length := by
    rw [← Int.ofNat_lt, Int.toNat_of_nonneg h0]
    exact_mod_cast hlt
  refine ⟨climb h leaf proof index.toNat, fun r' => branch_iff hindex, ?_⟩
  have hanswer : (climb h leaf proof index.toNat == root) = decide (root = climb h leaf proof index.toNat) := by
    rw [Bool.beq_eq_decide_eq, decide_eq_decide]
    exact eq_comm
  rw [verify, hcheck, ← hanswer]
  rfl

/-- A size turns answers into errors and changes none. -/
theorem verify_none_of_some {n : Int} {b : Bool} (hv : verify h leaf proof index root (some n) = .ok b) :
    verify h leaf proof index root none = .ok b := by
  unfold verify at hv
  rw [map_eq_ok] at hv
  obtain ⟨⟨⟩, hcheck, hb⟩ := hv
  obtain ⟨hleaf, hroot, hproof, h0, hlt, -⟩ := checkPath_eq_ok_iff.mp hcheck
  have hsizeless : checkPath leaf proof index root none = .ok () :=
    checkPath_eq_ok_iff.mpr ⟨hleaf, hroot, hproof, h0, hlt, fun _ hno => nomatch hno⟩
  rw [verify, hsizeless]
  exact congrArg Except.ok hb

end Airdrop.Merkle
