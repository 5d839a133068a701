import Airdrop.Proofs.Merkle.Climb
import Airdrop.Proofs.Outcome
import Mathlib.Data.List.Nodup

/-!
# Inclusion under a known size

* `checkPath_eq_ok_iff`, `verify_eq_true_iff` : when an input describes a path, and when it is accepted.
* `Tree.path_eq_ok_iff` : the path of a tree at a position. `Tree.verify_of_path` and `Tree.path_of_verify` : what is
  accepted under a tree's root and size.
* `Tree.accepted_at_size` : under the root and the size of a tree, the leaf at a position with its own path is accepted
  and nothing else is, or two strings hashed in the build and in the check collide.
-/

namespace Airdrop.Merkle

open Outcome
open Airdrop.Merkle.Tree (siblings)

variable {h : Hasher}

/-! ## The check of one path -/

theorem findIdx?_width_eq_none_iff {proof : List Bytes} :
    proof.findIdx? (·.length != Hasher.digestSize) = none ↔ ∀ s ∈ proof, s.length = 32 := by
  simp [List.findIdx?_eq_none_iff, Hasher.digestSize]

theorem checkPath_eq_ok_iff {leaf root : Bytes} {proof : List Bytes} {index : Int} {size : Option Int} :
    checkPath leaf proof index root size = .ok () ↔
      leaf.length = 32 ∧ root.length = 32 ∧ (∀ s ∈ proof, s.length = 32) ∧ 0 ≤ index ∧ index < 2 ^ proof.length ∧
        ∀ n, size = some n → index < n ∧ proof.length = depthFor n := by
  unfold checkPath
  rw [ite_error_eq_ok, ite_error_eq_ok, not_ne_iff, not_ne_iff, ← findIdx?_width_eq_none_iff, Hasher.digestSize]
  refine and_congr_right fun _ => and_congr_right fun _ => ?_
  cases proof.findIdx? (·.length != 32) with
  | some k => simp
  | none =>
    cases size with
    | none => simp
    | some n => simp [ite_error_eq_ok, and_assoc]

theorem verify_eq_true_iff {leaf root : Bytes} {proof : List Bytes} {index : Int} {size : Option Int} :
    verify h leaf proof index root size = .ok true ↔
      checkPath leaf proof index root size = .ok () ∧ climb h leaf proof index.toNat = root := by
  unfold verify
  rw [map_eq_ok]
  constructor
  · rintro ⟨⟨⟩, hcheck, hroot⟩
    exact ⟨hcheck, beq_iff_eq.mp hroot⟩
  · rintro ⟨hcheck, hroot⟩
    exact ⟨(), hcheck, beq_iff_eq.mpr hroot⟩

namespace Tree

variable {t : Tree}

theorem path_eq_ok_iff {i : Int} {p : List Bytes} :
    t.path i = .ok p ↔ 0 ≤ i ∧ i < t.size ∧ p = siblings t.levels i.toNat := by
  unfold path
  by_cases hi : 0 ≤ i ∧ i < t.size
  · rw [if_pos hi, Except.ok.injEq, eq_comm, ← and_assoc, and_iff_right hi]
  · rw [if_neg hi, ← and_assoc, iff_false_right (fun hp => hi hp.1)]
    exact fun hno => nomatch hno

end Tree

namespace Tower

variable {levels : List (List Bytes)} {root : Bytes}

theorem depth_eq_length_siblings (ht : Tower h levels root) (i : Nat) :
    depthFor (levels.headD []).length = (siblings levels i).length := by
  have hd := ht.depth
  have hl := ht.length_siblings i
  omega

theorem length_base_le (ht : Tower h levels root) :
    ∀ i, (levels.headD []).length ≤ 2 ^ (siblings levels i).length := by
  induction ht with
  | top _ => exact fun _ => Nat.le_refl 1
  | step hlen hw above ih =>
    intro i
    have hup := ih (i / 2)
    rw [List.headD_cons, length_parents] at hup
    rw [siblings, List.length_cons, List.headD_cons, Nat.pow_succ]
    · omega
    · exact List.cons_ne_nil _ _

/-- Under the root and the size of a tower, a position is accepted with its own leaf and siblings only. -/
theorem own_of_verify (ht : Tower h levels root) {x : Bytes} {p : List Bytes} {i : Int}
    (hv : verify h x p i root (some (levels.headD []).length) = .ok true) :
    0 ≤ i ∧ i < (levels.headD []).length ∧
      ((levels.headD [])[i.toNat]? = some x ∧ p = siblings levels i.toNat ∨
        h.algorithm.Collides (preimagesOf h levels ++ climbPreimages h x p i.toNat)) := by
  rw [verify_eq_true_iff, checkPath_eq_ok_iff] at hv
  obtain ⟨⟨hx, -, hp, h0, -, hsize⟩, hc⟩ := hv
  obtain ⟨hlt, hdepth⟩ := hsize _ rfl
  have hi : i.toNat < (levels.headD []).length := by omega
  refine ⟨h0, hlt, ?_⟩
  rcases ht.climb_unique x p i.toNat hx hp (by rw [hdepth]; exact ht.depth) hc with ⟨hxi, hpi⟩ | hcol
  · rw [ht.landing_of_lt _ hi] at hxi hpi
    rw [List.getD_eq_getElem _ _ hi] at hxi
    exact Or.inl ⟨by rw [hxi, List.getElem?_eq_getElem hi], hpi⟩
  · exact Or.inr hcol

/-- A leaf is accepted at its position with its own siblings, whether or not the size is given. -/
theorem verify_own (ht : Tower h levels root) {i : Nat} {x : Bytes} (hx : (levels.headD [])[i]? = some x)
    {size : Option Int} (hsize : ∀ n, size = some n → n = (levels.headD []).length) :
    verify h x (siblings levels i) i root size = .ok true := by
  obtain ⟨hi, rfl⟩ := List.getElem?_eq_some_iff.mp hx
  have hclimb := ht.climb_landing i
  have hle := ht.length_base_le i
  rw [ht.landing_of_lt i hi, List.getD_eq_getElem _ _ hi] at hclimb
  rw [verify_eq_true_iff, checkPath_eq_ok_iff]
  refine ⟨⟨ht.length_of_mem_base _ (List.getElem_mem hi), ht.length_root, ht.length_of_mem_siblings i hi, by omega, ?_,
    ?_⟩, hclimb⟩
  · exact_mod_cast Nat.lt_of_lt_of_le hi hle
  · intro n hn
    rw [hsize n hn]
    exact ⟨by omega, (ht.depth_eq_length_siblings i).symm⟩

end Tower

/-! ## Soundness and completeness -/

namespace Tree

section
variable {t : Tree} {leaves : List Bytes}

/-- A leaf of a built tree is accepted with the path of the tree. -/
theorem verify_of_path (hb : build h leaves = .ok t) {x : Bytes} {p : List Bytes} {i : Int}
    (hx : leaves[i.toNat]? = some x) (hp : t.path i = .ok p) :
    Merkle.verify h x p i t.root (some leaves.length) = .ok true := by
  obtain ⟨-, rfl, ht⟩ := tower_of_build hb
  obtain ⟨h0, -, rfl⟩ := path_eq_ok_iff.mp hp
  have hv : Merkle.verify h x (siblings t.levels i.toNat) i.toNat t.root (some t.leaves.length) = .ok true :=
    ht.verify_own hx fun n hn => (Option.some.inj hn).symm
  rwa [Int.toNat_of_nonneg h0] at hv

/-- What is accepted under the root and the size of a built tree is a leaf with the path of the tree. -/
theorem path_of_verify (hb : build h leaves = .ok t) {x : Bytes} {p : List Bytes} {i : Int}
    (hv : Merkle.verify h x p i t.root (some leaves.length) = .ok true) :
    (0 ≤ i ∧ leaves[i.toNat]? = some x ∧ t.path i = .ok p) ∨
      h.algorithm.Collides (t.preimages ++ climbPreimages h x p i.toNat) := by
  obtain ⟨hh, rfl, ht⟩ := tower_of_build hb
  obtain ⟨h0, hlt, hown⟩ := ht.own_of_verify hv
  rw [preimages, hh]
  exact hown.imp_left fun ⟨hx, hp⟩ => ⟨h0, hx, path_eq_ok_iff.mpr ⟨h0, hlt, hp⟩⟩

end

/-- **Inclusion at a known size.** Over digests there is a tree. Under its root and size a leaf with its own path is
accepted, and what is accepted at `i` is the leaf at `i` with its own path, unless two strings hashed in the build and
in the check collide. Without a collision a leaf is therefore refused at another position than its own if the leaves are
distinct, and a leaf of another tree is refused with its path there where this tree has another leaf. -/
theorem accepted_at_size (h : Hasher) (leaves : List Bytes) (hne : leaves ≠ [])
    (hw : ∀ leaf ∈ leaves, leaf.length = 32) :
    ∃ t, build h leaves = .ok t ∧
      (∀ (x : Bytes) (p : List Bytes) (i : Int), leaves[i.toNat]? = some x → t.path i = .ok p →
        Merkle.verify h x p i t.root (some leaves.length) = .ok true) ∧
      (∀ (x : Bytes) (p : List Bytes) (i : Int), Merkle.verify h x p i t.root (some leaves.length) = .ok true →
        (0 ≤ i ∧ leaves[i.toNat]? = some x ∧ t.path i = .ok p) ∨
          h.algorithm.Collides (t.preimages ++ climbPreimages h x p i.toNat)) ∧
      (∀ (x : Bytes) (p : List Bytes) (i : Int) (j : Nat), leaves.Nodup → leaves[j]? = some x → i ≠ j →
        Merkle.verify h x p i t.root (some leaves.length) = .ok true →
          h.algorithm.Collides (t.preimages ++ climbPreimages h x p i.toNat)) ∧
      ∀ (other : List Bytes) (t' : Tree) (x : Bytes) (p : List Bytes) (i : Int), build h other = .ok t' →
        other[i.toNat]? = some x → t'.path i = .ok p → leaves[i.toNat]? ≠ some x →
        Merkle.verify h x p i t.root (some leaves.length) = .ok true →
          h.algorithm.Collides (t.preimages ++ climbPreimages h x p i.toNat) := by
  have hb : build h leaves = .ok ⟨h, Merkle.levels h leaves⟩ := build_eq_ok_iff.mpr ⟨hne, hw, rfl⟩
  generalize (⟨h, Merkle.levels h leaves⟩ : Tree) = t at hb
  refine ⟨t, hb, fun x p i => verify_of_path hb, fun x p i => path_of_verify hb, ?_, ?_⟩
  · intro x p i j hnodup hj hij hv
    rcases path_of_verify hb hv with ⟨h0, hx, -⟩ | hcol
    · obtain ⟨hi', hgi⟩ := List.getElem?_eq_some_iff.mp hx
      obtain ⟨hj', hgj⟩ := List.getElem?_eq_some_iff.mp hj
      have := (List.Nodup.getElem_inj_iff hnodup).mp (hgi.trans hgj.symm)
      omega
    · exact hcol
  · intro other t' x p i _ _ _ hne' hv
    rcases path_of_verify hb hv with ⟨-, hx, -⟩ | hcol
    · exact absurd hx hne'
    · exact hcol

/-- Three leaves, of which the last one is its own sibling. -/
theorem accepted_at_size_three :
    ∃ t, build {} [List.replicate 32 1, List.replicate 32 2, List.replicate 32 3] = .ok t ∧
      ∃ p, p = [List.replicate 32 3, Hasher.node {} (List.replicate 32 1) (List.replicate 32 2)] ∧
        Merkle.verify {} (List.replicate 32 3) p 2 t.root (some 3) = .ok true ∧
        (t.path 2 = .ok p ∨
          Algorithm.sha256.Collides (t.preimages ++ climbPreimages {} (List.replicate 32 3) p 2)) := by
  obtain ⟨t, hb, -, hsound, -, -⟩ := accepted_at_size {}
    [List.replicate 32 1, List.replicate 32 2, List.replicate 32 3] (by decide) (by decide)
  have hv : Merkle.verify {} (List.replicate 32 3)
      [List.replicate 32 3, Hasher.node {} (List.replicate 32 1) (List.replicate 32 2)] 2 t.root (some 3) =
        .ok true := by
    obtain ⟨-, -, rfl⟩ := build_eq_ok_iff.mp hb
    exact toOption_eq_some.mp (by decide +kernel)
  exact ⟨t, hb, _, rfl, hv, (hsound _ _ 2 hv).imp_left fun hown => hown.2.2⟩

end Tree
end Airdrop.Merkle
