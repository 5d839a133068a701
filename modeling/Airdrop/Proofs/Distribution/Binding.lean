import Airdrop.Proofs.Distribution.Admission

/-!
# What the root of a distribution commits to

A tree alone does not bind the number of its leaves (`Merkle.Tree.root_eq_of_repeated_last`): positions beyond the last
leaf land on leaves too. Under one root every record of one distribution stands in the other where its position lands;
since a distribution holds no record twice, every position of either is one of the other, where it lands on itself.

* `Built.getElem?_landing` : the step from one distribution to the other.
* `Built.length_le` : neither is longer than the other.
* `root_binds` : distributions with one root have the same records in the same order, or two strings hashed for
  them collide.
-/

namespace Airdrop.Distribution

open Outcome
open Airdrop.Merkle (landing)

variable {h : Hasher} {as bs : List Leaf} {encoded encoded' : List Bytes} {a b : Distribution}

namespace Built

/-- Under one root, the record at a position of one distribution stands in the other where the position lands. -/
theorem getElem?_landing (ha : Built h as encoded a) (hb : Built h bs encoded' b) (hu : h.Unambiguous [33, 80, 88])
    (hroot : a.root = b.root) {i : Nat} (hi : i < encoded.length) :
    encoded'[landing b.tree.levels i]? = encoded[i]? ∨ h.algorithm.Collides (a.preimages ++ b.preimages) := by
  have hbase : i < (a.tree.levels.headD []).length := ha.length_leaves ▸ hi
  have hleaf : (a.tree.levels.headD []).getD i [] = h.leaf encoded[i] := by
    rw [ha.leaves_eq, List.getD_eq_getElem _ _ (by simpa using hi), List.getElem_map]
  have hwidth (k : Kind) : k.width ∈ [33, 80, 88] := by cases k <;> decide
  have hmem := List.getElem_mem hi
  -- The record's own path in its own tree is a climb to the root of the other one.
  have hclimb := ha.tower.climb_landing i
  have hhashed := List.Subset.trans (ha.tower.climbPreimages_landing_subset i) ha.preimagesOf_subset
  rw [ha.tower.landing_of_lt i hbase, hleaf] at hclimb hhashed
  have hland := hb.landing_of_climb hu (hwidth b.kind) (ha.admitted.length_of_mem hmem ▸ hwidth a.kind)
    (ha.tower.length_of_mem_siblings i hbase) (hclimb.trans hroot) (List.subset_append_right a.preimages b.preimages)
    (List.mem_append_left _ (ha.leafPreimage_mem hmem)) (List.Subset.trans hhashed (List.subset_append_left _ _))
  rw [List.getElem?_eq_getElem hi]
  exact hland.imp_left And.left

/-- Under one root no distribution is longer than another one. -/
theorem length_le (ha : Built h as encoded a) (hb : Built h bs encoded' b) (hu : h.Unambiguous [33, 80, 88])
    (hroot : a.root = b.root) :
    encoded'.length ≤ encoded.length ∨ h.algorithm.Collides (a.preimages ++ b.preimages) := by
  rw [or_iff_not_imp_right]
  intro hfree
  by_contra hlt
  have hlt : encoded.length < encoded'.length := Nat.lt_of_not_le hlt
  have hswap : ¬ h.algorithm.Collides (b.preimages ++ a.preimages) := fun hc => hfree hc.swap
  -- The first surplus record lands on a position of the shorter list, and this one lands on itself in the longer one.
  have hj : landing a.tree.levels encoded.length < encoded.length :=
    ha.length_leaves ▸ ha.tower.landing_lt encoded.length
  have hj' := Nat.lt_trans hj hlt
  have hto := (hb.getElem?_landing ha hu hroot.symm hlt).resolve_right hswap
  have hback := (ha.getElem?_landing hb hu hroot hj).resolve_right hfree
  rw [hb.tower.landing_of_lt _ (hb.length_leaves ▸ hj')] at hback
  exact absurd ((List.getElem?_inj hj' hb.nodup).mp (hback.trans hto)) (Nat.ne_of_lt hj)

end Built

/-- **The root of a distribution binds the ordered list of its records**, of any kind and number: two accepted lists
with one root have one length and, position by position, one byte form, unless two distinct strings that were hashed for
leaves and nodes of the two have one digest. -/
theorem root_binds (hu : h.Unambiguous [33, 80, 88]) (ha : ofRecords h as = .ok a) (hb : ofRecords h bs = .ok b)
    (hroot : a.root = b.root) :
    (as.length = bs.length ∧ ∃ encoded : List Bytes,
      as.map Leaf.encode = encoded.map .ok ∧ bs.map Leaf.encode = encoded.map .ok) ∨
    h.algorithm.Collides (a.preimages ++ b.preimages) := by
  obtain ⟨encoded, ha⟩ := built_of_ofRecords ha
  obtain ⟨encoded', hb⟩ := built_of_ofRecords hb
  rw [or_iff_not_imp_right]
  intro hfree
  have hswap : ¬ h.algorithm.Collides (b.preimages ++ a.preimages) := fun hc => hfree hc.swap
  have hlen : encoded.length = encoded'.length :=
    Nat.le_antisymm ((hb.length_le ha hu hroot.symm).resolve_right hswap)
      ((ha.length_le hb hu hroot).resolve_right hfree)
  have hsame : encoded = encoded' := by
    refine List.ext_getElem? fun i => ?_
    by_cases hi : i < encoded.length
    · have hland := (ha.getElem?_landing hb hu hroot hi).resolve_right hfree
      rwa [hb.tower.landing_of_lt i (hb.length_leaves ▸ hlen ▸ hi), eq_comm] at hland
    · rw [List.getElem?_eq_none (Nat.le_of_not_lt hi), List.getElem?_eq_none (hlen ▸ Nat.le_of_not_lt hi)]
  subst hsame
  exact ⟨ha.admitted.length_eq.symm.trans hb.admitted.length_eq, encoded, ha.admitted.encode_eq, hb.admitted.encode_eq⟩

/-- Transfer and candy claims with the same fields have the same byte forms, and so one root. -/
theorem root_binds_transfer_candy :
    ∃ a b, ofRecords {} ([0, 1, 2].map fun i : Int =>
        .transfer (.int i) (.bytes (List.replicate 32 1)) (.bytes (List.replicate 32 2)) (.int 5)) = .ok a ∧
      ofRecords {} ([0, 1, 2].map fun i : Int =>
        .candy (.int i) (.bytes (List.replicate 32 1)) (.bytes (List.replicate 32 2)) (.int 5)) = .ok b ∧
      a.root = b.root ∧
      ((∃ encoded : List Bytes, ([0, 1, 2].map fun i : Int => Leaf.encode
          (.transfer (.int i) (.bytes (List.replicate 32 1)) (.bytes (List.replicate 32 2)) (.int 5))) =
            encoded.map .ok) ∨
        Algorithm.sha256.Collides (a.preimages ++ b.preimages)) := by
  have hrun : (ofRecords {} ([0, 1, 2].map fun i : Int =>
      .transfer (.int i) (.bytes (List.replicate 32 1)) (.bytes (List.replicate 32 2)) (.int 5))).toOption.map (fun a =>
        (ofRecords {} ([0, 1, 2].map fun i : Int =>
          .candy (.int i) (.bytes (List.replicate 32 1)) (.bytes (List.replicate 32 2)) (.int 5))).toOption.map fun b =>
            decide (a.root = b.root)) = some (some true) := by
    decide +kernel
  obtain ⟨a, ha, hrun⟩ := toOption_map_eq_some.mp hrun
  obtain ⟨b, hb, hrun⟩ := toOption_map_eq_some.mp hrun
  have hroot : a.root = b.root := of_decide_eq_true hrun
  refine ⟨a, b, ha, hb, hroot, (root_binds (by decide) ha hb hroot).imp_left ?_⟩
  rintro ⟨-, encoded, henc, -⟩
  exact ⟨encoded, by rwa [List.map_map] at henc⟩

end Airdrop.Distribution
