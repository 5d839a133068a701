import Airdrop.Proofs.Merkle.Tower
import Mathlib.Algebra.Order.Floor.Div
import Mathlib.Algebra.Order.Ring.Nat
import Mathlib.Data.Nat.Log
import Mathlib.GroupTheory.GroupAction.Ring

/-!
# The recursive form of a tree

A tree is built from the leaves up, one level after the other. The same root comes from the top down: the leaves are cut
at the power of two below the width of the tree, and where they all fit on the left the left half is taken twice.

* `rootOver h depth leaves` : the root from the top down.
* `rootOver_parents` : one level of the build takes one step off the recursion. `Tower.root_eq_rootOver` : by induction
  over the levels, the two roots are the same.
* `isLeast_depthFor` : the depth is the least one that has room for the leaves.
* `Tower.length_of_getElem?` : every level is half as long as the one below it, rounded up.
* `Tree.build_root_recursive` : all of this for a built tree, and why other lists have none.
-/

namespace Airdrop.Merkle

variable {h : Hasher}

/-- The root over leaves of which there are at most `2 ^ depth`, from the top down. -/
def rootOver (h : Hasher) : (depth : Nat) → List Bytes → Bytes
  | 0, leaves => leaves.headD []
  | depth + 1, leaves =>
    if leaves.length ≤ 2 ^ depth then h.node (rootOver h depth leaves) (rootOver h depth leaves)
    else h.node (rootOver h depth (leaves.take (2 ^ depth))) (rootOver h depth (leaves.drop (2 ^ depth)))

theorem rootOver_succ (depth : Nat) (leaves : List Bytes) : rootOver h (depth + 1) leaves =
    if leaves.length ≤ 2 ^ depth then h.node (rootOver h depth leaves) (rootOver h depth leaves)
    else h.node (rootOver h depth (leaves.take (2 ^ depth))) (rootOver h depth (leaves.drop (2 ^ depth))) := rfl

/-! ## Cutting a level and its parents -/

/-- A level is cut at twice the place at which its parents are. -/
theorem parents_cut {k : Nat} {level : List Bytes} (hk : 2 * k ≤ level.length) :
    parents h (level.take (2 * k)) = (parents h level).take k ∧
      parents h (level.drop (2 * k)) = (parents h level).drop k := by
  have hleft : (level.take (2 * k)).length = 2 * k := List.length_take_of_le hk
  have hparents : (parents h (level.take (2 * k))).length = k := by
    rw [length_parents, hleft]
    omega
  have happend : parents h level = parents h (level.take (2 * k)) ++ parents h (level.drop (2 * k)) := by
    rw [← parents_append _ (by omega), List.take_append_drop]
  rw [happend]
  exact ⟨(List.take_left' hparents).symm, (List.drop_left' hparents).symm⟩

/-- One level of the build takes one step off the recursion. -/
theorem rootOver_parents (depth : Nat) : ∀ level : List Bytes, level ≠ [] → level.length ≤ 2 ^ (depth + 1) →
    rootOver h (depth + 1) level = rootOver h depth (parents h level) := by
  induction depth with
  | zero =>
    intro level hne hlen
    match level, hne with
    | [a], _ => rfl
    | [a, b], _ => rfl
    | a :: b :: c :: rest, _ => simp at hlen
  | succ depth ih =>
    intro level hne hlen
    -- Both sides take their next step: the parents are cut at half the length at which the level is cut.
    rw [rootOver_succ (depth + 1) level, rootOver_succ depth (parents h level), length_parents]
    have hcut : 2 ^ (depth + 1) = 2 * 2 ^ depth := Nat.pow_succ'
    have hpos : 0 < 2 ^ depth := Nat.two_pow_pos depth
    by_cases hleft : level.length ≤ 2 ^ (depth + 1)
    · -- Everything is on the left, and so are the parents.
      rw [if_pos hleft, if_pos (by omega), ih level hne hleft]
    · have htake : level.take (2 ^ (depth + 1)) ≠ [] := by
        refine List.ne_nil_of_length_pos ?_
        rw [List.length_take]
        omega
      have hdrop : level.drop (2 ^ (depth + 1)) ≠ [] := by
        refine List.ne_nil_of_length_pos ?_
        rw [List.length_drop]
        omega
      have hlenTake : (level.take (2 ^ (depth + 1))).length ≤ 2 ^ (depth + 1) := List.length_take_le _ _
      have hlenDrop : (level.drop (2 ^ (depth + 1))).length ≤ 2 ^ (depth + 1) := by
        rw [List.length_drop]
        rw [Nat.pow_succ] at hlen
        omega
      have hwide : 2 * 2 ^ depth ≤ level.length := by omega
      rw [if_neg hleft, if_neg (by omega), ih _ htake hlenTake, ih _ hdrop hlenDrop, hcut, (parents_cut hwide).1,
        (parents_cut hwide).2]

/-! ## Depths -/

theorem depthFor_eq_clog : ∀ n : Nat, depthFor n = Nat.clog 2 n := by
  intro n
  induction n using Nat.strong_induction_on with
  | h n ih =>
    by_cases hn : 1 < n
    · rw [depthFor_eq_succ hn, ih _ (by omega), Nat.clog_of_two_le (by decide) hn]
      rfl
    · rw [Nat.clog_of_right_le_one (by omega)]
      unfold depthFor
      rw [if_neg (by omega)]

/-- The depth is the least one that has room for all leaves. -/
theorem isLeast_depthFor (n : Nat) : IsLeast {d | n ≤ 2 ^ d} (depthFor n) := by
  rw [depthFor_eq_clog]
  constructor
  · exact Nat.le_pow_clog (by decide) n
  · intro d hd
    exact Nat.clog_le_of_le_pow hd

/-- Halving and rounding up `k + 1` times is one division by `2 ^ (k + 1)`, rounded up. -/
theorem ceilDiv_half (n k : Nat) : ((n + 1) / 2) ⌈/⌉ 2 ^ k = n ⌈/⌉ 2 ^ (k + 1) := by
  have hpos : 0 < 2 ^ k := Nat.two_pow_pos k
  have hhalf : (n + 2 * 2 ^ k - 1) / 2 = (n + 1) / 2 + 2 ^ k - 1 := by omega
  rw [Nat.ceilDiv_eq_add_pred_div, Nat.ceilDiv_eq_add_pred_div, Nat.pow_succ', ← Nat.div_div_eq_div_mul, hhalf]

/-! ## Towers -/

namespace Tower

variable {levels : List (List Bytes)} {root : Bytes}

theorem length_of_getElem? (ht : Tower h levels root) : ∀ (k : Nat) (level : List Bytes), levels[k]? = some level →
    level.length = (levels.headD []).length ⌈/⌉ 2 ^ k := by
  induction ht with
  | top _ =>
    intro k level hlevel
    match k with
    | 0 =>
      obtain rfl := Option.some.inj hlevel
      rw [pow_zero, ceilDiv_one, List.headD_cons]
    | k + 1 => simp at hlevel
  | @step base rest root hlen hw above ih =>
    intro k level hlevel
    match k with
    | 0 =>
      obtain rfl := Option.some.inj hlevel
      rw [pow_zero, ceilDiv_one, List.headD_cons]
    | k + 1 =>
      have hup := ih k level hlevel
      rw [List.headD_cons, length_parents, ceilDiv_half] at hup
      exact hup

theorem length_of_mem (ht : Tower h levels root) : ∀ level ∈ levels, ∀ node ∈ level, node.length = 32 := by
  induction ht with
  | top hw =>
    intro level hlevel node hnode
    obtain rfl := List.mem_singleton.mp hlevel
    exact List.mem_singleton.mp hnode ▸ hw
  | step hlen hw above ih =>
    intro level hlevel
    rcases List.mem_cons.mp hlevel with rfl | hlevel
    · exact hw
    · exact ih level hlevel

/-- From the leaves up and from the top down, the root is the same. -/
theorem root_eq_rootOver (ht : Tower h levels root) :
    root = rootOver h (depthFor (levels.headD []).length) (levels.headD []) := by
  induction ht with
  | top _ => rfl
  | @step level rest root hlen hw above ih =>
    -- By induction `root` is the one over the parents, whose depth is one less.
    have hroom : level.length ≤ 2 ^ depthFor level.length := (isLeast_depthFor level.length).1
    have hne : level ≠ [] := List.ne_nil_of_length_pos (by omega)
    rw [List.headD_cons, length_parents] at ih
    rw [depthFor_eq_succ hlen] at hroom
    rw [List.headD_cons, depthFor_eq_succ hlen, rootOver_parents _ level hne hroom]
    exact ih

end Tower

/-- A level of one node ends the build, so further rounds add nothing. -/
theorem levelsFrom_of_le : ∀ (fuel more : Nat) (level : List Bytes), level.length ≤ fuel + 1 → fuel ≤ more →
    levelsFrom h more level = levelsFrom h fuel level
  | 0, 0, _, _, _ => rfl
  | 0, more + 1, level, hlen, _ => by
    rw [levelsFrom, levelsFrom, if_pos (by omega)]
  | fuel + 1, 0, _, _, hle => absurd hle (Nat.not_succ_le_zero fuel)
  | fuel + 1, more + 1, level, hlen, hle => by
    rw [levelsFrom, levelsFrom]
    split
    · rfl
    · rw [levelsFrom_of_le fuel more (parents h level) (by rw [length_parents]; omega) (by omega)]

/-! ## Built trees -/

namespace Tree

variable {leaves : List Bytes}

theorem build_misfit {i : Nat} {leaf : Bytes} (hleaf : leaves[i]? = some leaf) (hlen : leaf.length ≠ 32)
    (hfirst : ∀ (j : Nat) (x : Bytes), j < i → leaves[j]? = some x → x.length = 32) :
    build h leaves = .error (.encoding (.leafLength i leaf.length)) := by
  have hne : leaves ≠ [] := by
    rintro rfl
    simp at hleaf
  have hfind : leaves.zipIdx.find? (fun x => x.1.length != Hasher.digestSize) = some (leaf, i) := by
    rw [List.find?_eq_some_iff_getElem]
    obtain ⟨hi, hget⟩ := List.getElem?_eq_some_iff.mp hleaf
    refine ⟨by simpa [Hasher.digestSize] using hlen, i, by simpa using hi, by simp [hget], ?_⟩
    intro j hj
    have hjlen := hfirst j _ hj (List.getElem?_eq_getElem (by omega))
    simp [Hasher.digestSize, hjlen]
  unfold build firstMisfit
  rw [if_neg (by simpa using hne), hfind]
  rfl

/-- **The levels of a tree and its recursive form.** Over a non-empty list of digests the build ends, with any number of
rounds from the number of leaves on, in a tree of the least depth that has room for the leaves: level `k` starts with
the leaves at `k = 0` and has as many nodes as there are leaves, divided by `2 ^ k` and rounded up, each as wide as a
digest. The root is that of the recursion from the top down. The empty list is refused, and so is a list with a leaf of
another width, of which the first one is named. -/
theorem build_root_recursive (h : Hasher) (leaves : List Bytes) :
    (leaves = [] → build h leaves = .error .noLeaves) ∧
    (∀ (i : Nat) (leaf : Bytes), leaves[i]? = some leaf → leaf.length ≠ 32 →
      (∀ (j : Nat) (x : Bytes), j < i → leaves[j]? = some x → x.length = 32) →
        build h leaves = .error (.encoding (.leafLength i leaf.length))) ∧
    (leaves ≠ [] → (∀ leaf ∈ leaves, leaf.length = 32) →
      IsLeast {d | leaves.length ≤ 2 ^ d} (depthFor leaves.length) ∧
      ∃ t, build h leaves = .ok t ∧ (∀ rounds, leaves.length ≤ rounds → levelsFrom h rounds leaves = t.levels) ∧
        t.levels.length = depthFor leaves.length + 1 ∧ t.levels[0]? = some leaves ∧
        (∀ (k : Nat) (level : List Bytes), t.levels[k]? = some level →
          level.length = leaves.length ⌈/⌉ 2 ^ k ∧ ∀ node ∈ level, node.length = 32) ∧
        t.root = rootOver h (depthFor leaves.length) leaves) := by
  refine ⟨?_, fun i leaf => build_misfit, fun hne hw => ⟨isLeast_depthFor _, ?_⟩⟩
  · rintro rfl
    rfl
  have hb : build h leaves = .ok ⟨h, Merkle.levels h leaves⟩ := build_eq_ok_iff.mpr ⟨hne, hw, rfl⟩
  obtain ⟨-, hleaves, ht⟩ := tower_of_build hb
  have hbase : (Merkle.levels h leaves).headD [] = leaves := hleaves
  refine ⟨_, hb, ?_, ?_, ?_, ?_, ?_⟩
  · intro rounds hrounds
    exact levelsFrom_of_le _ _ leaves (Nat.le_succ _) hrounds
  · rw [← ht.depth, hbase]
  · obtain ⟨rest, hrest⟩ := levelsFrom_eq_cons (h := h) leaves.length leaves
    show (levelsFrom h leaves.length leaves)[0]? = _
    rw [hrest]
    rfl
  · intro k level hlevel
    have hlen := ht.length_of_getElem? k level hlevel
    rw [hbase] at hlen
    exact ⟨hlen, ht.length_of_mem level (List.mem_of_getElem? hlevel)⟩
  · have hroot := ht.root_eq_rootOver
    rwa [hbase] at hroot

/-- Five leaves: two levels are odd, and the right half of the recursion holds the fifth leaf alone. -/
theorem build_root_recursive_five :
    let leaf (n : UInt8) : Bytes := List.replicate 32 n
    let node : Bytes → Bytes → Bytes := Hasher.node {}
    let single := node (leaf 5) (leaf 5)
    build {} [leaf 1, []] = .error (.encoding (.leafLength 1 0)) ∧
    ∃ t, build {} [leaf 1, leaf 2, leaf 3, leaf 4, leaf 5] = .ok t ∧ t.levels.length = 4 ∧
      (∀ level, t.levels[1]? = some level → level.length = 3) ∧
      t.root = node (node (node (leaf 1) (leaf 2)) (node (leaf 3) (leaf 4))) (node single single) := by
  intro leaf node single
  obtain ⟨-, hmisfit, -⟩ := build_root_recursive {} [leaf 1, []]
  obtain ⟨-, -, hbuild⟩ := build_root_recursive {} [leaf 1, leaf 2, leaf 3, leaf 4, leaf 5]
  obtain ⟨-, t, hb, -, hcount, -, hlevel, hroot⟩ := hbuild (by simp) (by decide)
  have hdepth : depthFor [leaf 1, leaf 2, leaf 3, leaf 4, leaf 5].length = 3 := by decide
  have hhalf : [leaf 1, leaf 2, leaf 3, leaf 4, leaf 5].length ⌈/⌉ 2 ^ 1 = 3 := by decide
  refine ⟨hmisfit 1 [] rfl (by decide) ?_, t, hb, ?_, ?_, ?_⟩
  · intro j x hj hx
    obtain rfl : j = 0 := by omega
    obtain rfl := Option.some.inj hx
    rfl
  · rw [hcount, hdepth]
  · intro level h1
    rw [(hlevel 1 level h1).1, hhalf]
  · rw [hroot, hdepth]
    rfl

end Tree
end Airdrop.Merkle
