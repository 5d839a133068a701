import Airdrop.Merkle.Tree
import Airdrop.Proofs.Hasher.Collision
import Mathlib.Data.List.GetD

/-!
# The levels of a built tree

* `Tower h levels root` : every level but the last has more than one node and carries its parents; the last is `root`
  alone; every node is as wide as a digest. `Tree.tower_of_build` : the levels of a built tree are one.
* `joinPreimage` : what is hashed where a node at a position meets its sibling; `getElem?_levelPreimages` reads a
  level's parents in this form, which is also the form of one step of a climb.
* `preimagesOf` : everything that is hashed while a tree is built.
* `Tower.depth` : the number of levels above the first one is `depthFor` of the number of leaves.
* `Tree.root_eq_of_repeated_last` : trees of different sizes may have one root.
-/

namespace Airdrop.Merkle

open Airdrop.Merkle.Tree (sibling)

variable {h : Hasher}

/-! ## One level and its parents -/

def levelPreimages (h : Hasher) : List Bytes → List Bytes
  | [] => []
  | [a] => [h.nodePreimage a a]
  | a :: b :: rest => h.nodePreimage a b :: levelPreimages h rest

theorem parents_eq : ∀ level : List Bytes, parents h level = (levelPreimages h level).map h.digest
  | [] => rfl
  | [_] => rfl
  | a :: b :: rest => by
    rw [parents, levelPreimages, List.map_cons, parents_eq rest]
    rfl

/-- No pair of nodes lies across a cut behind an even number of them. -/
theorem parents_append {right : List Bytes} : ∀ left : List Bytes, left.length % 2 = 0 →
    parents h (left ++ right) = parents h left ++ parents h right
  | [], _ => rfl
  | [_], hodd => absurd hodd Nat.one_ne_zero
  | _ :: _ :: rest, heven => by
    have hrest : rest.length % 2 = 0 := by
      rw [List.length_cons, List.length_cons] at heven
      omega
    simp only [List.cons_append, parents, parents_append rest hrest]

theorem parents_repeated_last {level : List Bytes} {last : Bytes} (heven : level.length % 2 = 0) :
    parents h (level ++ [last]) = parents h (level ++ [last, last]) := by
  rw [parents_append _ heven, parents_append _ heven]
  rfl

@[simp] theorem length_parents : ∀ level : List Bytes, (parents h level).length = (level.length + 1) / 2
  | [] => rfl
  | [_] => by simp [parents]
  | a :: b :: rest => by
    rw [parents, List.length_cons, length_parents rest, List.length_cons, List.length_cons]
    omega

/-- What is hashed where the node at position `i` of a level meets its sibling; an even position is on the left. -/
def joinPreimage (h : Hasher) (i : Nat) (hash sibling : Bytes) : Bytes :=
  if i % 2 = 1 then h.nodePreimage sibling hash else h.nodePreimage hash sibling

theorem digest_joinPreimage (i : Nat) (hash sibling : Bytes) :
    h.digest (joinPreimage h i hash sibling) = if i % 2 = 1 then h.node sibling hash else h.node hash sibling := by
  unfold joinPreimage
  split <;> rfl

theorem joinPreimage_inj {i : Nat} {x s y t : Bytes} (hx : x.length = 32) (hs : s.length = 32) (hy : y.length = 32)
    (ht : t.length = 32) (heq : joinPreimage h i x s = joinPreimage h i y t) : x = y ∧ s = t := by
  unfold joinPreimage at heq
  split at heq
  · exact (Hasher.nodePreimage_inj (hx.trans hy.symm) heq).symm
  · exact Hasher.nodePreimage_inj (hs.trans ht.symm) heq

theorem nodeAmong_joinPreimage {strings : List Bytes} {i : Nat} {x s : Bytes} (hx : x.length = 32)
    (hs : s.length = 32) (hmem : joinPreimage h i x s ∈ strings) :
    h.NodeAmong strings (h.digest (joinPreimage h i x s)) := by
  unfold joinPreimage at hmem ⊢
  split at hmem
  · rw [if_pos (by assumption)]
    exact ⟨s, x, hs, hx, hmem, rfl⟩
  · rw [if_neg (by assumption)]
    exact ⟨x, s, hx, hs, hmem, rfl⟩

theorem sibling_cons_cons (a b : Bytes) (rest : List Bytes) (i : Nat) :
    sibling (a :: b :: rest) (i + 2) = sibling rest i := by
  unfold sibling
  by_cases hi : i % 2 = 0
  · rw [if_pos hi, if_pos (show (i + 2) % 2 = 0 by omega)]
    rfl
  · rw [if_neg hi, if_neg (show ¬ (i + 2) % 2 = 0 by omega), show i + 2 - 1 = i - 1 + 2 by omega]
    rfl

theorem getElem?_levelPreimages : ∀ (level : List Bytes) (i : Nat), i < level.length →
    (levelPreimages h level)[i / 2]? = some (joinPreimage h i (level.getD i []) (sibling level i))
  | [], _, hi => absurd hi (Nat.not_lt_zero _)
  | [a], 0, _ => rfl
  | [_], i + 1, hi => absurd hi (by simp)
  | a :: b :: rest, 0, _ => rfl
  | a :: b :: rest, 1, _ => rfl
  | a :: b :: rest, i + 2, hi => by
    have ih := getElem?_levelPreimages rest i (by simpa using hi)
    rw [levelPreimages, show (i + 2) / 2 = i / 2 + 1 by omega, List.getElem?_cons_succ, ih, sibling_cons_cons]
    unfold joinPreimage
    rw [show (i + 2) % 2 = i % 2 by omega]
    rfl

theorem joinPreimage_mem_levelPreimages {level : List Bytes} {i : Nat} (hi : i < level.length) :
    joinPreimage h i (level.getD i []) (sibling level i) ∈ levelPreimages h level :=
  List.mem_of_getElem? (getElem?_levelPreimages level i hi)

theorem getD_parents {level : List Bytes} {i : Nat} (hi : i < level.length) :
    (parents h level).getD (i / 2) [] = h.digest (joinPreimage h i (level.getD i []) (sibling level i)) := by
  rw [parents_eq, List.getD_eq_getElem?_getD, List.getElem?_map, getElem?_levelPreimages level i hi]
  rfl

theorem length_getD {level : List Bytes} (hw : ∀ node ∈ level, node.length = 32) {i : Nat} (hi : i < level.length) :
    (level.getD i []).length = 32 := by
  rw [List.getD_eq_getElem _ _ hi]
  exact hw _ (List.getElem_mem hi)

theorem length_sibling {level : List Bytes} (hw : ∀ node ∈ level, node.length = 32) {i : Nat} (hi : i < level.length) :
    (sibling level i).length = 32 := by
  unfold sibling
  by_cases hs : (if i % 2 = 0 then i + 1 else i - 1) < level.length
  · rw [List.getD_eq_getElem _ _ hs]
    exact hw _ (List.getElem_mem hs)
  · rw [List.getD_eq_default _ _ (by omega)]
    exact length_getD hw hi

/-! ## Towers -/

/-- `levels` stand on each other, each the parents of the one before it, up to `root`; all nodes are as wide as
digests. -/
inductive Tower (h : Hasher) : (levels : List (List Bytes)) → (root : Bytes) → Prop
  | top {root : Bytes} (hw : root.length = 32) : Tower h [[root]] root
  | step {level : List Bytes} {rest : List (List Bytes)} {root : Bytes} (hlen : 1 < level.length)
      (hw : ∀ node ∈ level, node.length = 32) (above : Tower h (parents h level :: rest) root) :
      Tower h (level :: parents h level :: rest) root

/-- Everything that is hashed for the levels above the first one. -/
def preimagesOf (h : Hasher) : (levels : List (List Bytes)) → List Bytes
  | [] => []
  | [_] => []
  | level :: above :: rest => levelPreimages h level ++ preimagesOf h (above :: rest)

theorem levelsFrom_eq_cons (fuel : Nat) (level : List Bytes) : ∃ rest, levelsFrom h fuel level = level :: rest := by
  cases fuel with
  | zero => exact ⟨[], rfl⟩
  | succ fuel =>
    rw [levelsFrom]
    split
    · exact ⟨[], rfl⟩
    · exact ⟨_, rfl⟩

theorem length_mem_parents {level : List Bytes} : ∀ node ∈ parents h level, node.length = 32 := by
  intro node hnode
  rw [parents_eq, List.mem_map] at hnode
  obtain ⟨x, -, rfl⟩ := hnode
  exact Algorithm.length_digest _ _

/-- The levels over a non-empty level of digests are a tower; each step up halves the level, so its length is fuel
enough. -/
theorem tower_levelsFrom : ∀ (fuel : Nat) (level : List Bytes), 0 < level.length → level.length ≤ fuel + 1 →
    (∀ node ∈ level, node.length = 32) → ∃ root, Tower h (levelsFrom h fuel level) root := by
  intro fuel
  induction fuel with
  | zero =>
    intro level h0 hfuel hw
    obtain ⟨root, rfl⟩ := List.length_eq_one_iff.mp (show level.length = 1 by omega)
    exact ⟨root, Tower.top (hw root (List.mem_singleton_self root))⟩
  | succ fuel ih =>
    intro level h0 hfuel hw
    rw [levelsFrom]
    split
    · obtain ⟨root, rfl⟩ := List.length_eq_one_iff.mp (show level.length = 1 by omega)
      exact ⟨root, Tower.top (hw root (List.mem_singleton_self root))⟩
    · obtain ⟨root, above⟩ := ih (parents h level) (by rw [length_parents]; omega) (by rw [length_parents]; omega)
        length_mem_parents
      obtain ⟨rest, hrest⟩ := levelsFrom_eq_cons (h := h) fuel (parents h level)
      rw [hrest] at above ⊢
      exact ⟨root, Tower.step (by omega) hw above⟩

namespace Tower

variable {levels : List (List Bytes)} {root : Bytes}

theorem length_root (ht : Tower h levels root) : root.length = 32 := by
  induction ht with
  | top hw => exact hw
  | step _ _ _ ih => exact ih

theorem root_eq (ht : Tower h levels root) : ((levels.getLast?).bind List.head?).getD [] = root := by
  induction ht with
  | top _ => rfl
  | step _ _ _ ih => rw [List.getLast?_cons_cons, ih]

theorem length_of_mem_base (ht : Tower h levels root) : ∀ node ∈ levels.headD [], node.length = 32 := by
  cases ht with
  | top hw => exact fun node hnode => List.mem_singleton.mp hnode ▸ hw
  | step _ hw _ => exact hw

theorem length_pos (ht : Tower h levels root) : 0 < levels.length := by
  cases ht <;> exact Nat.succ_pos _

/-- A node above the first level is hashed from two nodes below it. -/
theorem nodeAmong_of_mem_above (ht : Tower h levels root) :
    ∀ node ∈ levels.tail.flatten, h.NodeAmong (preimagesOf h levels) node := by
  induction ht with
  | top _ => exact fun node hnode => absurd hnode List.not_mem_nil
  | @step level rest root hlen hw above ih =>
    intro node hnode
    rw [List.tail_cons, List.flatten_cons, List.mem_append] at hnode
    rcases hnode with hnode | hnode
    · obtain ⟨k, hk, rfl⟩ := List.getElem_of_mem hnode
      have hj : 2 * k < level.length := by
        rw [length_parents] at hk
        omega
      have hval := getD_parents (h := h) hj
      rw [show 2 * k / 2 = k by omega, List.getD_eq_getElem _ _ hk] at hval
      rw [hval]
      exact nodeAmong_joinPreimage (length_getD hw hj) (length_sibling hw hj)
        (List.mem_append_left _ (joinPreimage_mem_levelPreimages hj))
    · exact (ih node hnode).mono fun _ hx => List.mem_append_right _ hx

/-- There is one root over a level. -/
theorem root_unique {levels' : List (List Bytes)} {root' : Bytes} (ht : Tower h levels root)
    (ht' : Tower h levels' root') (heq : levels.headD [] = levels'.headD []) : root = root' := by
  induction ht generalizing levels' root' with
  | top _ =>
    cases ht' with
    | top _ => simpa using heq
    | step hlen _ _ => exact absurd (congrArg List.length heq) (by simp; omega)
  | step hlen _ _ ih =>
    cases ht' with
    | top _ => exact absurd (congrArg List.length heq) (by simp; omega)
    | step _ _ above' =>
      obtain rfl : _ = _ := heq
      exact ih above' rfl

theorem root_eq_of_parents_eq {levels' : List (List Bytes)} {root' : Bytes} (ht : Tower h levels root)
    (ht' : Tower h levels' root') (hlen : 1 < (levels.headD []).length) (hlen' : 1 < (levels'.headD []).length)
    (heq : parents h (levels.headD []) = parents h (levels'.headD [])) : root = root' := by
  cases ht with
  | top _ => exact absurd hlen (Nat.lt_irrefl 1)
  | step _ _ above =>
    cases ht' with
    | top _ => exact absurd hlen' (Nat.lt_irrefl 1)
    | step _ _ above' => exact above.root_unique above' heq

/-- The levels from some level on are a tower to the same root. -/
theorem drop (ht : Tower h levels root) : ∀ k, k < levels.length → Tower h (levels.drop k) root := by
  induction ht with
  | top hw =>
    intro k hk
    obtain rfl : k = 0 := by simpa using hk
    exact Tower.top hw
  | step hlen hw above ih =>
    intro k hk
    cases k with
    | zero => exact Tower.step hlen hw above
    | succ k => exact ih k (by simpa using hk)

end Tower

theorem preimagesOf_drop_subset : ∀ (k : Nat) (levels : List (List Bytes)),
    preimagesOf h (levels.drop k) ⊆ preimagesOf h levels
  | 0, _ => fun _ hx => hx
  | _ + 1, [] => fun _ hx => hx
  | k + 1, [_] => by
    rw [List.drop_succ_cons, List.drop_nil]
    exact List.nil_subset _
  | k + 1, _ :: above :: rest => fun _ hx =>
    List.mem_append_right _ (preimagesOf_drop_subset k (above :: rest) hx)

/-! ## Depths -/

/-- A level is one level deeper than its parents. -/
theorem depthFor_eq_succ {n : Nat} (hn : 1 < n) : depthFor n = depthFor ((n + 1) / 2 : Nat) + 1 := by
  unfold depthFor bitLength
  rw [if_pos (by omega), show ((n : Int) - 1).toNat = n - 1 by omega, if_neg (by omega), Nat.log2_def]
  by_cases h2 : n = 2
  · subst h2
    rfl
  · rw [if_pos (by omega), if_pos (by omega), show (((n + 1) / 2 : Nat) - 1 : Int).toNat = (n - 1) / 2 by omega,
      if_neg (by omega)]

theorem Tower.depth {levels : List (List Bytes)} {root : Bytes} (ht : Tower h levels root) :
    depthFor (levels.headD []).length + 1 = levels.length := by
  induction ht with
  | top _ => rfl
  | @step level rest root hlen hw above ih =>
    rw [List.headD_cons, length_parents] at ih
    rw [List.headD_cons, depthFor_eq_succ hlen, List.length_cons, ih]

/-! ## Built trees -/

namespace Tree

variable {leaves : List Bytes} {t : Tree}

/-- Everything that was hashed while the tree was built. -/
def preimages (t : Tree) : List Bytes := preimagesOf t.hasher t.levels

theorem firstMisfit_eq_none_iff : firstMisfit leaves = none ↔ ∀ leaf ∈ leaves, leaf.length = 32 := by
  unfold firstMisfit
  rw [Option.map_eq_none_iff, List.find?_eq_none]
  constructor
  · intro hfit leaf hleaf
    obtain ⟨i, hi, rfl⟩ := List.getElem_of_mem hleaf
    simpa [Hasher.digestSize] using hfit (leaves[i], i) (List.mem_zipIdx_iff_getElem?.mpr (List.getElem?_eq_getElem hi))
  · intro hw ⟨leaf, i⟩ hmem
    have hlen : leaf.length = 32 := hw leaf (List.mem_of_getElem? (List.mem_zipIdx_iff_getElem?.mp hmem))
    simp [Hasher.digestSize, hlen]

theorem build_eq_ok_iff :
    build h leaves = .ok t ↔ leaves ≠ [] ∧ (∀ leaf ∈ leaves, leaf.length = 32) ∧ t = ⟨h, Merkle.levels h leaves⟩ := by
  unfold build
  by_cases h0 : leaves = []
  · simp [h0]
  · rw [if_neg (by simpa using h0), ← firstMisfit_eq_none_iff]
    cases firstMisfit leaves with
    | some misfit => simp
    | none => simp [h0, eq_comm]

/-- The tree over a non-empty list of digests: it keeps the hasher and the leaves, and its levels are a tower. -/
theorem tower_of_build (hb : build h leaves = .ok t) :
    t.hasher = h ∧ t.leaves = leaves ∧ Tower h t.levels t.root := by
  obtain ⟨h0, hw, rfl⟩ := build_eq_ok_iff.mp hb
  obtain ⟨root, ht⟩ := tower_levelsFrom (h := h) leaves.length leaves (List.length_pos_iff.mpr h0) (Nat.le_succ _) hw
  obtain ⟨rest, hrest⟩ := levelsFrom_eq_cons (h := h) leaves.length leaves
  refine ⟨rfl, ?_, ?_⟩
  · show (levelsFrom h leaves.length leaves).headD [] = leaves
    rw [hrest, List.headD_cons]
  · rw [show root = Tree.root ⟨h, Merkle.levels h leaves⟩ from ht.root_eq.symm] at ht
    exact ht

/-- A tree does not bind the number of its leaves: the last one of an odd number may as well stand there twice. -/
theorem root_eq_of_repeated_last {t' : Tree} {last : Bytes} (heven : leaves.length % 2 = 0) (h0 : leaves ≠ [])
    (hb : build h (leaves ++ [last]) = .ok t) (hb' : build h (leaves ++ [last, last]) = .ok t') : t.root = t'.root := by
  obtain ⟨-, hleaves, ht⟩ := tower_of_build hb
  obtain ⟨-, hleaves', ht'⟩ := tower_of_build hb'
  have hpos := List.length_pos_iff.mpr h0
  rw [Tree.leaves] at hleaves hleaves'
  refine ht.root_eq_of_parents_eq ht' ?_ ?_ ?_
  · rw [hleaves, List.length_append, List.length_singleton]
    omega
  · rw [hleaves', List.length_append]
    exact Nat.lt_add_left _ (Nat.lt_succ_self 1)
  · rw [hleaves, hleaves', parents_repeated_last heven]

end Tree
end Airdrop.Merkle
