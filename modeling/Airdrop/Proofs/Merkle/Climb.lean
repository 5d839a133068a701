import Airdrop.Merkle.Inclusion
import Airdrop.Proofs.Merkle.Tower

/-!
# Climbing from a leaf to the root

* `climbPreimages` : everything that is hashed during a climb.
* `landing levels i` : where a walk from the root by the bits of `i` ends on the first level. It keeps to the left node
  where there is no right one, so that positions beyond the last leaf land on leaves too; a leaf lands on itself.
* `Tower.climb_landing` : the leaf where `i` lands and its own siblings climb to the root at index `i`.
* `Tower.climb_unique` : nothing else of the right length does, or two strings collide.
* `Tower.climb_cases` : a shorter climb starts at an inner node, and a longer one shows that a leaf is an inner node.
-/

namespace Airdrop.Merkle

open Airdrop.Merkle.Tree (sibling siblings)

variable {h : Hasher}

/-! ## Climbs -/

def climbPreimages (h : Hasher) : (hash : Bytes) → (siblings : List Bytes) → (index : Nat) → List Bytes
  | _, [], _ => []
  | hash, sibling :: rest, index =>
    joinPreimage h index hash sibling ::
      climbPreimages h (h.digest (joinPreimage h index hash sibling)) rest (index / 2)

theorem climb_cons (x s : Bytes) (p : List Bytes) (i : Nat) :
    climb h x (s :: p) i = climb h (h.digest (joinPreimage h i x s)) p (i / 2) := by
  rw [climb, digest_joinPreimage]

theorem climb_append : ∀ (p q : List Bytes) (x : Bytes) (i : Nat),
    climb h x (p ++ q) i = climb h (climb h x p i) q (i / 2 ^ p.length)
  | [], _, _, _ => by simp [climb]
  | s :: p, q, x, i => by
    rw [List.cons_append, climb_cons, climb_append p q, ← climb_cons, Nat.div_div_eq_div_mul, List.length_cons,
      Nat.pow_succ']

theorem climbPreimages_append : ∀ (p q : List Bytes) (x : Bytes) (i : Nat),
    climbPreimages h x (p ++ q) i =
      climbPreimages h x p i ++ climbPreimages h (climb h x p i) q (i / 2 ^ p.length)
  | [], _, _, _ => by simp [climb, climbPreimages]
  | s :: p, q, x, i => by
    rw [List.cons_append, climbPreimages, climbPreimages_append p q, climbPreimages, climb_cons, List.cons_append,
      Nat.div_div_eq_div_mul, List.length_cons, Nat.pow_succ']

theorem length_climb : ∀ (p : List Bytes) (x : Bytes) (i : Nat), x.length = 32 → (climb h x p i).length = 32
  | [], _, _, hx => hx
  | _ :: p, _, _, _ => by
    rw [climb_cons]
    exact length_climb p _ _ (Algorithm.length_digest _ _)

/-- What a climb of at least one step ends in is an inner node. -/
theorem nodeAmong_climb : ∀ (p : List Bytes) (x : Bytes) (i : Nat), x.length = 32 → (∀ s ∈ p, s.length = 32) →
    p ≠ [] → h.NodeAmong (climbPreimages h x p i) (climb h x p i)
  | [], _, _, _, _, hne => absurd rfl hne
  | [s], _, _, hx, hp, _ => by
    rw [climb_cons]
    exact nodeAmong_joinPreimage hx (hp s (List.mem_singleton_self s)) (List.mem_singleton_self _)
  | s :: t :: p, x, i, _, hp, _ => by
    rw [climb_cons, climbPreimages]
    exact (nodeAmong_climb (t :: p) _ _ (Algorithm.length_digest _ _) (fun u hu => hp u (List.mem_cons_of_mem _ hu))
      (List.cons_ne_nil _ _)).mono (List.subset_cons_self _ _)

/-! ## Where an index lands -/

/-- The node below position `r` on a side, in a level of `size` nodes; the left one if there is no right one. -/
def descend (size r side : Nat) : Nat := if 2 * r + side < size then 2 * r + side else 2 * r

/-- The position of the first level at which a walk from the root by the bits of an index ends. -/
def landing : (levels : List (List Bytes)) → (i : Nat) → Nat
  | [], _ => 0
  | [_], _ => 0
  | level :: above :: rest, i => descend level.length (landing (above :: rest) (i / 2)) (i % 2)

theorem descend_lt {size r side : Nat} (hr : r < (size + 1) / 2) : descend size r side < size := by
  unfold descend
  split <;> omega

theorem descend_div_two {size r i : Nat} : descend size r (i % 2) / 2 = r := by
  unfold descend
  split <;> omega

/-- Seen from the node where it lands, an index joins that node and its sibling as the node's own position does: on the
same side, or the two are the same node. -/
theorem joinPreimage_descend {level : List Bytes} {r i : Nat} :
    joinPreimage h i (level.getD (descend level.length r (i % 2)) []) (sibling level (descend level.length r (i % 2))) =
      joinPreimage h (descend level.length r (i % 2)) (level.getD (descend level.length r (i % 2)) [])
        (sibling level (descend level.length r (i % 2))) := by
  by_cases hin : 2 * r + i % 2 < level.length
  · have hj : descend level.length r (i % 2) = 2 * r + i % 2 := if_pos hin
    unfold joinPreimage
    rw [show descend level.length r (i % 2) % 2 = i % 2 by omega]
  · have hj : descend level.length r (i % 2) = 2 * r := if_neg hin
    have hself : sibling level (2 * r) = level.getD (2 * r) [] := by
      unfold sibling
      rw [if_pos (by omega), List.getD_eq_default _ _ (by omega)]
    rw [hj, hself]
    unfold joinPreimage
    simp only [ite_self]

theorem digest_joinPreimage_descend {level : List Bytes} {r i : Nat} (hr : r < (level.length + 1) / 2) :
    h.digest (joinPreimage h i (level.getD (descend level.length r (i % 2)) [])
      (sibling level (descend level.length r (i % 2)))) = (parents h level).getD r [] := by
  rw [joinPreimage_descend, ← getD_parents (descend_lt hr), descend_div_two]

namespace Tower

variable {levels : List (List Bytes)} {root : Bytes}

theorem landing_lt (ht : Tower h levels root) : ∀ i, landing levels i < (levels.headD []).length := by
  induction ht with
  | top _ => exact fun _ => Nat.one_pos
  | step hlen hw above ih =>
    intro i
    have hr := ih (i / 2)
    rw [List.headD_cons, length_parents] at hr
    exact descend_lt hr

theorem landing_parents_lt {level : List Bytes} {rest : List (List Bytes)}
    (above : Tower h (parents h level :: rest) root) (i : Nat) :
    landing (parents h level :: rest) i < (level.length + 1) / 2 := by
  have hlt := above.landing_lt i
  rwa [List.headD_cons, length_parents] at hlt

/-- A leaf lands on itself. -/
theorem landing_of_lt (ht : Tower h levels root) : ∀ i, i < (levels.headD []).length → landing levels i = i := by
  induction ht with
  | top _ => exact fun i hi => (Nat.lt_one_iff.mp hi).symm
  | step hlen hw above ih =>
    intro i hi
    rw [List.headD_cons] at hi
    rw [landing, ih (i / 2) (by rw [List.headD_cons, length_parents]; omega)]
    unfold descend
    rw [if_pos (by omega)]
    omega

theorem length_siblings (ht : Tower h levels root) : ∀ i, (siblings levels i).length + 1 = levels.length := by
  induction ht with
  | top _ => exact fun _ => rfl
  | step hlen hw above ih =>
    intro i
    rw [siblings, List.length_cons, List.length_cons, ih]
    exact List.cons_ne_nil _ _

theorem length_of_mem_siblings (ht : Tower h levels root) :
    ∀ i, i < (levels.headD []).length → ∀ s ∈ siblings levels i, s.length = 32 := by
  induction ht with
  | top _ => exact fun _ _ s hs => absurd hs List.not_mem_nil
  | step hlen hw above ih =>
    intro i hi s hs
    rw [List.headD_cons] at hi
    rw [siblings] at hs
    rcases List.mem_cons.mp hs with rfl | hs
    · exact length_sibling hw hi
    · exact ih (i / 2) (by rw [List.headD_cons, length_parents]; omega) s hs
    · exact List.cons_ne_nil _ _

theorem siblings_landing {level : List Bytes} {rest : List (List Bytes)} (i : Nat) :
    siblings (level :: parents h level :: rest) (landing (level :: parents h level :: rest) i) =
      sibling level (landing (level :: parents h level :: rest) i) ::
        siblings (parents h level :: rest) (landing (parents h level :: rest) (i / 2)) := by
  rw [siblings, landing, descend_div_two]
  exact List.cons_ne_nil _ _

/-- The leaf where an index lands and its own siblings climb to the root. -/
theorem climb_landing (ht : Tower h levels root) : ∀ i,
    climb h ((levels.headD []).getD (landing levels i) []) (siblings levels (landing levels i)) i = root := by
  induction ht with
  | top _ => exact fun _ => rfl
  | @step level rest root hlen hw above ih =>
    intro i
    have hr := above.landing_parents_lt (i / 2)
    rw [siblings_landing, List.headD_cons, climb_cons, landing, digest_joinPreimage_descend hr]
    exact ih (i / 2)

/-- The climb of a leaf along its own siblings hashes nothing that the build did not hash. -/
theorem climbPreimages_landing_subset (ht : Tower h levels root) : ∀ i,
    climbPreimages h ((levels.headD []).getD (landing levels i) []) (siblings levels (landing levels i)) i ⊆
      preimagesOf h levels := by
  induction ht with
  | top _ => exact fun _ => List.nil_subset _
  | @step level rest root hlen hw above ih =>
    intro i
    have hr := above.landing_parents_lt (i / 2)
    rw [siblings_landing, List.headD_cons, climbPreimages, landing, digest_joinPreimage_descend hr]
    refine List.cons_subset.mpr ⟨?_, fun x hx => List.mem_append_right _ (ih (i / 2) hx)⟩
    rw [joinPreimage_descend]
    exact List.mem_append_left _ (joinPreimage_mem_levelPreimages (descend_lt hr))

/-- No other climb of the same length reaches the root: it starts at the leaf where the index lands and follows
this leaf's own siblings, or it hashes a string that collides with one of the build. -/
theorem climb_unique (ht : Tower h levels root) : ∀ (x : Bytes) (p : List Bytes) (i : Nat), x.length = 32 →
    (∀ s ∈ p, s.length = 32) → p.length + 1 = levels.length → climb h x p i = root →
    x = (levels.headD []).getD (landing levels i) [] ∧ p = siblings levels (landing levels i) ∨
      h.algorithm.Collides (preimagesOf h levels ++ climbPreimages h x p i) := by
  induction ht with
  | top _ =>
    intro x p i hx hp hlen hc
    obtain rfl : p = [] := List.length_eq_zero_iff.mp (by simpa using hlen)
    exact Or.inl ⟨hc, rfl⟩
  | @step level rest root hlevel hw above ih =>
    intro x p i hx hp hlen hc
    cases p with
    | nil => simp at hlen
    | cons s p =>
      rw [climb_cons] at hc
      have hr := above.landing_parents_lt (i / 2)
      rcases ih _ p (i / 2) (Algorithm.length_digest _ _) (fun t ht => hp t (List.mem_cons_of_mem _ ht))
        (by simpa using hlen) hc with ⟨hnode, hpath⟩ | hcol
      · -- The parent is the tree's own, so what was hashed for it here and in the build has one digest.
        rw [List.headD_cons, ← digest_joinPreimage_descend hr] at hnode
        have hmine : joinPreimage h i x s ∈ preimagesOf h (level :: parents h level :: rest) ++
            climbPreimages h x (s :: p) i := List.mem_append_right _ List.mem_cons_self
        have hbuilt : joinPreimage h i (level.getD (descend level.length (landing (parents h level :: rest) (i / 2))
            (i % 2)) []) (sibling level (descend level.length (landing (parents h level :: rest) (i / 2)) (i % 2))) ∈
            preimagesOf h (level :: parents h level :: rest) ++ climbPreimages h x (s :: p) i := by
          rw [joinPreimage_descend]
          exact List.mem_append_left _ (List.mem_append_left _ (joinPreimage_mem_levelPreimages (descend_lt hr)))
        rcases Algorithm.eq_or_collides hmine hbuilt hnode with hjoin | hcol
        · obtain ⟨hxj, hsj⟩ := joinPreimage_inj hx (hp s List.mem_cons_self) (length_getD hw (descend_lt hr))
            (length_sibling hw (descend_lt hr)) hjoin
          rw [siblings_landing, ← hpath, List.headD_cons, landing]
          exact Or.inl ⟨hxj, by rw [hsj]⟩
        · exact Or.inr hcol
      · refine Or.inr (hcol.mono ?_)
        exact List.append_subset.mpr ⟨fun y hy => List.mem_append_left _ (List.mem_append_right _ hy),
          fun y hy => List.mem_append_right _ (List.mem_cons_of_mem _ hy)⟩

/-- A climb of any length that reaches the root: it is a leaf's own, or it starts at an inner node, or it passes an
inner node where the tree has a leaf, or strings collide. -/
theorem climb_cases (ht : Tower h levels root) {x : Bytes} {p : List Bytes} {i : Nat} (hx : x.length = 32)
    (hp : ∀ s ∈ p, s.length = 32) (hc : climb h x p i = root) :
    (p.length + 1 = levels.length ∧ x = (levels.headD []).getD (landing levels i) [] ∧
      p = siblings levels (landing levels i)) ∨
    h.NodeAmong (preimagesOf h levels) x ∨
    (∃ leaf ∈ levels.headD [], h.NodeAmong (climbPreimages h x p i) leaf) ∨
    h.algorithm.Collides (preimagesOf h levels ++ climbPreimages h x p i) := by
  have hpos := ht.length_pos
  rcases Nat.lt_trichotomy (p.length + 1) levels.length with hlt | heq | hgt
  · -- The path is too short: it is one of the tower without its lowest levels.
    have hk : levels.length - (p.length + 1) < levels.length := by omega
    have hupper := ht.drop _ hk
    rcases hupper.climb_unique x p i hx hp (by rw [List.length_drop]; omega) hc with ⟨hxj, -⟩ | hcol
    · refine Or.inr (Or.inl (ht.nodeAmong_of_mem_above x ?_))
      have hmem : x ∈ (levels.drop (levels.length - (p.length + 1))).headD [] := by
        rw [hxj, List.getD_eq_getElem _ _ (hupper.landing_lt i)]
        exact List.getElem_mem _
      obtain ⟨k, hk'⟩ : ∃ k, levels.length - (p.length + 1) = k + 1 := ⟨_, (Nat.succ_pred (by omega)).symm⟩
      rw [hk', ← List.drop_tail] at hmem
      cases hrest : levels.tail.drop k with
      | nil => simp [hrest] at hmem
      | cons level rest =>
        rw [hrest, List.headD_cons] at hmem
        exact List.mem_flatten.mpr ⟨level, List.mem_of_mem_drop (hrest ▸ List.mem_cons_self), hmem⟩
    · refine Or.inr (Or.inr (Or.inr (hcol.mono ?_)))
      exact List.append_subset.mpr ⟨fun y hy => List.mem_append_left _ (preimagesOf_drop_subset _ _ hy),
        List.subset_append_right _ _⟩
  · rcases ht.climb_unique x p i hx hp heq hc with hown | hcol
    · exact Or.inl ⟨heq, hown⟩
    · exact Or.inr (Or.inr (Or.inr hcol))
  · -- The path is too long: its last steps climb from a leaf, and the ones before them made that leaf.
    obtain ⟨low, high, rfl, hlow, hhigh⟩ :
        ∃ low high, p = low ++ high ∧ low ≠ [] ∧ high.length + 1 = levels.length := by
      refine ⟨p.take (p.length + 1 - levels.length), p.drop (p.length + 1 - levels.length),
        (List.take_append_drop _ _).symm, ?_, by rw [List.length_drop]; omega⟩
      rw [← List.length_pos_iff, List.length_take]
      omega
    have hplow : ∀ s ∈ low, s.length = 32 := fun s hs => hp s (List.mem_append_left _ hs)
    rw [climb_append] at hc
    rw [climbPreimages_append]
    rcases ht.climb_unique _ high _ (length_climb low x i hx) (fun s hs => hp s (List.mem_append_right _ hs)) hhigh hc
      with ⟨hleaf, -⟩ | hcol
    · refine Or.inr (Or.inr (Or.inl ⟨climb h x low i, ?_, ?_⟩))
      · rw [hleaf, List.getD_eq_getElem _ _ (ht.landing_lt _)]
        exact List.getElem_mem _
      · exact (nodeAmong_climb low x i hx hplow hlow).mono (List.subset_append_left _ _)
    · refine Or.inr (Or.inr (Or.inr (hcol.mono ?_)))
      exact List.append_subset.mpr ⟨List.subset_append_left _ _, fun y hy =>
        List.mem_append_right _ (List.mem_append_right _ hy)⟩

end Tower
end Airdrop.Merkle
