import Airdrop.Proofs.Claim.Soundness

/-!
# Checks under other tags

A check has to use the tags of the build. Tags stand in front of what is hashed without a separator and may have any
length, so other tags could in principle hash the same strings. They do not: what stands behind the tag has one width,
at the leaves and at the inner nodes, so equal strings have equal tags.

* `Hasher.leafPreimage_ne`, `Hasher.nodePreimage_ne` : other tags, other strings.
* `climb_congr` : a climb reads the node tag only if it has a step.
* `Built.collides_of_leafTag` : a leaf under another tag that climbs to the root collides with one of the build.
  `Built.collides_of_nodeTag` : so does a climb under another node tag.
* `other_tags_collide` : what is accepted under other tags exhibits a collision.
-/

namespace Airdrop

/-! ## Other tags, other strings -/

namespace Hasher

variable {a b : Hasher} {strings : List Bytes} {encoded encoded' left right left' right' : Bytes}

theorem leafPreimage_ne (htag : b.leafTag ≠ a.leafTag) (hlen : encoded.length = encoded'.length) :
    b.leafPreimage encoded ≠ a.leafPreimage encoded' := fun heq => htag (List.append_inj' heq hlen).1

theorem nodePreimage_ne (htag : b.nodeTag ≠ a.nodeTag) (hleft : left.length = left'.length)
    (hright : right.length = right'.length) : b.nodePreimage left right ≠ a.nodePreimage left' right' := by
  intro heq
  obtain ⟨heq, -⟩ := List.append_inj' heq hright
  exact htag (List.append_inj' heq hleft).1

/-- An inner node under two node tags exhibits a collision. -/
theorem NodeAmong.collides_of_nodeTag {hash : Bytes} (hb : b.NodeAmong strings hash) (ha : a.NodeAmong strings hash)
    (halgorithm : b.algorithm = a.algorithm) (htag : b.nodeTag ≠ a.nodeTag) : a.algorithm.Collides strings := by
  obtain ⟨left, right, hleft, hright, hmem, rfl⟩ := hb
  obtain ⟨left', right', hleft', hright', hmem', heq⟩ := ha
  refine ⟨_, hmem, _, hmem', nodePreimage_ne htag (hleft.trans hleft'.symm) (hright.trans hright'.symm), ?_⟩
  rw [← halgorithm]
  exact heq.trans (by rw [node, digest, halgorithm])

end Hasher

/-! ## Climbs -/

namespace Merkle

variable {a b : Hasher}

theorem climb_congr (halgorithm : b.algorithm = a.algorithm) :
    ∀ (p : List Bytes) (x : Bytes) (i : Nat), p = [] ∨ b.nodeTag = a.nodeTag →
      climb b x p i = climb a x p i ∧ climbPreimages b x p i = climbPreimages a x p i
  | [], _, _, _ => ⟨rfl, rfl⟩
  | s :: p, x, i, h => by
    have htag : b.nodeTag = a.nodeTag := h.resolve_left (List.cons_ne_nil s p)
    have hjoin : joinPreimage b i x s = joinPreimage a i x s := by
      unfold joinPreimage Hasher.nodePreimage
      rw [htag]
    have hdigest (y : Bytes) : b.digest y = a.digest y := by rw [Hasher.digest, Hasher.digest, halgorithm]
    obtain ⟨hclimb, hpreimages⟩ := climb_congr halgorithm p (a.digest (joinPreimage a i x s)) (i / 2) (.inr htag)
    rw [climb_cons, climb_cons, climbPreimages, climbPreimages, hjoin, hdigest, hclimb, hpreimages]
    exact ⟨rfl, rfl⟩

namespace Tower

variable {levels : List (List Bytes)} {root : Bytes}

theorem root_mem (ht : Tower a levels root) : root ∈ levels.flatten := by
  induction ht with
  | top _ => exact List.mem_singleton_self _
  | step _ _ _ ih => exact List.mem_append_right _ ih

/-- The root of more than one level is an inner node. -/
theorem nodeAmong_root (ht : Tower a levels root) (hlen : 1 < levels.length) :
    a.NodeAmong (preimagesOf a levels) root := by
  refine ht.nodeAmong_of_mem_above root ?_
  cases ht with
  | top _ => exact absurd hlen (Nat.lt_irrefl 1)
  | step _ _ above => exact above.root_mem

theorem length_base_of_length (ht : Tower a levels root) (hlen : levels.length = 1) : (levels.headD []).length = 1 := by
  cases ht with
  | top _ => rfl
  | step _ _ _ => exact absurd hlen (by simp)

end Tower
end Merkle

/-! ## Accepted under other tags -/

namespace Distribution.Built

open Airdrop.Merkle (climb climbPreimages climb_congr verify_eq_true_iff checkPath_eq_ok_iff)

variable {a b : Hasher} {records : List Leaf} {encodings strings proof : List Bytes} {d : Distribution} {e : Bytes}
  {i : Int}

/-- A path that is accepted with the size has a step for every level but the last. -/
theorem length_levels_of_verify (hb : Built a records encodings d)
    (hv : Merkle.verify b (b.leaf e) proof i d.root (some d.size) = .ok true) :
    proof.length + 1 = d.tree.levels.length := by
  rw [verify_eq_true_iff, checkPath_eq_ok_iff] at hv
  obtain ⟨⟨-, -, -, -, -, hsize⟩, -⟩ := hv
  rw [(hsize _ rfl).2]
  exact hb.tower.depth

/-- A leaf under another tag that climbs to the root at a position collides with the leaf there, or strings collide on
the way. -/
theorem collides_of_leafTag (hb : Built a records encodings d) (htag : b.leafTag ≠ a.leafTag)
    (halgorithm : b.algorithm = a.algorithm) (hwidth : e.length = d.kind.width)
    (hv : Merkle.verify a (b.leaf e) proof i d.root (some d.size) = .ok true) (hbuild : d.preimages ⊆ strings)
    (hleaf : b.leafPreimage e ∈ strings) (hpath : climbPreimages a (b.leaf e) proof i.toNat ⊆ strings) :
    a.algorithm.Collides strings := by
  obtain ⟨-, -, ⟨hown, -⟩ | hcol⟩ := hb.tower.own_of_verify hv
  · rw [hb.leaves_eq, List.getElem?_map, Option.map_eq_some_iff] at hown
    obtain ⟨e', he', heq⟩ := hown
    have he' := List.mem_of_getElem? he'
    refine ⟨_, hleaf, _, hbuild (hb.leafPreimage_mem he'), ?_, ?_⟩
    · exact Hasher.leafPreimage_ne htag (hwidth.trans (hb.admitted.length_of_mem he').symm)
    · rw [← halgorithm]
      exact heq.symm.trans (by rw [Hasher.leaf, Hasher.digest, halgorithm])
  · exact hcol.mono (List.append_subset.mpr ⟨List.Subset.trans hb.preimagesOf_subset hbuild, hpath⟩)

/-- A climb of at least one step under another node tag ends in a root that is an inner node under both. -/
theorem collides_of_nodeTag (hb : Built a records encodings d) (htag : b.nodeTag ≠ a.nodeTag)
    (halgorithm : b.algorithm = a.algorithm) (hproof : proof ≠ [])
    (hv : Merkle.verify b (b.leaf e) proof i d.root (some d.size) = .ok true) (hbuild : d.preimages ⊆ strings)
    (hpath : climbPreimages b (b.leaf e) proof i.toNat ⊆ strings) : a.algorithm.Collides strings := by
  have hlevels := hb.length_levels_of_verify hv
  have hpos := List.length_pos_iff.mpr hproof
  rw [verify_eq_true_iff, checkPath_eq_ok_iff] at hv
  obtain ⟨⟨hlen, -, hwidths, -, -, -⟩, hclimb⟩ := hv
  have htop := Merkle.nodeAmong_climb (h := b) proof _ i.toNat hlen hwidths hproof
  rw [hclimb] at htop
  exact (htop.mono hpath).collides_of_nodeTag
    ((hb.tower.nodeAmong_root (by omega)).mono (List.Subset.trans hb.preimagesOf_subset hbuild)) halgorithm htag

end Distribution.Built

namespace Claim

open Outcome
open Airdrop.Distribution (ofRecords built_of_ofRecords)
open Airdrop.Merkle (climb_congr verify_eq_true_iff checkPath_eq_ok_iff)

variable {a b : Hasher} {records : List Leaf} {d : Distribution} {p : Payload} {program : Value} {kind : Kind}
  {l : Leaf} {encoded : Bytes}

theorem length_of_integration (hkind : p.integration = kind.name) (hl : leaf p program = .ok l)
    (henc : l.encode = .ok encoded) : encoded.length = kind.width := by
  obtain ⟨_, _, _, own, -, -, -, hown, hdesc⟩ := leaf_eq_ok_iff.mp hl
  obtain ⟨k, hk, hlen⟩ := (Leaf.encodes_of_encode henc).length
  obtain rfl := Except.ok.inj (hdesc.kind_eq.symm.trans hk)
  obtain ⟨-, hname⟩ := integration?_eq_some_iff.mp hown
  have hinj : kind.name = own.name → own = kind := by cases kind <;> cases own <;> decide
  rw [hlen, hinj (hkind.symm.trans hname)]

/-- **A check needs the tags of the build.** A payload with records of the distribution's width, checked with the size
under the same algorithm but another leaf tag or another node tag, is not accepted, or two distinct strings hashed in
the build and in the check have one digest. Of a single record only the leaf tag counts. -/
theorem other_tags_collide (hd : ofRecords a records = .ok d) (halgorithm : b.algorithm = a.algorithm)
    (htags : b.leafTag ≠ a.leafTag ∨ b.nodeTag ≠ a.nodeTag) (hsize : 2 ≤ d.size ∨ b.leafTag ≠ a.leafTag)
    (hkind : p.integration = kind.name) (hwidth : kind.width = d.kind.width) :
    verifyBytes p d.root b program (some d.size) ≠ .ok true ∨
      ∃ l encoded proof, leaf p program = .ok l ∧ l.encode = .ok encoded ∧ siblings p = .ok proof ∧
        a.algorithm.Collides (d.preimages ++ checkPreimages b encoded proof p.index.toNat) := by
  refine Classical.or_iff_not_imp_left.mpr fun hv => ?_
  obtain ⟨proof, l, encoded, hproof, hl, henc, hv⟩ := verifyBytes_eq_true_iff.mp (not_not.mp hv)
  obtain ⟨encodings, hb⟩ := built_of_ofRecords hd
  refine ⟨l, encoded, proof, hl, henc, hproof, ?_⟩
  have hbuild := List.subset_append_left d.preimages (checkPreimages b encoded proof p.index.toNat)
  have hpath : Merkle.climbPreimages b (b.leaf encoded) proof p.index.toNat ⊆
      d.preimages ++ checkPreimages b encoded proof p.index.toNat :=
    List.Subset.trans (List.subset_cons_self _ _) (List.subset_append_right _ _)
  by_cases hclimb : proof = [] ∨ b.nodeTag = a.nodeTag
  · -- The two climbs are one, so the leaf tags differ: a tree without a step has one leaf.
    have hleafTag : b.leafTag ≠ a.leafTag := by
      rcases hclimb with rfl | hnode
      · refine hsize.resolve_left fun htwo => ?_
        have hone : d.size = 1 := hb.tower.length_base_of_length (hb.length_levels_of_verify hv).symm
        exact absurd (hone ▸ htwo) (by decide)
      · exact htags.resolve_right (not_not_intro hnode)
    obtain ⟨hroot, hpreimages⟩ := climb_congr halgorithm proof (b.leaf encoded) p.index.toNat hclimb
    rw [verify_eq_true_iff, hroot, ← verify_eq_true_iff] at hv
    exact hb.collides_of_leafTag hleafTag halgorithm ((length_of_integration hkind hl henc).trans hwidth) hv hbuild
      (List.mem_append_right _ List.mem_cons_self) (hpreimages ▸ hpath)
  · obtain ⟨hne, htag⟩ := not_or.mp hclimb
    exact hb.collides_of_nodeTag htag halgorithm hne hv hbuild hpath

def secondOf (d : Distribution) : Payload where
  integration := "transfer"
  handle := Base58.text (List.replicate 32 1)
  amount := 5
  index := 1
  proof := (Merkle.Tree.siblings d.tree.levels 1).map fun hash => Base58.text hash
  target := Base58.text (List.replicate 32 2)

/-- The second of two wallets, accepted without tags, under another node tag. -/
theorem other_tags_collide_two :
    ∃ d : Distribution, d.size = 2 ∧
      ofRecords {} ([0, 1].map fun i : Int =>
        .transfer (.int i) (.bytes (List.replicate 32 1)) (.bytes (List.replicate 32 2)) (.int 5)) = .ok d ∧
      verifyBytes (secondOf d) d.root {} (.bytes (List.replicate 32 3)) (some d.size) = .ok true ∧
      (verifyBytes (secondOf d) d.root { nodeTag := [1] } (.bytes (List.replicate 32 3)) (some d.size) ≠ .ok true ∨
        ∃ encoded proof, siblings (secondOf d) = .ok proof ∧
          Algorithm.sha256.Collides (d.preimages ++ checkPreimages { nodeTag := [1] } encoded proof 1)) := by
  have hrun : (ofRecords {} ([0, 1].map fun i : Int =>
      .transfer (.int i) (.bytes (List.replicate 32 1)) (.bytes (List.replicate 32 2)) (.int 5))).toOption.map (fun d =>
        (d.size, d.kind.width, (verifyBytes (secondOf d) d.root {} (.bytes (List.replicate 32 3))
          (some d.size)).toOption)) = some (2, 80, some true) := by
    decide +kernel
  obtain ⟨d, hd, hrun⟩ := toOption_map_eq_some.mp hrun
  rw [Prod.mk.injEq, Prod.mk.injEq, toOption_eq_some] at hrun
  obtain ⟨hsize, hwidth, hv⟩ := hrun
  refine ⟨d, hsize, hd, hv, ?_⟩
  have hkind : (secondOf d).integration = Kind.transfer.name := rfl
  refine Or.imp_right ?_
    (other_tags_collide hd rfl (.inr (by decide)) (.inl (Nat.le_of_eq hsize.symm)) hkind hwidth.symm)
  rintro ⟨-, encoded, proof, -, -, hproof, hcol⟩
  exact ⟨encoded, proof, hproof, hcol⟩

end Claim
end Airdrop
