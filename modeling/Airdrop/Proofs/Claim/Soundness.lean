import Airdrop.Proofs.Claim.Record
import Airdrop.Proofs.Distribution.Admission

/-!
# What an accepted claim shows

Without a size, a check accepts paths of any length: paths that start at an inner node, paths that make a leaf out of
nodes, and indices beyond the last leaf, which land on leaves too (`Merkle.landing`). The tags of an unambiguous hasher
rule out the first two. The index that a claim record carries rules out the last one: an index that lands on another
position than itself stands in no record there.

* `Stands` : a payload is the one of a record of a distribution.
* `accepted_stands` : an accepted payload is, whatever its path and whether or not the size is given, or two strings
  collide.
-/

namespace Airdrop.Claim

open Outcome
open Airdrop.Distribution (ofRecords built_of_ofRecords Built)
open Airdrop.Merkle (climbPreimages landing verify_eq_true_iff checkPath_eq_ok_iff)

variable {h : Hasher} {records : List Leaf} {encodings : List Bytes} {d : Distribution} {p : Payload} {program : Value}
  {size : Option Int} {l : Leaf} {encoded : Bytes} {proof : List Bytes}

/-- What is hashed when a claim is checked: its leaf, and the nodes on its path. -/
def checkPreimages (h : Hasher) (encoded : Bytes) (proof : List Bytes) (index : Nat) : List Bytes :=
  h.leafPreimage encoded :: climbPreimages h (h.leaf encoded) proof index

/-- A payload with the byte form `encoded` and the path `proof` is the one of a record of a distribution: it carries
the record's index, path, claimant, target and amount, and its edition if it is of an edition. -/
structure Stands (d : Distribution) (records : List Leaf) (p : Payload) (program : Value) (encoded : Bytes)
    (proof : List Bytes) : Prop where
  index_nonneg : 0 ≤ p.index
  index_lt : p.index < d.size
  path_eq : d.tree.path p.index = .ok proof
  integration_eq : ∃ kind : Kind, p.integration = kind.name ∧ kind.Interchangeable d.kind
  record_eq : ∃ (r : Leaf) (target programKey claimant : Bytes), records[p.index.toNat]? = some r ∧
    r.encode = .ok encoded ∧ Key.parse p.target.toValue "target" = .ok target ∧
    Key.parse program "program_id" = .ok programKey ∧
    resolve p.handle.toValue (Value.ofOption .int p.pin) (.bytes target) (.bytes programKey) = .ok claimant ∧
    Describes (.int p.index) (.bytes claimant) (.bytes target) (.int p.amount) (Value.ofOption .int p.edition) d.kind r

/-- A payload whose byte form is the record's where its index lands stands there: the record carries the index. -/
theorem stands_of_getElem? (hb : Built h records encodings d) (hk : d.kind.isIndexed = true)
    (hl : leaf p program = .ok l) (henc : l.encode = .ok encoded) (h0 : 0 ≤ p.index)
    (hland : encodings[landing d.tree.levels p.index.toNat]? = some encoded)
    (hpath : proof = Merkle.Tree.siblings d.tree.levels (landing d.tree.levels p.index.toNat)) :
    Stands d records p program encoded proof := by
  obtain ⟨target, programKey, claimant, kind, htarget, hprogram, hclaimant, hkind, hdesc⟩ := leaf_eq_ok_iff.mp hl
  obtain ⟨r, hr, hrenc⟩ := hb.admitted.exists_record hland
  have halike : l.Alike r := (Leaf.encodes_of_encode henc).alike (Leaf.encodes_of_encode hrenc)
  have hindex : r.index? = some (.int p.index) := halike.index?_eq.symm.trans hdesc.index?_eq
  have hself : p.index.toNat = landing d.tree.levels p.index.toNat := by
    have hat := hb.admitted.position_eq hk _ r p.index hr hindex
    rw [List.length_nil, Nat.zero_add] at hat
    omega
  obtain ⟨hdesc', hkinds⟩ := hdesc.of_alike halike (hb.admitted.kind_eq r (List.mem_of_getElem? hr))
  have hlt : p.index < d.size := by
    have := hb.tower.landing_lt p.index.toNat
    rw [← hself] at this
    show p.index < ((d.tree.levels.headD []).length : Nat)
    omega
  rw [← hself] at hr hpath
  exact ⟨h0, hlt, Merkle.Tree.path_eq_ok_iff.mpr ⟨h0, hlt, hpath⟩,
    ⟨kind, (integration?_eq_some_iff.mp hkind).2, hkinds⟩,
    r, target, programKey, claimant, hr, hrenc, htarget, hprogram, hclaimant, hdesc'⟩

/-- **An accepted claim is one of the distribution's.** Whatever path a payload carries and whatever size is told, if it
is accepted under the root of a distribution to claimants, then it is the payload of the record at its index, or two
distinct strings hashed in the build and in the check have one digest. -/
theorem accepted_stands (hu : h.Unambiguous [80, 88]) (hd : ofRecords h records = .ok d)
    (hk : d.kind.isIndexed = true) (hv : verifyBytes p d.root h program size = .ok true) :
    ∃ l encoded proof, leaf p program = .ok l ∧ l.encode = .ok encoded ∧ encoded.length ∈ [80, 88] ∧
      siblings p = .ok proof ∧
      (Stands d records p program encoded proof ∨
        h.algorithm.Collides (d.preimages ++ checkPreimages h encoded proof p.index.toNat)) := by
  obtain ⟨encodings, hb⟩ := built_of_ofRecords hd
  obtain ⟨proof, l, encoded, hproof, hl, henc, hv⟩ := verifyBytes_eq_true_iff.mp hv
  rw [verify_eq_true_iff, checkPath_eq_ok_iff] at hv
  obtain ⟨⟨-, -, hwidths, h0, -, -⟩, hclimb⟩ := hv
  have hwidth : encoded.length ∈ [80, 88] := by
    obtain ⟨_, _, _, _, -, -, -, -, hdesc⟩ := leaf_eq_ok_iff.mp hl
    exact hdesc.width_mem henc
  refine ⟨l, encoded, proof, hl, henc, hwidth, hproof, ?_⟩
  have hkind : d.kind.width ∈ [80, 88] := by
    revert hk
    cases d.kind <;> decide
  have hpath := hb.landing_of_climb hu hkind hwidth hwidths hclimb
    (List.subset_append_left d.preimages (checkPreimages h encoded proof p.index.toNat))
    (List.mem_append_right _ List.mem_cons_self)
    (List.Subset.trans (List.subset_cons_self _ _) (List.subset_append_right _ _))
  exact hpath.imp_left fun ⟨hland, hown⟩ => stands_of_getElem? hb hk hl henc h0 hland hown

/-- The second of two wallets, checked without the size. -/
theorem accepted_stands_two :
    ∃ (d : Distribution) (p : Payload), p.index = 1 ∧ d.kind.isIndexed = true ∧
      ofRecords {} ([0, 1].map fun i : Int =>
        .transfer (.int i) (.bytes (List.replicate 32 1)) (.bytes (List.replicate 32 2)) (.int 5)) = .ok d ∧
      verifyBytes p d.root {} (.bytes (List.replicate 32 3)) none = .ok true ∧
      ∃ encoded proof, siblings p = .ok proof ∧ (d.tree.path 1 = .ok proof ∨
        Algorithm.sha256.Collides (d.preimages ++ checkPreimages {} encoded proof 1)) := by
  have hrun : (ofRecords {} ([0, 1].map fun i : Int =>
      .transfer (.int i) (.bytes (List.replicate 32 1)) (.bytes (List.replicate 32 2)) (.int 5))).toOption.map (fun d =>
        (d.kind.isIndexed, (verifyBytes
          { integration := "transfer", handle := Base58.text (List.replicate 32 1), amount := 5, index := 1,
            proof := (Merkle.Tree.siblings d.tree.levels 1).map fun hash => Base58.text hash,
            target := Base58.text (List.replicate 32 2) }
          d.root {} (.bytes (List.replicate 32 3)) none).toOption)) = some (true, some true) := by
    decide +kernel
  obtain ⟨d, hd, hrun⟩ := toOption_map_eq_some.mp hrun
  rw [Prod.mk.injEq, toOption_eq_some] at hrun
  obtain ⟨hk, hv⟩ := hrun
  obtain ⟨l, encoded, proof, -, -, -, hproof, hor⟩ := accepted_stands (by decide) hd hk hv
  exact ⟨d, _, rfl, hk, hd, hv, encoded, proof, hproof, hor.imp_left fun hstands => hstands.path_eq⟩

end Airdrop.Claim
