import Airdrop.Distribution
import Airdrop.Proofs.Leaf.Layout
import Airdrop.Proofs.Merkle.Inclusion

/-!
# Which records a distribution admits

* `accept_eq_ok_iff` : when a record may follow others.
* `Admitted kind earlier records encoded` : all records of a list may follow, one after the other, and `encoded` are
  their byte forms. `admitted_of_acceptAll` : an accepted list is admitted.
* `preimages` : everything that is hashed while a distribution is built.
* `Built h records encoded d` : what the distribution of admitted records is, tree and entries. `built_of_ofRecords` :
  every distribution is one of admitted records.
* `Built.landing_of_climb` : what climbs to the root of a distribution is the record where the index lands.
-/

namespace Airdrop.Distribution

open Outcome
open Airdrop.Merkle (climb climbPreimages landing)
open Airdrop.Merkle.Tree (siblings)

variable {kind : Kind} {earlier encoded : List Bytes} {records : List Leaf}

/-! ## One record -/

theorem checkPosition_eq_ok_iff {position : Nat} {record : Leaf} :
    checkPosition kind position record = .ok () ↔
      (kind.isIndexed = true → ∀ n, record.index? = some (.int n) → n = position) := by
  unfold checkPosition
  split
  · next n hk hn =>
    rw [hk, hn]
    split <;> simp_all
  · next hne =>
    refine iff_of_true rfl fun hk n hn => ?_
    exact absurd hn (hne n hk)

theorem fresh_eq_ok_iff {e bs : Bytes} :
    (match earlier.findIdx? (· == e) with
      | some first => .error (.duplicate earlier.length first)
      | none => pure e : Except Error Bytes) = .ok bs ↔ e = bs ∧ bs ∉ earlier := by
  cases hk : earlier.findIdx? (· == e) with
  | some first =>
    obtain ⟨x, hx, rfl⟩ : ∃ x ∈ earlier, x = e := by
      have hfirst : (earlier.findIdx? (· == e)).isSome = earlier.any (· == e) := List.findIdx?_isSome
      rw [hk] at hfirst
      simpa using hfirst.symm
    exact ⟨fun hno => (nomatch hno), fun h => absurd (h.1 ▸ hx) h.2⟩
  | none =>
    have hnot : e ∉ earlier := fun he => by simpa using List.findIdx?_eq_none_iff.mp hk e he
    constructor
    · rintro ⟨⟩
      exact ⟨rfl, hnot⟩
    · rintro ⟨rfl, -⟩
      rfl

theorem accept_eq_ok_iff {record : Leaf} {bs : Bytes} :
    accept kind earlier record = .ok bs ↔
      record.encode = .ok bs ∧ record.kind = .ok kind ∧ checkPosition kind earlier.length record = .ok () ∧
        bs ∉ earlier := by
  unfold accept
  simp only [bind_eq_ok, error_bind, ite_error_eq_ok, not_ne_iff]
  constructor
  · rintro ⟨e, he, own, hown, rfl, ⟨⟩, hpos, hmatch⟩
    obtain ⟨rfl, hnot⟩ := fresh_eq_ok_iff.mp hmatch
    exact ⟨he, hown, hpos, hnot⟩
  · rintro ⟨he, hown, hpos, hnot⟩
    exact ⟨bs, he, kind, hown, rfl, (), hpos, fresh_eq_ok_iff.mpr ⟨rfl, hnot⟩⟩

/-! ## All records -/

/-- Records that may follow those with the byte forms `earlier`, and their own byte forms. -/
structure Admitted (kind : Kind) (earlier : List Bytes) (records : List Leaf) (encoded : List Bytes) : Prop where
  encode_eq : records.map Leaf.encode = encoded.map .ok
  kind_eq : ∀ r ∈ records, r.kind = .ok kind
  position_eq : kind.isIndexed = true → ∀ (i : Nat) (r : Leaf) (n : Int), records[i]? = some r →
    r.index? = some (.int n) → n = (earlier.length + i : Nat)
  nodup : earlier.Nodup → (earlier ++ encoded).Nodup

theorem admitted_of_acceptAll : ∀ (records : List Leaf) (earlier all : List Bytes),
    acceptAll kind earlier records = .ok all →
      ∃ encoded, all = earlier ++ encoded ∧ Admitted kind earlier records encoded
  | [], earlier, all, h => by
    obtain rfl := Except.ok.inj h
    exact ⟨[], (List.append_nil _).symm, rfl, fun r hr => absurd hr List.not_mem_nil,
      fun _ i r n hr => (nomatch hr), fun hn => by rwa [List.append_nil]⟩
  | record :: rest, earlier, all, h => by
    rw [acceptAll, bind_eq_ok] at h
    obtain ⟨bs, hbs, h⟩ := h
    obtain ⟨he, hk, hpos, hnot⟩ := accept_eq_ok_iff.mp hbs
    obtain ⟨encoded, rfl, hrest⟩ := admitted_of_acceptAll rest (earlier ++ [bs]) all h
    refine ⟨bs :: encoded, by rw [List.append_assoc, List.singleton_append], ?_, ?_, ?_, ?_⟩
    · rw [List.map_cons, List.map_cons, he, hrest.encode_eq]
    · intro r hr
      rcases List.mem_cons.mp hr with rfl | hr
      · exact hk
      · exact hrest.kind_eq r hr
    · intro hi i r n hr hn
      cases i with
      | zero =>
        obtain rfl := Option.some.inj hr
        exact checkPosition_eq_ok_iff.mp hpos hi n hn
      | succ i =>
        have := hrest.position_eq hi i r n hr hn
        rw [List.length_append, List.length_singleton] at this
        omega
    · intro hn
      have hstep : (earlier ++ [bs]).Nodup := by
        rw [List.nodup_append]
        exact ⟨hn, List.nodup_singleton bs, fun x hx y hy hxy => hnot (List.mem_singleton.mp hy ▸ hxy ▸ hx)⟩
      have hall := hrest.nodup hstep
      rwa [List.append_assoc, List.singleton_append] at hall

namespace Admitted

theorem length_eq (ha : Admitted kind earlier records encoded) : encoded.length = records.length := by
  simpa using (congrArg List.length ha.encode_eq).symm

theorem encode_of_getElem? (ha : Admitted kind earlier records encoded) {i : Nat} {r : Leaf} {bs : Bytes}
    (hr : records[i]? = some r) (hbs : encoded[i]? = some bs) : r.encode = .ok bs := by
  have hget := congrArg (·[i]?) ha.encode_eq
  simpa [hr, hbs] using hget

theorem exists_record (ha : Admitted kind earlier records encoded) {i : Nat} {bs : Bytes}
    (hbs : encoded[i]? = some bs) : ∃ r, records[i]? = some r ∧ r.encode = .ok bs := by
  obtain ⟨hi, -⟩ := List.getElem?_eq_some_iff.mp hbs
  rw [ha.length_eq] at hi
  exact ⟨_, List.getElem?_eq_getElem hi, ha.encode_of_getElem? (List.getElem?_eq_getElem hi) hbs⟩

/-- The byte forms are as wide as the kind prescribes. -/
theorem length_of_mem (ha : Admitted kind earlier records encoded) {bs : Bytes} (hbs : bs ∈ encoded) :
    bs.length = kind.width := by
  obtain ⟨i, hi⟩ := List.getElem?_of_mem hbs
  obtain ⟨r, hr, he⟩ := ha.exists_record hi
  exact (Leaf.encodes_of_encode he).length_eq (ha.kind_eq r (List.mem_of_getElem? hr))

end Admitted

/-! ## The distribution -/

def leafPreimages (d : Distribution) : List Bytes :=
  d.entries.filterMap fun e => (e.record.encode.toOption).map d.hasher.leafPreimage

/-- Everything that was hashed while a distribution was built. -/
def preimages (d : Distribution) : List Bytes := d.leafPreimages ++ d.tree.preimages

/-- A distribution of records whose byte forms are `encoded`. -/
structure Built (h : Hasher) (records : List Leaf) (encoded : List Bytes) (d : Distribution) : Prop where
  admitted : Admitted d.kind [] records encoded
  hasher_eq : d.hasher = h
  leaves_eq : d.tree.levels.headD [] = encoded.map h.leaf
  tower : Merkle.Tower h d.tree.levels d.root
  entries_eq : d.entries = entriesOf d.tree records (encoded.map h.leaf)

theorem built_of_ofRecords {h : Hasher} {d : Distribution} (hd : ofRecords h records = .ok d) :
    ∃ encoded, Built h records encoded d := by
  unfold ofRecords at hd
  cases records with
  | nil => exact nomatch hd
  | cons first rest =>
    simp only [bind_eq_ok] at hd
    obtain ⟨kind, -, all, hall, tree, htree, hd⟩ := hd
    obtain ⟨encoded, hencoded, hadm⟩ := admitted_of_acceptAll (first :: rest) [] all hall
    obtain rfl := Except.ok.inj hd
    rw [List.nil_append] at hencoded
    subst hencoded
    obtain ⟨hhasher, hleaves, htower⟩ := Merkle.Tree.tower_of_build htree
    exact ⟨all, hadm, hhasher, hleaves, htower, rfl⟩

theorem getElem?_entriesOf (t : Merkle.Tree) (records : List Leaf) (hashes : List Bytes) (i : Nat) :
    (entriesOf t records hashes)[i]? =
      (records[i]?).bind fun r => (hashes[i]?).map fun leafHash => entry t r leafHash i := by
  unfold entriesOf
  rw [List.getElem?_map, List.getElem?_zipIdx, List.zip, List.getElem?_zipWith]
  cases records[i]? <;> cases hashes[i]? <;> simp

namespace Built

variable {h : Hasher} {d : Distribution}

theorem length_leaves (hb : Built h records encoded d) : (d.tree.levels.headD []).length = encoded.length := by
  rw [hb.leaves_eq, List.length_map]

theorem nodup (hb : Built h records encoded d) : encoded.Nodup := hb.admitted.nodup List.nodup_nil

theorem getElem?_entries (hb : Built h records encoded d) {i : Nat} {r : Leaf} {bs : Bytes} (hr : records[i]? = some r)
    (hbs : encoded[i]? = some bs) : d.entries[i]? = some (entry d.tree r (h.leaf bs) i) := by
  rw [hb.entries_eq, getElem?_entriesOf, hr, List.getElem?_map, hbs]
  rfl

theorem length_entries (hb : Built h records encoded d) : d.entries.length = records.length := by
  rw [hb.entries_eq]
  simp [entriesOf, hb.admitted.length_eq]

theorem of_getElem?_entries (hb : Built h records encoded d) {i : Nat} {e : Entry} (he : d.entries[i]? = some e) :
    ∃ r bs, records[i]? = some r ∧ encoded[i]? = some bs ∧ e = entry d.tree r (h.leaf bs) i := by
  rw [hb.entries_eq, getElem?_entriesOf, List.getElem?_map] at he
  cases hr : records[i]? with
  | none => simp [hr] at he
  | some r =>
    cases hbs : encoded[i]? with
    | none => simp [hbs] at he
    | some bs =>
      rw [hr, hbs] at he
      exact ⟨r, bs, rfl, rfl, (Option.some.inj he).symm⟩

theorem size_eq (hb : Built h records encoded d) : d.size = records.length :=
  hb.length_leaves.trans hb.admitted.length_eq

theorem leafPreimage_mem (hb : Built h records encoded d) {bs : Bytes} (hbs : bs ∈ encoded) :
    h.leafPreimage bs ∈ d.preimages := by
  obtain ⟨i, hi⟩ := List.getElem?_of_mem hbs
  obtain ⟨r, hr, he⟩ := hb.admitted.exists_record hi
  refine List.mem_append_left _ (List.mem_filterMap.mpr ⟨_, List.mem_of_getElem? (hb.getElem?_entries hr hi), ?_⟩)
  rw [hb.hasher_eq, entry, he]
  rfl

theorem preimagesOf_subset (hb : Built h records encoded d) : Merkle.preimagesOf h d.tree.levels ⊆ d.preimages := by
  have hh : d.tree.hasher = h := hb.hasher_eq
  rw [preimages, Merkle.Tree.preimages, hh]
  exact List.subset_append_right _ _

/-- A leaf that climbs to the root along any path is the record where the index lands, along the record's own path, or
two of the hashed strings collide. -/
theorem landing_of_climb (hb : Built h records encoded d) {widths : List Nat} {strings proof : List Bytes} {e : Bytes}
    {i : Nat} (hu : h.Unambiguous widths) (hkind : d.kind.width ∈ widths) (he : e.length ∈ widths)
    (hproof : ∀ s ∈ proof, s.length = 32) (hclimb : climb h (h.leaf e) proof i = d.root)
    (hbuild : d.preimages ⊆ strings) (hleaf : h.leafPreimage e ∈ strings)
    (hpath : climbPreimages h (h.leaf e) proof i ⊆ strings) :
    encoded[landing d.tree.levels i]? = some e ∧ proof = siblings d.tree.levels (landing d.tree.levels i) ∨
      h.algorithm.Collides strings := by
  have hnodes := List.Subset.trans hb.preimagesOf_subset hbuild
  rcases hb.tower.climb_cases (Hasher.length_leaf h e) hproof hclimb with
    ⟨-, hland, hown⟩ | hnode | ⟨leaf, hmem, hnode⟩ | hcol
  · have hlt : landing d.tree.levels i < encoded.length := hb.length_leaves ▸ hb.tower.landing_lt i
    rw [hb.leaves_eq, List.getD_eq_getElem _ _ (by simpa using hlt), List.getElem_map] at hland
    have hyours := hbuild (hb.leafPreimage_mem (List.getElem_mem hlt))
    refine (Hasher.eq_or_collides_of_leaf_eq hleaf hyours hland).imp_left fun heq => ⟨?_, hown⟩
    rw [heq, List.getElem?_eq_getElem hlt]
  · exact Or.inr ((hnode.mono hnodes).collides hu he hleaf)
  · rw [hb.leaves_eq] at hmem
    obtain ⟨e', he', rfl⟩ := List.mem_map.mp hmem
    have hwidth : e'.length ∈ widths := hb.admitted.length_of_mem he' ▸ hkind
    exact Or.inr ((hnode.mono hpath).collides hu hwidth (hbuild (hb.leafPreimage_mem he')))
  · exact Or.inr (hcol.mono (List.append_subset.mpr ⟨hnodes, hpath⟩))

end Built
end Airdrop.Distribution
