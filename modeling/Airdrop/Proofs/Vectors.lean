import Airdrop.Proofs.Bytes.Base58
import Airdrop.Proofs.Bytes.Hex
import Airdrop.Proofs.Distribution.Lookup
import Airdrop.Proofs.Json.Pretty
import Airdrop.Vectors

/-!
# What test vectors list

Whoever reads a document of test vectors needs nothing else to check them: it says how it hashes, and every leaf is
listed with all that leads from its bytes to the root.

* `LeafListed`, `TreeListed`, `Listed` : what the fields of a document hold, as a reader finds them.
* `proper_record`, `wellFormed_records`, `firstOffence_records` : the fixed records make a distribution, until the
  amount of one is too wide.
* `Listable`, `Unlistable` : the sizes that have a tree, and what the others are refused for. `exists_tree`,
  `treeListed_of_tree`, `tree_of_unlistable` : one tree.
* `exists_document`, `listed_of_document`, `document_of_unlistable`, `listable_or_first` : all trees of a document.
-/

namespace Airdrop

/-- A value is an object whose fields have a property. -/
def Value.HasFields (v : Value) (P : List (String × Value) → Prop) : Prop := ∃ fs, v = .object fs ∧ P fs

namespace Vectors

open Outcome
open Airdrop.Distribution (Built FirstOffence Proper ProperBelow WellFormed built_of_ofRecords climb_of_verify
  exists_of_wellFormed firstKind? ofRecords ofRecords_of_firstOffence wellFormed_iff)
open Airdrop.Value (lookup)

variable {h : Hasher} {n : Int} {e : Error} {v : Value} {size i : Nat}

/-! ## Listings -/

/-- A field holds a byte string as hexadecimal text. -/
def HexField (fs : Fields) (name : String) (bs : Bytes) : Prop :=
  ∃ s, lookup name fs = some (.text s) ∧ Hex.decode s.toList = .ok bs

def HexFields (fs : Fields) (name : String) (bss : List Bytes) : Prop :=
  ∃ texts : List String, lookup name fs = some (.list (texts.map .text)) ∧
    List.Forall₂ (fun s bs => Hex.decode s.toList = .ok bs) texts bss

/-- Fields list the leaf at a position: the bytes of its record, their hash, and a path from the hash to the root. -/
structure LeafListed (h : Hasher) (root : Bytes) (i : Nat) (fs : Fields) : Prop where
  index : lookup "index" fs = some (.int i)
  checks : ∃ encoded hash path, HexField fs "encoded_hex" encoded ∧ HexField fs "leaf_hash_hex" hash ∧
    HexFields fs "proof_hex" path ∧ (record i).encode = .ok encoded ∧
    h.algorithm.digest (h.leafTag ++ encoded) = hash ∧ Merkle.climb h hash path i = root

/-- Fields list a tree: its size, its root in two forms, and the leaf at every position. -/
structure TreeListed (h : Hasher) (n : Int) (fs : Fields) : Prop where
  size : lookup "size" fs = some (.int n)
  checks : ∃ (root : Bytes) (leaves : List Value), HexField fs "root_hex" root ∧
    (∃ s, lookup "root_b58" fs = some (.text s) ∧ Base58.ofText? s = some root) ∧
    lookup "leaves" fs = some (.list leaves) ∧ leaves.length = n ∧
    ∀ (i : Nat) (leaf : Value), leaves[i]? = some leaf → leaf.HasFields (LeafListed h root i)

/-- Fields list the trees of given sizes, one for each, under the hasher that they describe. -/
structure Listed (h : Hasher) (sizes : List Int) (fs : Fields) : Prop where
  hash : ∃ description, lookup "hash" fs = some description ∧ Hasher.ofDescription description = .ok h
  trees : ∃ trees : List Value, lookup "trees" fs = some (.list trees) ∧
    List.Forall₂ (fun n (tree : Value) => tree.HasFields (TreeListed h n)) sizes trees

theorem hexField_text {fs : Fields} {name : String} {bs : Bytes} (hfs : lookup name fs = some (.text (Hex.text bs))) :
    HexField fs name bs :=
  ⟨_, hfs, by rw [Hex.text, String.toList_ofList, Hex.decode_encode]⟩

theorem hexFields_text {fs : Fields} {name : String} {bss : List Bytes}
    (hfs : lookup name fs = some (.list (bss.map fun bs => .text (Hex.text bs)))) : HexFields fs name bss := by
  refine ⟨bss.map Hex.text, by rw [hfs, List.map_map]; rfl, ?_⟩
  rw [List.forall₂_map_left_iff, List.forall₂_same]
  intro bs _
  rw [Hex.text, String.toList_ofList, Hex.decode_encode]

/-! ## Records -/

def records (size : Nat) : List Leaf := (List.range size).map record

theorem length_records (size : Nat) : (records size).length = size := by
  rw [records, List.length_map, List.length_range]

theorem getElem?_records (hi : i < size) : (records size)[i]? = some (record i) := by
  rw [records, List.getElem?_map, List.getElem?_range hi, Option.map_some]

theorem exists_encode_record (hi : i + 1 < 2 ^ 64) : ∃ bs, (record i).encode = .ok bs := by
  have hwidth (b : UInt8) : (List.replicate 32 b).length = 32 := List.length_replicate
  have hencodes : Leaf.Encodes (record i)
      (Leaf.claimBytes i (List.replicate 32 (UInt8.ofNat i)) (List.replicate 32 0xEE) (i + 1)) :=
    .transfer (by omega) (hwidth _) (hwidth _) (by omega)
  exact ⟨_, hencodes.encode_eq⟩

/-- The amount of the record at the last position of 64 bits does not fit into its field. -/
theorem encode_last_record (hi : i + 1 = 2 ^ 64) :
    (record i).encode = .error (.encoding (.doesNotFit "amount" 64 (2 ^ 64))) := by
  have hindex : Leaf.encodeNat (.int i) 8 "index" = .ok (Bytes.ofNatLE 8 i) :=
    Leaf.encodeNat_eq_ok_iff.mpr ⟨i, rfl, by omega, rfl⟩
  have hkey (b : UInt8) (field : String) :
      Leaf.encodeKey (.bytes (List.replicate 32 b)) field = .ok (List.replicate 32 b) :=
    Leaf.encodeKey_eq_ok_iff.mpr ⟨rfl, List.length_replicate⟩
  have hamount : Leaf.encodeNat (.int (i + 1)) 8 "amount" = .error (.encoding (.doesNotFit "amount" 64 (2 ^ 64))) := by
    have hvalue : (i : Int) + 1 = 2 ^ 64 := by omega
    have hshort : Radix.isLong (2 ^ 64) = false := Radix.isLong_of_lt (k := 65) (by decide) (by decide)
    rw [hvalue, Leaf.encodeNat]
    refine (if_pos (Or.inr (by norm_num))).trans ?_
    rw [Error.raised_doesNotFit, hshort]
    rfl
  rw [record, Leaf.encode, hindex, hkey, hkey, hamount]
  rfl

theorem firstKind?_records (h0 : 0 < size) : firstKind? (records size) = some .transfer := by
  rw [firstKind?, List.head?_eq_getElem?, getElem?_records h0]
  rfl

theorem proper_record (hi : i < size) (hfit : i + 1 < 2 ^ 64) : Proper (records size) i (record i) := by
  refine ⟨exists_encode_record hfit, (firstKind?_records (by omega)).symm, fun v hv => ?_, fun j hj hsame => ?_⟩
  · exact (Option.some.inj hv).symm
  · -- Two records are told apart by the positions that they carry.
    rw [getElem?_records (by omega)] at hsame
    have hindex : some (Value.int j) = some (Value.int i) := congrArg (·.bind Leaf.index?) hsame
    have hpos : (j : Int) = i := Value.int.inj (Option.some.inj hindex)
    omega

theorem properBelow_records {bound : Nat} (hbound : bound < 2 ^ 64) : ProperBelow (records size) bound := by
  intro i hi r hr
  have hlt : i < size := length_records size ▸ (List.getElem?_eq_some_iff.mp hr).1
  rw [getElem?_records hlt] at hr
  obtain rfl := Option.some.inj hr
  exact proper_record hlt (by omega)

theorem wellFormed_records (h0 : 0 < size) (hfit : size < 2 ^ 64) : WellFormed (records size) := by
  rw [wellFormed_iff, length_records]
  refine ⟨List.ne_nil_of_length_pos ?_, properBelow_records hfit⟩
  rwa [length_records]

theorem firstOffence_records (hwide : 2 ^ 64 ≤ size) :
    FirstOffence (records size) (2 ^ 64 - 1) (.encoding (.doesNotFit "amount" 64 (2 ^ 64))) := by
  constructor
  · exact .encoding (getElem?_records (by omega)) (encode_last_record (by omega))
  · intro j hj e
    exact (properBelow_records (by omega)).no_offence hj

/-! ## Trees -/

/-- The sizes of trees of these records. -/
def Listable (n : Int) : Prop := 0 < n ∧ n < 2 ^ 64

/-- What a size is refused for: there is no record, or an amount does not fit into its field. -/
inductive Unlistable : Int → Error → Prop
  | empty {n : Int} (hn : n ≤ 0) : Unlistable n .noRecords
  | wide {n : Int} (hn : 2 ^ 64 ≤ n) : Unlistable n (.encoding (.doesNotFit "amount" 64 (2 ^ 64)))

theorem listable_or_unlistable (n : Int) : Listable n ∨ ∃ e, Unlistable n e := by
  by_cases h0 : 0 < n
  · by_cases hfit : n < 2 ^ 64
    · exact .inl ⟨h0, hfit⟩
    · exact .inr ⟨_, .wide (by omega)⟩
  · exact .inr ⟨_, .empty (by omega)⟩

theorem Unlistable.not_listable (hn : Unlistable n e) : ¬Listable n := by
  intro hlistable
  obtain ⟨h0, hfit⟩ := hlistable
  cases hn with
  | empty hn => omega
  | wide hn => omega

theorem tree_of_unlistable (hn : Unlistable n e) : tree h n = .error e := by
  have hrecords : ofRecords h (records n.toNat) = .error e := by
    cases hn with
    | empty hn =>
      rw [Int.toNat_of_nonpos hn]
      rfl
    | wide hn => exact ofRecords_of_firstOffence h (firstOffence_records (by omega))
  rw [tree]
  show (ofRecords h (records n.toNat) >>= _) = _
  rw [hrecords]
  rfl

def leafFields (entry : Entry) (encoded : Bytes) : Fields :=
  [("index", .int entry.index), ("encoded_hex", .text (Hex.text encoded)),
    ("leaf_hash_hex", .text (Hex.text entry.leafHash)),
    ("proof_hex", .list (entry.proof.map fun p => .text (Hex.text p)))]

def treeFields (n : Int) (root : Bytes) (leaves : List Value) : Fields :=
  [("size", .int n), ("root_hex", .text (Hex.text root)), ("root_b58", .text (Base58.text root)),
    ("leaves", .list leaves)]

theorem entryValue_eq_ok {entry : Entry} : entryValue entry = .ok v ↔
    ∃ encoded, entry.record.encode = .ok encoded ∧ v = .object (leafFields entry encoded) := by
  rw [entryValue, bind_pure_eq_ok]
  simp only [leafFields]

theorem tree_eq_ok : tree h n = .ok v ↔ ∃ d leaves, ofRecords h (records n.toNat) = .ok d ∧
    d.entries.mapM entryValue = .ok leaves ∧ v = .object (treeFields n d.root leaves) := by
  rw [tree, bind_eq_ok]
  simp only [bind_pure_eq_ok, exists_and_left, records, treeFields]

theorem Listable.isLong (hn : Listable n) : Radix.isLong n = false := by
  obtain ⟨h0, hfit⟩ := hn
  exact Radix.isLong_of_lt (k := 64) (by omega) (by decide)

theorem plain_leafFields {entry : Entry} (hindex : Radix.isLong entry.index = false) (encoded : Bytes) :
    (Value.object (leafFields entry encoded)).Plain 2 := by
  have hproof : (Value.list (entry.proof.map fun p => .text (Hex.text p))).Plain 1 := by
    refine .list fun v hv => ?_
    obtain ⟨p, -, rfl⟩ := List.mem_map.mp hv
    exact .text _
  refine .object (by decide : ["index", "encoded_hex", "leaf_hash_hex", "proof_hex"].Nodup) ?_
  simp only [leafFields, List.forall_mem_cons]
  exact ⟨.int hindex, .text _, .text _, hproof, fun _ hno => nomatch hno⟩

/-- No position in a tree is as great as its size. -/
theorem isLong_index (hn : Listable n) {d : Distribution} (hd : ofRecords h (records n.toNat) = .ok d) {entry : Entry}
    (hmem : entry ∈ d.entries) : Radix.isLong entry.index = false := by
  obtain ⟨all, hb⟩ := built_of_ofRecords hd
  obtain ⟨i, hentry⟩ := List.getElem?_of_mem hmem
  have hi : i < n.toNat := by
    rw [← length_records n.toNat, ← hb.length_entries]
    exact (List.getElem?_eq_some_iff.mp hentry).1
  obtain ⟨_, hown, hindex, -⟩ := hb.entry_eq (getElem?_records hi)
  obtain rfl := Option.some.inj (hentry.symm.trans hown)
  obtain ⟨-, hfit⟩ := hn
  exact Radix.isLong_of_lt (k := 64) (by omega) (by decide)

theorem plain_of_tree (hn : Listable n) (ht : tree h n = .ok v) : v.Plain 4 := by
  obtain ⟨d, leaves, hd, hleaves, rfl⟩ := tree_eq_ok.mp ht
  have hplain : (Value.list leaves).Plain 3 := by
    refine .list fun v hv => ?_
    obtain ⟨entry, hmem, hentry⟩ := exists_of_forall₂ (mapM_eq_ok_iff.mp hleaves) v hv
    obtain ⟨encoded, -, rfl⟩ := entryValue_eq_ok.mp hentry
    exact plain_leafFields (isLong_index hn hd hmem) encoded
  refine .object (by decide : ["size", "root_hex", "root_b58", "leaves"].Nodup) ?_
  simp only [treeFields, List.forall_mem_cons]
  exact ⟨.int hn.isLong, .text _, .text _, hplain, fun _ hno => nomatch hno⟩

/-- Every leaf of a tree is listed so that it checks under the root. -/
theorem leafListed_of_entry {d : Distribution} {all : List Bytes} (hb : Built h (records size) all d) {entry : Entry}
    {encoded : Bytes} (hentry : d.entries[i]? = some entry) (he : entry.record.encode = .ok encoded) :
    LeafListed h d.root i (leafFields entry encoded) := by
  have hi : i < size := by
    rw [← length_records size, ← hb.length_entries]
    exact (List.getElem?_eq_some_iff.mp hentry).1
  obtain ⟨_, hown, hindex, hrecord, hhash, -, hverify⟩ := hb.entry_eq (getElem?_records hi)
  obtain rfl := Option.some.inj (hentry.symm.trans hown)
  rw [hrecord] at he
  rw [he] at hhash
  have hclimb := climb_of_verify hentry hverify
  rw [hb.hasher_eq, hindex] at hclimb
  refine ⟨congrArg (fun n : Nat => some (Value.int n)) hindex, encoded, entry.leafHash, entry.proof, hexField_text rfl,
    hexField_text rfl, hexFields_text rfl, he, Except.ok.inj hhash, hclimb⟩

theorem exists_tree (hn : Listable n) : ∃ v, tree h n = .ok v := by
  obtain ⟨h0, hfit⟩ := hn
  obtain ⟨d, hd⟩ : ∃ d, ofRecords h (records n.toNat) = .ok d :=
    exists_of_wellFormed h (wellFormed_records (by omega) (by omega))
  obtain ⟨all, hb⟩ := built_of_ofRecords hd
  have hentries : ∃ leaves, d.entries.mapM entryValue = .ok leaves := by
    apply exists_mapM
    intro entry hmem
    obtain ⟨i, hentry⟩ := List.getElem?_of_mem hmem
    obtain ⟨r, bs, hr, hbs, rfl⟩ := hb.of_getElem?_entries hentry
    exact ⟨_, entryValue_eq_ok.mpr ⟨bs, hb.admitted.encode_of_getElem? hr hbs, rfl⟩⟩
  obtain ⟨leaves, hleaves⟩ := hentries
  exact ⟨_, tree_eq_ok.mpr ⟨d, leaves, hd, hleaves, rfl⟩⟩

theorem treeListed_of_tree (hn : Listable n) (ht : tree h n = .ok v) : v.HasFields (TreeListed h n) := by
  obtain ⟨d, leaves, hd, hleaves, rfl⟩ := tree_eq_ok.mp ht
  obtain ⟨all, hb⟩ := built_of_ofRecords hd
  have hmatch := mapM_eq_ok_iff.mp hleaves
  have hlength : leaves.length = n.toNat := by
    rw [← hmatch.length_eq, hb.length_entries, length_records]
  refine ⟨_, rfl, rfl, d.root, leaves, hexField_text rfl, ⟨_, rfl, Base58.ofText?_text d.root⟩, rfl, ?_, ?_⟩
  · rw [hlength, Int.toNat_of_nonneg hn.1.le]
  · intro i leaf hleaf
    obtain ⟨entry, hentry, hvalue⟩ := getElem?_of_forall₂ hmatch hleaf
    obtain ⟨encoded, he, rfl⟩ := entryValue_eq_ok.mp hvalue
    exact ⟨_, rfl, leafListed_of_entry hb hentry he⟩

/-! ## Documents -/

variable {sizes : List Int}

theorem document_eq_ok : document h sizes = .ok v ↔ ∃ trees, sizes.mapM (tree h) = .ok trees ∧
    v = .object [("hash", .object (h.describe.map fun (name, value) => (name, .text value))),
      ("trees", .list trees)] := by
  rw [document, bind_pure_eq_ok]

theorem plain_of_document (hsizes : ∀ n ∈ sizes, Listable n) (hv : document h sizes = .ok v) : v.Plain 6 := by
  obtain ⟨trees, htrees, rfl⟩ := document_eq_ok.mp hv
  have hhash : (Value.object (h.describe.map fun (name, value) => (name, .text value))).Plain 5 := by
    refine .object (by decide : ["algorithm", "leaf_prefix_hex", "node_prefix_hex"].Nodup) fun f hf => ?_
    obtain ⟨⟨name, s⟩, -, rfl⟩ := List.mem_map.mp hf
    exact .text s
  have hplain : (Value.list trees).Plain 5 := by
    refine .list fun v hv => ?_
    obtain ⟨n, hn, ht⟩ := exists_of_forall₂ (mapM_eq_ok_iff.mp htrees) v hv
    exact plain_of_tree (hsizes n hn) ht
  refine .object (by decide : ["hash", "trees"].Nodup) ?_
  simp only [List.forall_mem_cons]
  exact ⟨hhash, hplain, fun _ hno => nomatch hno⟩

theorem exists_document (hsizes : ∀ n ∈ sizes, Listable n) : ∃ v, document h sizes = .ok v := by
  obtain ⟨trees, htrees⟩ : ∃ trees, sizes.mapM (tree h) = .ok trees := exists_mapM fun n hn => exists_tree (hsizes n hn)
  exact ⟨_, document_eq_ok.mpr ⟨trees, htrees, rfl⟩⟩

theorem listed_of_document (hsizes : ∀ n ∈ sizes, Listable n) (hv : document h sizes = .ok v) :
    v.HasFields (Listed h sizes) := by
  obtain ⟨trees, htrees, rfl⟩ := document_eq_ok.mp hv
  refine ⟨_, rfl, ⟨_, rfl, Hasher.ofDescription_describe h⟩, trees, rfl, ?_⟩
  have hmatch := (List.forall₂_and_left sizes trees).mpr ⟨hsizes, mapM_eq_ok_iff.mp htrees⟩
  exact hmatch.imp fun n tree ⟨hn, ht⟩ => treeListed_of_tree hn ht

/-- The first size that has no tree is what a document is refused for. -/
theorem document_of_unlistable {before after : List Int} (hbefore : ∀ m ∈ before, Listable m) (hn : Unlistable n e) :
    document h (before ++ n :: after) = .error e := by
  have htrees : (before ++ n :: after).mapM (tree h) = .error e :=
    mapM_eq_error_iff.mpr ⟨before, n, after, rfl, fun m hm => exists_tree (hbefore m hm), tree_of_unlistable hn⟩
  rw [document, htrees]
  rfl

theorem listable_or_first : ∀ sizes : List Int, (∀ n ∈ sizes, Listable n) ∨
    ∃ before n after e, sizes = before ++ n :: after ∧ (∀ m ∈ before, Listable m) ∧ Unlistable n e
  | [] => .inl fun _ hno => nomatch hno
  | n :: sizes => by
    rcases listable_or_unlistable n with hn | ⟨e, hn⟩
    · rcases listable_or_first sizes with hall | ⟨before, m, after, e, rfl, hbefore, hm⟩
      · exact .inl (List.forall_mem_cons.mpr ⟨hn, hall⟩)
      · exact .inr ⟨n :: before, m, after, e, rfl, List.forall_mem_cons.mpr ⟨hn, hbefore⟩, hm⟩
    · exact .inr ⟨[], n, sizes, e, rfl, fun _ hno => (nomatch hno), hn⟩

end Vectors
end Airdrop
