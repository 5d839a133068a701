import Airdrop.Proofs.Claim.Issue
import Airdrop.Proofs.Distribution.Document

/-!
# Issuing a distribution again from its own claims

The claims of a document are rows with all PINs and a link. Links count for nothing, and no PIN is drawn for a row that
has one, so the rows of the claims lead to the same records and to the same document.

* `Claimant.unlinked` : a row without its link. `Prepares.again` : rows that differ in links only, with their PINs.
* `Documents h distributor host prepared d document` : from prepared rows to a document. `Documents.again`.
* `Stands h program d row fs` : what the claim of a row is worth. `Documents.stands` : every claim of a document stands.
-/

namespace Airdrop

open Outcome

/-- The row without its link. -/
def Claimant.unlinked (c : Claimant) : Claimant := { c with url := none }

namespace Claim

variable {σ σ' : Type} {draw : StateM σ Int} {draw' : StateM σ' Int} {u : σ'} {integration : String}
  {target program : Bytes} {viaWallets : Bool} {index : Nat} {rows : List Claimant} {s s' : σ}
  {prepared : List (Claimant × Leaf)}

theorem recordOf_unlinked (row : Claimant) :
    recordOf integration target program index row.unlinked = recordOf integration target program index row := rfl

/-- No PIN is drawn for a row that has got its PIN. -/
theorem pinOf_again {own : Claimant} {pin : Option Int} {t : σ} (h : (pinOf draw viaWallets own).run s = (pin, t))
    {row : Claimant} (hrow : row.pin = pin) : (pinOf draw' viaWallets row).run u = (pin, u) := by
  unfold pinOf at h ⊢
  cases viaWallets with
  | true =>
    obtain ⟨rfl, -⟩ := Prod.mk.inj h
    rfl
  | false =>
    cases hown : own.pin with
    | some n =>
      rw [hown] at h
      obtain ⟨rfl, -⟩ := Prod.mk.inj h
      rw [hrow]
      rfl
    | none =>
      rw [hown] at h
      obtain ⟨rfl, -⟩ := Prod.mk.inj h
      rw [hrow]
      rfl

/-- Prepared rows that differ from the given ones in links only lead to the same records, whatever the source of PINs
is. -/
theorem Prepares.again (h : Prepares draw integration target program viaWallets index rows s prepared s') :
    ∀ rows' : List Claimant, rows'.map Claimant.unlinked = prepared.map (·.1.unlinked) →
      Prepares draw' integration target program viaWallets index rows' u (rows'.zip (prepared.map (·.2))) u := by
  induction h with
  | nil =>
    intro rows' hrows
    obtain rfl := List.map_eq_nil_iff.mp hrows
    exact .nil
  | @cons index own rows s t s' pin l more hpin hrecord hmore ih =>
    intro rows' hrows
    obtain ⟨row, rest, rfl, hrow, hrest⟩ := List.map_eq_cons_iff.mp hrows
    have hown : row.pin = pin := congrArg Claimant.pin hrow
    have hkeep : { row with pin } = row := by rw [← hown]
    have hrecord' : recordOf integration target program index { row with pin } = .ok l := by
      rw [hkeep, ← recordOf_unlinked, hrow]
      exact hrecord
    have hcons := Prepares.cons (pinOf_again hpin hown) hrecord' (ih rest hrest)
    rwa [hkeep] at hcons

end Claim

namespace Distribution

open Airdrop.Claim

theorem issue_unlinked {d : Distribution} {distributor : Option RawText} (rows : List Claimant) :
    d.issue (rows.map Claimant.unlinked) distributor = d.issue rows distributor := by
  unfold issue
  rw [List.length_map, List.zip_map_right, List.mapM_map]
  rfl

/-- From prepared rows to a document. -/
structure Documents (h : Hasher) (distributor : Option RawText) (host : Option String)
    (prepared : List (Claimant × Leaf)) (d : Distribution) (document : Document) : Prop where
  records : ofRecords h (prepared.map (·.2)) = .ok d
  issued : ∃ payloads, d.issue (prepared.map (·.1)) distributor = .ok payloads ∧
    Document.ofDistribution d payloads host = .ok document

variable {h : Hasher} {distributor : Option RawText} {host : Option String} {prepared : List (Claimant × Leaf)}
  {d : Distribution} {document : Document}

namespace Documents

theorem root_eq (hd : Documents h distributor host prepared d document) : document.root = Base58.text d.root := by
  obtain ⟨payloads, -, hdocument⟩ := hd.issued
  obtain ⟨claims, -, rfl⟩ := Document.ofDistribution_eq_ok.mp hdocument
  rfl

theorem treeSize_eq (hd : Documents h distributor host prepared d document) : document.treeSize = d.size := by
  obtain ⟨payloads, -, hdocument⟩ := hd.issued
  obtain ⟨claims, -, rfl⟩ := Document.ofDistribution_eq_ok.mp hdocument
  rfl

theorem hasher_eq (hd : Documents h distributor host prepared d document) : document.hasher = .ok h := by
  obtain ⟨payloads, -, hdocument⟩ := hd.issued
  obtain ⟨encodings, hb⟩ := built_of_ofRecords hd.records
  rw [Document.hasher_ofDistribution hdocument, hb.hasher_eq]

theorem nodup_hashing (hd : Documents h distributor host prepared d document) : (document.hashing.map (·.1)).Nodup := by
  obtain ⟨payloads, -, hdocument⟩ := hd.issued
  exact Document.nodup_hashing_ofDistribution hdocument

theorem again (hd : Documents h distributor host prepared d document) {rows : List Claimant}
    (hrows : rows.map Claimant.unlinked = prepared.map (·.1.unlinked)) :
    Documents h distributor host (rows.zip (prepared.map (·.2))) d document := by
  have hlength : rows.length = (prepared.map (·.2)).length := by simpa using congrArg List.length hrows
  obtain ⟨payloads, hissue, hdocument⟩ := hd.issued
  refine ⟨?_, payloads, ?_, hdocument⟩
  · rw [show (rows.zip (prepared.map (·.2))).map (·.2) = _ from List.map_snd_zip hlength.ge]
    exact hd.records
  · rw [show (rows.zip (prepared.map (·.2))).map (·.1) = _ from List.map_fst_zip hlength.le, ← issue_unlinked rows,
      hrows, ← hissue, ← issue_unlinked (prepared.map (·.1)), List.map_map]
    rfl

end Documents

/-- What the claim of a row is worth: it is accepted, shows its path, is read as the row, and what is written of it is
read back. -/
structure Stands (h : Hasher) (program : Value) (d : Distribution) (row : Claimant) (fs : Fields) : Prop where
  accepted : ∃ p, Payload.ofClaim fs = .ok p ∧ ∀ size : Option Int, size = none ∨ size = some (d.size : Int) →
    Claim.verify p (Base58.text d.root) h program size = .ok true
  proof : ∃ v, Value.lookup "proof" fs = some v
  row : ∃ url, Claimant.form.read fs = .ok { row with url }
  plain : (Value.object fs).isWritable = true → (Value.object fs).Plain 2

section
variable {σ : Type} {draw : StateM σ Int} {s s' : σ} {integration : String} {program : Value}
  {targetKey programKey : Bytes} {viaWallets : Bool} {rows : List Claimant}

theorem stands_of_claimOf {records : List Leaf} {encodings : List Bytes} (hb : Built h records encodings d) {i : Nat}
    {row : Claimant} {l : Leaf} {encoded : Bytes} {fs : Fields} (hl : records[i]? = some l)
    (hencoded : encodings[i]? = some encoded) (hrecord : recordOf integration targetKey programKey i row = .ok l)
    (htarget : targetKey.length = 32) (hprogram : Key.parse program "program_id" = .ok programKey) (hrow : row.Valid)
    (hdistributor : ∀ s, distributor = some s → s.isWhole = true)
    (hclaim : Document.ClaimOf (issuedTo d.kind distributor targetKey (entry d.tree l (h.leaf encoded) i) row) fs) :
    Stands h program d row fs := by
  have hvalid : (issuedTo d.kind distributor targetKey (entry d.tree l (h.leaf encoded) i) row).Valid :=
    valid_issuedTo hb hl hrecord hrow.amount hrow.edition
  refine ⟨⟨_, hclaim.ofClaim hvalid, fun size hsize => ?_⟩, ⟨_, hclaim.lookup_proof⟩,
    hclaim.read_claimant hrow rfl rfl rfl rfl,
    fun hwritable => hclaim.plain (isWhole_issuedTo hrecord hdistributor) (hclaim.isWritable_iff.mp hwritable)⟩
  have hn : ∀ n, size = some n → n = d.size := by
    rintro n rfl
    rcases hsize with hno | hn
    · exact nomatch hno
    · exact Option.some.inj hn
  rw [Claim.verify, rootOfText_text]
  exact verifyBytes_issuedTo hb hl hencoded hrecord htarget hprogram hn

/-- Every claim of a document stands, in the order of the rows. -/
theorem Documents.stands (hd : Documents h distributor host prepared d document)
    (hprep : Prepares draw integration targetKey programKey viaWallets 0 rows s prepared s')
    (hrows : ∀ row ∈ rows, row.Valid) (htarget : targetKey.length = 32)
    (hprogram : Key.parse program "program_id" = .ok programKey)
    (hdistributor : ∀ s, distributor = some s → s.isWhole = true) :
    List.Forall₂ (Stands h program d) (prepared.map (·.1)) document.claims := by
  obtain ⟨encodings, hb⟩ := built_of_ofRecords hd.records
  obtain ⟨payloads, hissue, hdocument⟩ := hd.issued
  have hsize : (prepared.map (·.1)).length = d.size := by rw [hb.size_eq, List.length_map, List.length_map]
  rw [issue_eq_ok hsize (target?_of_mem_entries hprep hb), Except.ok.injEq] at hissue
  obtain ⟨claims, hclaims, rfl⟩ := Document.ofDistribution_eq_ok.mp hdocument
  rw [← hissue, List.mapM_map, mapM_eq_ok_iff] at hclaims
  have hrowsOf : (d.entries.zip (prepared.map (·.1))).map (·.2) = prepared.map (·.1) :=
    List.map_snd_zip (by rw [hb.length_entries, List.length_map, List.length_map])
  rw [← hrowsOf, List.forall₂_map_left_iff]
  have hat : ∀ x ∈ d.entries.zip (prepared.map (·.1)), ∃ (i : Nat) (l : Leaf) (encoded : Bytes),
      prepared[i]? = some (x.2, l) ∧ encodings[i]? = some encoded ∧ x.1 = entry d.tree l (h.leaf encoded) i := by
    rintro ⟨e, row⟩ hx
    obtain ⟨i, hi⟩ := List.getElem?_of_mem hx
    obtain ⟨he, hrow⟩ := List.getElem?_zip_eq_some.mp hi
    obtain ⟨row', l, encoded, hprepared, hencoded, rfl⟩ := exists_row_of_entry hb he
    rw [List.getElem?_map, hprepared] at hrow
    obtain rfl : row' = row := Option.some.inj hrow
    exact ⟨i, l, encoded, hprepared, hencoded, rfl⟩
  refine ((List.forall₂_and_left _ _).mpr ⟨hat, hclaims⟩).imp ?_
  rintro ⟨e, row⟩ fs ⟨⟨i, l, encoded, hprepared, hencoded, rfl⟩, hfs⟩
  have hl : (prepared.map (·.2))[i]? = some l := by
    rw [List.getElem?_map, hprepared]
    rfl
  obtain ⟨-, hrecord⟩ := hprep.of_getElem? i row l hprepared
  rw [Nat.zero_add] at hrecord
  exact stands_of_claimOf hb hl hencoded hrecord htarget hprogram
    (hprep.valid hrows (row, l) (List.mem_of_getElem? hprepared)) hdistributor (Document.claimOf_of_claim hfs)

end
end Distribution
end Airdrop
