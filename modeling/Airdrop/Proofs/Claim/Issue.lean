import Airdrop.Distribution.Issue
import Airdrop.Proofs.Bytes.Base58
import Airdrop.Proofs.Claim.Payload
import Airdrop.Proofs.Claim.Prepare
import Airdrop.Proofs.Distribution.Admission
import Airdrop.Proofs.Key

/-!
# Issued claims

The authority and the claimant compute a record on different ways: the one from the row, the other from the payload,
through Base58. `issued_verify` : the two agree, so every payload of a distribution is accepted under its root.

* `Distribution.issue_eq_ok` : the payloads of a distribution whose records have one target.
* `leaf_issuedTo`, `verifyBytes_issuedTo`, `valid_issuedTo`, `isWhole_issuedTo` : what a payload is worth to its
  claimant.
-/

namespace Airdrop

open Outcome

/-! ## PINs -/

/-- Pseudo-addresses have PINs of 32 bits. -/
theorem Address.pin_of_pseudo {seed handle program : Value} {n : Int} {key : Bytes}
    (h : pseudo seed handle (.int n) program = .ok key) : 0 ≤ n ∧ n < (pinBound : Int) := by
  unfold pseudo pseudoSeeds at h
  simp only [bind_eq_ok] at h
  obtain ⟨_, ⟨_, -, _, hpin, -⟩, -⟩ := h
  unfold checkPin at hpin
  simp only [Value.asInt?] at hpin
  split at hpin
  · assumption
  · exact nomatch hpin

namespace Claim

theorem pin_of_resolve {handle seed program : Value} {pin : Option Int} {key : Bytes}
    (h : resolve handle (Value.ofOption .int pin) seed program = .ok key) :
    ∀ n, pin = some n → 0 ≤ n ∧ n < (pinBound : Int) := by
  rintro n rfl
  exact Address.pin_of_pseudo h

/-- A torn text is no wallet, and as the name of a contact it has no address. -/
theorem exists_of_resolve {handle : RawText} {pin : Option Int} {seed program : Value} {key : Bytes}
    (h : resolve handle.toValue (Value.ofOption .int pin) seed program = .ok key) : ∃ s, handle = .whole s := by
  cases handle with
  | whole s => exact ⟨s, rfl⟩
  | torn t =>
    cases pin with
    | none => exact nomatch h
    | some n =>
      unfold resolve Address.pseudo Address.pseudoSeeds at h
      simp only [Value.ofOption, bind_eq_ok] at h
      obtain ⟨_, ⟨_, -, _, -, _, hbytes, -⟩, -⟩ := h
      exact nomatch hbytes

theorem siblings_eq_ok {p : Payload} {proof : List Bytes}
    (h : p.proof = proof.map fun hash => .whole (Base58.text hash)) : siblings p = .ok proof := by
  have hread : (proof.map fun hash => .whole (Base58.text hash)).mapM Base58.ofRaw? = some proof :=
    mapM_map_eq_some proof fun bs _ => Base58.ofText?_text bs
  rw [siblings, h, hread]

theorem rootOfText_text (root : Bytes) : rootOfText (Base58.text root) = .ok root := by
  rw [rootOfText, Base58.ofRaw?, Base58.ofText?_text]

end Claim

/-! ## Payloads -/

namespace Distribution

def issuedTo (kind : Kind) (distributor : Option RawText) (target : Bytes) (e : Entry) (row : Claimant) : Payload :=
  { integration := kind.name, handle := row.handle, amount := row.amount, index := e.index, pin := row.pin,
    proof := e.proof.map fun hash => .whole (Base58.text hash), target := Base58.text target, edition := row.edition,
    distributor }

variable {d : Distribution} {rows : List Claimant} {distributor : Option RawText} {target : Bytes}

/-- Where all records are paid from one target, every row gets its payload. -/
theorem issue_eq_ok (hsize : rows.length = d.size)
    (htarget : ∀ e ∈ d.entries, e.record.target? = some (.bytes target)) :
    d.issue rows distributor =
      .ok ((d.entries.zip rows).map fun x => issuedTo d.kind distributor target x.1 x.2) := by
  rw [issue, if_neg (not_ne_iff.mpr hsize)]
  refine mapM_eq_ok _ fun ⟨e, row⟩ hx => ?_
  have htext : targetText e = .ok (Base58.text target) := by
    rw [targetText, htarget e (List.of_mem_zip hx).1]
  simp only [payload, htext]
  rfl

end Distribution

namespace Claim

open Airdrop.Distribution (ofRecords Built built_of_ofRecords issuedTo issue_eq_ok entry)

section
variable {h : Hasher} {d : Distribution} {records : List Leaf} {encodings : List Bytes} {integration : String}
  {target programKey : Bytes} {program : Value} {i : Nat} {row : Claimant} {l : Leaf} {encoded : Bytes}
  {distributor : Option RawText}

/-- The claimant rebuilds the record that the authority made. -/
theorem leaf_issuedTo (hb : Built h records encodings d) (hl : records[i]? = some l)
    (hrecord : recordOf integration target programKey i row = .ok l) (htarget : target.length = 32)
    (hprogram : Key.parse program "program_id" = .ok programKey) :
    leaf (issuedTo d.kind distributor target (entry d.tree l (h.leaf encoded) i) row) program = .ok l := by
  obtain ⟨claimant, kind, hclaimant, -, hdesc⟩ := recordOf_eq_ok_iff.mp hrecord
  have hkind : d.kind = kind :=
    Except.ok.inj ((hb.admitted.kind_eq l (List.mem_of_getElem? hl)).symm.trans hdesc.kind_eq)
  rw [leaf_eq_ok_iff]
  refine ⟨target, programKey, claimant, kind, Key.ofText_text htarget _, hprogram, hclaimant, ?_, hdesc⟩
  rw [← hkind]
  exact integration?_name (hkind ▸ hdesc.isIndexed)

/-- The claimant's check reaches the root. -/
theorem verifyBytes_issuedTo (hb : Built h records encodings d) (hl : records[i]? = some l)
    (hencoded : encodings[i]? = some encoded) (hrecord : recordOf integration target programKey i row = .ok l)
    (htarget : target.length = 32) (hprogram : Key.parse program "program_id" = .ok programKey) {size : Option Int}
    (hsize : ∀ n, size = some n → n = d.size) :
    verifyBytes (issuedTo d.kind distributor target (entry d.tree l (h.leaf encoded) i) row) d.root h program size =
      .ok true := by
  rw [verifyBytes_eq_true_iff]
  refine ⟨Merkle.Tree.siblings d.tree.levels i, l, encoded, siblings_eq_ok rfl,
    leaf_issuedTo hb hl hrecord htarget hprogram, hb.admitted.encode_of_getElem? hl hencoded, ?_⟩
  refine hb.tower.verify_own ?_ hsize
  rw [hb.leaves_eq, List.getElem?_map, hencoded]
  rfl

/-- The payload can be handed on: it passes the form's checks. -/
theorem valid_issuedTo (hb : Built h records encodings d) (hl : records[i]? = some l)
    (hrecord : recordOf integration target programKey i row = .ok l) (hamount : 0 ≤ row.amount)
    (hedition : ∀ n, row.edition = some n → 0 ≤ n) :
    (issuedTo d.kind distributor target (entry d.tree l (h.leaf encoded) i) row).Valid := by
  obtain ⟨claimant, kind, hclaimant, -, hdesc⟩ := recordOf_eq_ok_iff.mp hrecord
  have hkind : d.kind = kind :=
    Except.ok.inj ((hb.admitted.kind_eq l (List.mem_of_getElem? hl)).symm.trans hdesc.kind_eq)
  refine ⟨?_, hamount, Int.natCast_nonneg i, hedition, pin_of_resolve hclaimant⟩
  show (integration? d.kind.name).isSome = true
  rw [integration?_name (hkind ▸ hdesc.isIndexed)]
  rfl

/-- No text of the payload is torn if that of the distributor is not. -/
theorem isWhole_issuedTo {kind : Kind} {e : Entry} (hrecord : recordOf integration target programKey i row = .ok l)
    (hdistributor : ∀ s, distributor = some s → s.isWhole = true) :
    (issuedTo kind distributor target e row).IsWhole := by
  obtain ⟨claimant, _, hclaimant, -, -⟩ := recordOf_eq_ok_iff.mp hrecord
  obtain ⟨name, hname⟩ := exists_of_resolve hclaimant
  refine Payload.isWhole_iff.mpr ⟨congrArg RawText.isWhole hname, rfl, fun s hs => ?_, hdistributor⟩
  obtain ⟨hash, -, rfl⟩ := List.mem_map.mp hs
  rfl

end

section
variable {σ : Type} {draw : StateM σ Int} {s s' : σ} {h : Hasher} {integration : String} {target program : Value}
  {targetKey programKey : Bytes} {viaWallets : Bool} {rows : List Claimant} {prepared : List (Claimant × Leaf)}
  {d : Distribution} {encodings : List Bytes}

/-- The entries of a prepared distribution are those of its rows. -/
theorem exists_row_of_entry (hb : Built h (prepared.map (·.2)) encodings d) {i : Nat} {e : Entry}
    (he : d.entries[i]? = some e) : ∃ row l encoded, prepared[i]? = some (row, l) ∧ encodings[i]? = some encoded ∧
      e = entry d.tree l (h.leaf encoded) i := by
  obtain ⟨l, encoded, hl, hencoded, rfl⟩ := hb.of_getElem?_entries he
  rw [List.getElem?_map, Option.map_eq_some_iff] at hl
  obtain ⟨⟨row, _⟩, hat, rfl⟩ := hl
  exact ⟨row, _, encoded, hat, hencoded, rfl⟩

/-- All records of a prepared distribution are paid from its target. -/
theorem target?_of_mem_entries (hprep : Prepares draw integration targetKey programKey viaWallets 0 rows s prepared s')
    (hb : Built h (prepared.map (·.2)) encodings d) : ∀ e ∈ d.entries, e.record.target? = some (.bytes targetKey) := by
  intro e he
  obtain ⟨i, hi⟩ := List.getElem?_of_mem he
  obtain ⟨row, l, encoded, hat, -, rfl⟩ := exists_row_of_entry hb hi
  obtain ⟨-, hrecord⟩ := hprep.of_getElem? i row l hat
  obtain ⟨claimant, kind, -, -, hdesc⟩ := recordOf_eq_ok_iff.mp hrecord
  exact hdesc.target?_eq

/-- Prepared rows are valid: the PINs that were drawn, too, or there would be no pseudo-addresses. -/
theorem Prepares.valid (h : Prepares draw integration targetKey programKey viaWallets 0 rows s prepared s')
    (hrows : ∀ row ∈ rows, row.Valid) : ∀ x ∈ prepared, x.1.Valid := by
  rintro ⟨row, l⟩ hx
  obtain ⟨i, hi⟩ := List.getElem?_of_mem hx
  obtain ⟨⟨own, hown, hkeeps⟩, hrecord⟩ := h.of_getElem? i row l hi
  obtain ⟨claimant, -, hclaimant, -, -⟩ := recordOf_eq_ok_iff.mp hrecord
  have hvalid := hrows own (List.mem_of_getElem? hown)
  show row.Valid
  rw [hkeeps]
  exact ⟨hvalid.handle, hvalid.amount, hvalid.edition, pin_of_resolve hclaimant⟩

/-- **Every issued claim is accepted.** Whenever rows are prepared, by wallets or with PINs from any source, and their
records make a distribution, every row gets a payload with its position. From it the claimant rebuilds the prepared
record, and the check succeeds under the root, given in bytes or in Base58, with and without the size. The payload is
read back from its fields, with or without a link among them. -/
theorem issued_verify (distributor : Option RawText) (hrows : ∀ row ∈ rows, row.Valid)
    (hprepare : (prepare draw integration target program viaWallets rows).run.run s = (.ok prepared, s'))
    (hd : ofRecords h (prepared.map (·.2)) = .ok d) :
    ∃ payloads, d.issue (prepared.map (·.1)) distributor = .ok payloads ∧ payloads.length = rows.length ∧
      ∀ (i : Nat) (p : Payload), payloads[i]? = some p →
        p.index = i ∧ (∃ l, (prepared.map (·.2))[i]? = some l ∧ leaf p program = .ok l) ∧
        (∀ size, size = none ∨ size = some (d.size : Int) →
          verifyBytes p d.root h program size = .ok true ∧ verify p (Base58.text d.root) h program size = .ok true) ∧
        Payload.ofClaim p.toFields = .ok p ∧
        ∀ (before after : Fields) (url : Value), before ++ after = p.toFields →
          Payload.ofClaim (before ++ ("url", url) :: after) = .ok p := by
  obtain ⟨-, targetKey, programKey, htarget, hprogram, hprep⟩ := prepare_eq_ok_iff.mp hprepare
  obtain ⟨encodings, hb⟩ := built_of_ofRecords hd
  have htargetLength := Key.length_of_parse htarget
  have hsize : (prepared.map (·.1)).length = d.size := by rw [hb.size_eq, List.length_map, List.length_map]
  refine ⟨_, issue_eq_ok hsize (target?_of_mem_entries hprep hb), ?_, fun i p hp => ?_⟩
  · rw [List.length_map, List.length_zip, hb.length_entries, ← hb.size_eq, hsize, Nat.min_self, ← hsize,
      List.length_map, hprep.length_eq]
  rw [List.getElem?_map, Option.map_eq_some_iff] at hp
  obtain ⟨⟨e, row⟩, hzip, rfl⟩ := hp
  obtain ⟨he, hrow⟩ := List.getElem?_zip_eq_some.mp hzip
  obtain ⟨row', l, encoded, hat, hencoded, rfl⟩ := exists_row_of_entry hb he
  rw [List.getElem?_map, hat] at hrow
  obtain rfl : row' = row := Option.some.inj hrow
  obtain ⟨⟨own, hown, hkeeps⟩, hrecord⟩ := hprep.of_getElem? i row' l hat
  rw [Nat.zero_add] at hrecord
  have hl : (prepared.map (·.2))[i]? = some l := by
    rw [List.getElem?_map, hat]
    rfl
  have hvalid : (issuedTo d.kind distributor targetKey (entry d.tree l (h.leaf encoded) i) row').Valid := by
    have hownValid := hrows own (List.mem_of_getElem? hown)
    refine valid_issuedTo hb hl hrecord ?_ ?_
    · rw [hkeeps]
      exact hownValid.amount
    · rw [hkeeps]
      exact hownValid.edition
  refine ⟨rfl, ⟨l, hl, leaf_issuedTo hb hl hrecord htargetLength hprogram⟩, fun size hsize' => ?_,
    Payload.ofClaim_toFields hvalid, fun before after url hfs => Payload.ofClaim_insert_url hvalid url hfs⟩
  have hverify : verifyBytes (issuedTo d.kind distributor targetKey (entry d.tree l (h.leaf encoded) i) row') d.root h
      program size = .ok true := by
    refine verifyBytes_issuedTo hb hl hencoded hrecord htargetLength hprogram fun n hn => ?_
    rcases hsize' with rfl | rfl
    · exact nomatch hn
    · exact (Option.some.inj hn).symm
  refine ⟨hverify, ?_⟩
  rw [verify, rootOfText_text]
  exact hverify

end

/-- A contact with a PIN of their own and one with a drawn PIN. -/
theorem issued_verify_two :
    ∃ prepared s' d payloads,
      (prepare (m := StateM Int) (fun n => (n, n + 1)) "edition" (.bytes (List.replicate 32 1))
        (.bytes (List.replicate 32 2)) false
        [{ handle := "a", amount := 3, edition := some 4, pin := some 5 },
          { handle := "b", amount := 0, edition := some 6 }]).run.run 7 = (.ok prepared, s') ∧
      ofRecords {} (prepared.map (·.2)) = .ok d ∧ d.issue (prepared.map (·.1)) none = .ok payloads ∧
      payloads.length = 2 ∧ ∀ (i : Nat) (p : Payload), payloads[i]? = some p →
        verifyBytes p d.root {} (.bytes (List.replicate 32 2)) none = .ok true := by
  have hrun : ((prepare (m := StateM Int) (fun n => (n, n + 1)) "edition" (.bytes (List.replicate 32 1))
      (.bytes (List.replicate 32 2)) false
      [{ handle := "a", amount := 3, edition := some 4, pin := some 5 },
        { handle := "b", amount := 0, edition := some 6 }]).run.run 7).1.toOption.map
      (fun prepared => (ofRecords {} (prepared.map (·.2))).toOption.isSome) = some true := by
    decide +kernel
  obtain ⟨prepared, s', hprepare, hrun⟩ := fst_toOption_map_eq_some.mp hrun
  obtain ⟨d, hd⟩ := Option.isSome_iff_exists.mp hrun
  obtain ⟨payloads, hissue, hlength, hall⟩ := issued_verify none (by
    intro row hrow
    rcases List.mem_cons.mp hrow with rfl | hrow
    · exact ⟨by decide, by decide, by simp, by simp [pinBound]⟩
    · obtain rfl := List.mem_singleton.mp hrow
      exact ⟨by decide, by decide, by simp, by simp⟩) hprepare (toOption_eq_some.mp hd)
  exact ⟨prepared, s', d, payloads, hprepare, toOption_eq_some.mp hd, hissue, hlength,
    fun i p hp => ((hall i p hp).2.2.1 none (Or.inl rfl)).1⟩

end Claim
end Airdrop
