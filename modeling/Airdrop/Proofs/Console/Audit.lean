import Airdrop.Proofs.Console.Create
import Airdrop.Proofs.Json.Reading

/-!
# Proofs shown of a checked document

The check of a document reads every claim with its own position and with the default for a path that it does not hold.
The path of a claim is shown by its place among the claims, and from its field alone.

* `Document.isJson_claims`, `Payload.proof_of_ofClaim` : the path that a claim holds is that of its payload.
* `proof_of_checked` : what is shown of each claim once the check succeeded.
* `proof_of_other_position` : a document with its claims in another order passes the check, and shows the path of one
  claim as that of another.
-/

namespace Airdrop

open Check Form Reading Outcome

namespace Document

/-- The claims of a document that was read hold what a text can hold. -/
theorem isJson_claims {s : String} {document : Document} (h : ofText s = .ok document) :
    ∀ fs ∈ document.claims, (Value.object fs).IsJson := by
  rw [ofText, mapError_eq_ok, readText] at h
  split at h
  · next v hv =>
    have hjson := Json.isJson_of_read hv
    have hcheck := outcome_eq_ok.mp h
    unfold Form.check at hcheck
    split at hcheck
    · next o =>
      simp only [form, seq_eq_accepted, map_eq_accepted] at hcheck
      obtain ⟨_, claims, ⟨_, _, ⟨_, _, ⟨_, _, ⟨_, -, rfl⟩, -, rfl⟩, -, rfl⟩, -, rfl⟩, hclaims, rfl⟩ := hcheck
      intro fs hfs
      obtain ⟨w, hw, hlist⟩ | ⟨-, rfl⟩ := withDefault_eq_accepted.mp hclaims
      · have hown := hjson.of_lookup hw
        rw [eq_list_of_accepted hlist fun _ _ _ _ _ hfs => eq_object_of_accepted hfs] at hown
        exact hown.of_mem_list _ (List.mem_map_of_mem hfs)
      · exact absurd hfs List.not_mem_nil
    · cases hcheck
  · cases h

end Document

/-- A claim holds the path of its payload, or none. -/
theorem Payload.proof_of_ofClaim {fs : Fields} {p : Payload} (hjson : (Value.object fs).IsJson)
    (h : ofClaim fs = .ok p) :
    Value.lookup "proof" fs = some (.list (p.proof.map RawText.toValue)) ∨
      Value.lookup "proof" fs = none ∧ p.proof = [] := by
  obtain ⟨-, -, hproof, -⟩ := checks_of_read (mapError_eq_ok.mp h)
  rw [withDefault_eq_accepted, Value.lookup_dropField (by decide)] at hproof
  obtain ⟨v, hv, htexts⟩ | ⟨hnone, hempty⟩ := hproof
  · exact Or.inl (eq_texts_of_accepted (hjson.of_lookup hv) htexts ▸ hv)
  · exact Or.inr ⟨hnone, hempty.symm⟩

/-- Without a path only the single leaf of a tree is accepted at a size. -/
theorem Claim.single_of_verify {p : Payload} {root : RawText} {h : Hasher} {program : Value} {size : Int}
    (hproof : p.proof = []) (hv : verify p root h program (some size) = .ok true) : p.index = 0 ∧ size = 1 := by
  unfold verify at hv
  obtain ⟨bytes, -, hv⟩ := bind_eq_ok.mp hv
  obtain ⟨path, l, encoded, hpath, -, -, hv⟩ := verifyBytes_eq_true_iff.mp hv
  rw [siblings, hproof] at hpath
  obtain rfl : [] = path := Except.ok.inj hpath
  obtain ⟨hcheck, -⟩ := Merkle.verify_eq_true_iff.mp hv
  obtain ⟨-, -, -, hnonneg, hlt, hsize⟩ := Merkle.checkPath_eq_ok_iff.mp hcheck
  obtain ⟨hbelow, hdepth⟩ := hsize size rfl
  rw [List.length_nil] at hlt hdepth
  have hzero : p.index = 0 := by omega
  refine ⟨hzero, ?_⟩
  by_contra hne
  have hsucc := Merkle.depthFor_eq_succ (n := size.toNat) (by omega)
  rw [Int.toNat_of_nonneg (by omega)] at hsucc
  omega

namespace Console

/-- **What is shown of each claim of a document that was checked.** Whatever stands in the file, if the check of it
succeeds, every claim is read as a payload that is accepted at that payload's own position. Of the claim at place `i`
that payload's path is shown as the one of position `i`; so it is the right one where the claims stand at their own
positions. But if the claim does not hold its path, which then is empty, the command fails. -/
theorem proof_of_checked {d d' : Desk} {c : Context} {file : String}
    (h : d.perform c (.verifyDistribution file) = (.ok (), d')) :
    ∃ document hasher, (readDocument file : Act (StateM Desk) Document).run.run d' = (.ok document, d') ∧
      document.hasher = .ok hasher ∧
      ∀ (i : Nat) (fs : Fields), document.claims[i]? = some fs → ∃ p, Payload.ofClaim fs = .ok p ∧
        Claim.verify p document.root hasher (.text c.settings.program) (some document.treeSize) = .ok true ∧
        (Value.lookup "proof" fs = some (.list (p.proof.map RawText.toValue)) ∧
            d'.perform c (.showProof file i) = (.ok (), d'.printing (.object [("index", .int i),
              ("proof", .list (p.proof.map RawText.toValue)), ("root", .text document.root)])) ∨
          Value.lookup "proof" fs = none ∧ p.proof = [] ∧ p.index = 0 ∧ document.treeSize = 1 ∧
            d'.perform c (.showProof file i) = (.error (.failed (.plain .noKey)), d')) := by
  obtain ⟨document, hasher, hread, hhasher, hall, hprint⟩ := verifyDistribution_eq_ok.mp h
  obtain ⟨⟨content, cs, hholds, hdecode, hdocument⟩, -⟩ := readDocument_eq_ok.mp hread
  -- Printing leaves the disk, so the document is read again after the check.
  have hagain : (readDocument file : Act (StateM Desk) Document).run.run d' = (.ok document, d') := by
    rw [← hprint]
    exact readDocument_eq_ok.mpr ⟨⟨content, cs, ⟨hholds.noNul, hholds.content⟩, hdecode, hdocument⟩, rfl⟩
  refine ⟨document, hasher, hagain, hhasher, fun i fs hfs => ?_⟩
  obtain ⟨p, hp, hverify⟩ := checkEntry_eq_true.mp (hall fs (List.mem_of_getElem? hfs))
  refine ⟨p, hp, hverify, ?_⟩
  have hshown := showProof_of_read hagain hfs
  obtain hproof | ⟨hnone, hempty⟩ :=
    Payload.proof_of_ofClaim (Document.isJson_claims hdocument fs (List.mem_of_getElem? hfs)) hp
  · rw [hproof] at hshown
    exact Or.inl ⟨hproof, hshown⟩
  · rw [hnone] at hshown
    obtain ⟨hindex, hsize⟩ := Claim.single_of_verify hempty hverify
    exact Or.inr ⟨hnone, hempty, hindex, hsize, hshown⟩

/-- A single claim that does not hold its path, as it need not: it stands, but no path is shown of it. -/
theorem proof_of_checked_one : ∃ (c : Context) (d d' : Desk) (document : Document) (fs : Fields) (p : Payload),
    d.perform c (.verifyDistribution "d") = (.ok (), d') ∧
    (readDocument "d" : Act (StateM Desk) Document).run.run d' = (.ok document, d') ∧
    document.claims = [fs] ∧ Payload.ofClaim fs = .ok p ∧ p.index = 0 ∧ p.proof = [] ∧
    d'.perform c (.showProof "d" (0 : Nat)) = (.error (.failed (.plain .noKey)), d') := by
  let fs : Fields := [("integration", .text "transfer"), ("handle", .text "11111111111111111111111111111111"),
    ("amount", .int 3), ("index", .int 0), ("target", .text "11111111111111111111111111111113")]
  let document : Document := {
    root := "A1ybXyscZtKQred2Z3pUpXNHQdqbeydTxTzBShUjuovz", treeSize := 1, integration := "transfer",
    hashing := Hasher.describe {}, claims := [fs] }
  have hplain : document.Plain := by
    refine ⟨by decide, by decide, List.forall_mem_singleton.mpr (.object (by decide) ?_)⟩
    simp only [fs, List.forall_mem_cons]
    exact ⟨.text _, .text _, .int (by decide), .int (by decide), .text _, fun _ hno => nomatch hno⟩
  obtain ⟨text, htext⟩ := hplain.exists_text
  let d : Desk := { disk := { nodes := [(["d"], .file (Utf8.ofText text))] } }
  have hread (printed : List Output) : (readDocument "d" : Act (StateM Desk) Document).run.run { d with printed } =
      (.ok document, { d with printed }) :=
    run_readDocument hplain htext ⟨by decide, rfl⟩
  have hstands : (checkEntry Claim.defaultProgram document {} fs).toOption = some true := by decide +kernel
  have hok := verifyDistribution_eq_ok (c := { settings := {}, log := {} }).mpr ⟨document, {}, hread [],
    Hasher.ofDescription_describe {}, List.forall_mem_singleton.mpr (toOption_eq_some.mp hstands), rfl⟩
  obtain ⟨other, hasher, hagain, -, hall⟩ := proof_of_checked hok
  obtain rfl : document = other := Except.ok.inj (congrArg Prod.fst ((hread _).symm.trans hagain))
  obtain ⟨p, hp, -, ⟨hproof, -⟩ | ⟨-, hempty, hindex, -, hshown⟩⟩ := hall 0 fs rfl
  · exact nomatch hproof
  · exact ⟨_, d, _, document, fs, p, hok, hagain, rfl, hp, hindex, hempty, hshown⟩

/-- Two claims in reversed order pass the check; as the path of position 0 that of position 1 is shown, with which the
claim at position 0 does not stand. -/
theorem proof_of_other_position : ∃ (c : Context) (d d' : Desk) (document : Document) (shown own : Payload),
    d.perform c (.verifyDistribution "d") = (.ok (), d') ∧
    (readDocument "d" : Act (StateM Desk) Document).run.run d' = (.ok document, d') ∧
    document.payloads = .ok [shown, own] ∧ shown.index = 1 ∧ own.index = 0 ∧
    d'.perform c (.showProof "d" (0 : Nat)) = (.ok (), d'.printing (.object [("index", .int 0),
      ("proof", .list (shown.proof.map RawText.toValue)), ("root", .text document.root)])) ∧
    shown.proof ≠ own.proof ∧
    Claim.verify { own with proof := shown.proof } document.root {} (.text c.settings.program) (some 2) =
      .ok false := by
  let own : Payload := {
    integration := "transfer", handle := "11111111111111111111111111111111", amount := 3, index := 0,
    proof := ["8kQdwD6ycH8mPMPtRpXazMS4seTc4Ly9QUTAFaoman9h"], target := "11111111111111111111111111111113" }
  let shown : Payload := {
    integration := "transfer", handle := "11111111111111111111111111111112", amount := 4, index := 1,
    proof := ["A1ybXyscZtKQred2Z3pUpXNHQdqbeydTxTzBShUjuovz"], target := "11111111111111111111111111111113" }
  let document : Document := {
    root := "ARfgHoYHBbBQmqGSppq9LRDttU89SU75Qqi1StVG7bKN", treeSize := 2, integration := "transfer",
    hashing := Hasher.describe {}, claims := [shown.toFields, own.toFields] }
  have hplain : document.Plain := by
    refine ⟨by decide, by decide, ?_⟩
    simp only [document, List.forall_mem_cons]
    exact ⟨Document.ClaimOf.bare.plain (by decide) (by decide), Document.ClaimOf.bare.plain (by decide) (by decide),
      fun _ hno => nomatch hno⟩
  obtain ⟨text, htext⟩ := hplain.exists_text
  let d : Desk := { disk := { nodes := [(["d"], .file (Utf8.ofText text))] } }
  have hread (printed : List Output) : (readDocument "d" : Act (StateM Desk) Document).run.run { d with printed } =
      (.ok document, { d with printed }) :=
    run_readDocument hplain htext ⟨by decide, rfl⟩
  have hstands : (checkEntry Claim.defaultProgram document {} shown.toFields).toOption = some true ∧
      (checkEntry Claim.defaultProgram document {} own.toFields).toOption = some true := by
    decide +kernel
  have hall : ∀ fs ∈ document.claims, checkEntry Claim.defaultProgram document {} fs = .ok true :=
    List.forall_mem_cons.mpr
      ⟨toOption_eq_some.mp hstands.1, List.forall_mem_singleton.mpr (toOption_eq_some.mp hstands.2)⟩
  have hok := verifyDistribution_eq_ok (c := { settings := {}, log := {} }).mpr ⟨document, {}, hread [],
    Hasher.ofDescription_describe {}, hall, rfl⟩
  have hpayloads : document.payloads.toOption = some [shown, own] := by decide +kernel
  have hother : (Claim.verify { own with proof := shown.proof } document.root {} (.text Claim.defaultProgram)
      (some 2)).toOption = some false := by
    decide +kernel
  have hshown (printed : List Output) := showProof_of_read (i := 0) (hread printed) rfl
  exact ⟨_, d, _, document, shown, own, hok, hread _, toOption_eq_some.mp hpayloads, rfl, rfl, hshown _, by decide,
    toOption_eq_some.mp hother⟩

end Console
end Airdrop
