import Airdrop.Console.Check
import Airdrop.Proofs.Console.Run
import Airdrop.Proofs.Distribution.Document
import Airdrop.Proofs.Text.Utf8

/-!
# Checking documents

* `verifyDistribution_eq_ok` : the check of a document succeeds exactly if all its claims stand. `showProof_of_read` :
  what is shown of a claim.
* `Document.Sound s document` : every claim of a document stands under some settings, and the document is read back.
* `run_verifyDistribution`, `run_verifyClaim`, `run_showProof` : what the commands print about such a document.
  `run_verifyRoot` : what is printed about a signed root.
-/

namespace Airdrop

open Outcome

/-- A document that is read back and whose claims stand under some settings. -/
structure Document.Sound (s : Settings) (document : Document) : Prop where
  plain : document.Plain
  hasher : ∃ h, s.hasher = .ok h ∧ document.hasher = .ok h
  accepted : ∀ h, s.hasher = .ok h → ∀ fs ∈ document.claims, ∃ p, Payload.ofClaim fs = .ok p ∧
    ∀ size, size = none ∨ size = some document.treeSize →
      Claim.verify p document.root h (.text s.program) size = .ok true
  proof : ∀ fs ∈ document.claims, ∃ v, Value.lookup "proof" fs = some v

namespace Console

variable {d d' : Desk} {c : Context} {document : Document} {file text : String}

def Desk.printing (d : Desk) (o : Output) : Desk := { d with printed := d.printed ++ [o] }

theorem readDocument_eq_ok :
    (readDocument file : Act (StateM Desk) Document).run.run d = (.ok document, d') ↔
      (∃ content cs, d.Holds file content ∧ Utf8.decode? content = some cs ∧
        Document.ofText (String.ofList cs) = .ok document) ∧ d = d' := by
  rw [readDocument]
  exact attempt_readText_eq_ok

theorem run_readDocument (hplain : document.Plain) (htext : document.text = .ok text)
    (hfile : d.Holds file (Utf8.ofText text)) :
    (readDocument file : Act (StateM Desk) Document).run.run d = (.ok document, d) := by
  refine readDocument_eq_ok.mpr ⟨⟨_, text.toList, hfile, Utf8.decode?_encode _, ?_⟩, rfl⟩
  rw [String.ofList_toList]
  exact Document.ofText_text hplain htext

theorem checkEntry_eq_true {program : String} {h : Hasher} {fs : Fields} :
    checkEntry program document h fs = .ok true ↔ ∃ p, Payload.ofClaim fs = .ok p ∧
      Claim.verify p document.root h (.text program) (some document.treeSize) = .ok true := bind_eq_ok

theorem judge_eq_valid {h : Hasher} {fs : Fields} {position : Nat} :
    (judge c document h fs position : Act (StateM Desk) Verdict).run.run d = (.ok .valid, d') ↔
      checkEntry c.settings.program document h fs = .ok true ∧ d = d' := by
  unfold judge
  cases checkEntry c.settings.program document h fs with
  | ok valid =>
    simp only [run_pure_eq_ok]
    cases valid <;> simp
  | error e =>
    refine ⟨fun hrun => ?_, fun hno => nomatch hno.1⟩
    dsimp only at hrun
    split at hrun
    · obtain ⟨_, _, -, hrun⟩ := run_bind_eq_ok.mp hrun
      exact nomatch (run_pure_eq_ok.mp hrun).1
    · exact absurd hrun throw_ne_ok

theorem positionsOf_replicate {v w : Verdict} (hne : w ≠ v) (n : Nat) : positionsOf v (List.replicate n w) = [] := by
  have hnone : (List.replicate n w).zipIdx.filter (·.1 = v) = [] := by
    rw [List.filter_eq_nil_iff]
    rintro ⟨u, i⟩ hu
    obtain rfl := List.eq_of_mem_replicate (List.fst_mem_of_mem_zipIdx hu)
    simpa using hne
  rw [positionsOf, hnone, List.map_nil]

/-- The check of a document succeeds exactly if every claim of it stands. -/
theorem verifyDistribution_eq_ok :
    (verifyDistribution c file : Act (StateM Desk) Unit).run.run d = (.ok (), d') ↔
      ∃ document h, (readDocument file : Act (StateM Desk) Document).run.run d = (.ok document, d) ∧
        document.hasher = .ok h ∧
        (∀ fs ∈ document.claims, checkEntry c.settings.program document h fs = .ok true) ∧
        d.printing (.object [("claims", .int document.claims.length), ("invalid", .list []), ("malformed", .list [])]) =
          d' := by
  rw [verifyDistribution, run_bind_eq_ok]
  constructor
  · rintro ⟨document, _, hread, hrun⟩
    obtain ⟨-, rfl⟩ := readDocument_eq_ok.mp hread
    obtain ⟨h, _, hgiven, hrun⟩ := run_bind_eq_ok.mp hrun
    obtain ⟨hhasher, rfl⟩ := given_eq_ok.mp (attempt_eq_ok.mp hgiven)
    obtain ⟨verdicts, t, hjudge, hrun⟩ := run_bind_eq_ok.mp hrun
    obtain ⟨_, _, hprint, hrun⟩ := run_bind_eq_ok.mp hrun
    obtain rfl := print_eq_ok.mp hprint
    by_cases hany : verdicts.any (· ≠ .valid) = true
    · rw [if_pos hany] at hrun
      exact absurd hrun throw_ne_ok
    rw [if_neg hany] at hrun
    obtain ⟨-, rfl⟩ := run_pure_eq_ok.mp hrun
    have hvalid : ∀ v ∈ verdicts, v = .valid := by simpa using hany
    obtain ⟨rfl, hall⟩ := of_run_mapM (P := fun x => checkEntry c.settings.program document h x.1 = .ok true)
      (Q := (· = .valid)) (fun x v s s' hv hvalid => (judge_eq_valid.mp (hvalid ▸ hv)).symm) _ _ _ _ hjudge hvalid
    refine ⟨document, h, hread, hhasher, fun fs hfs => ?_, ?_⟩
    · obtain ⟨i, hi⟩ := List.mem_iff_getElem?.mp hfs
      exact hall (fs, i) (List.mem_zipIdx_iff_getElem?.mpr hi)
    · rw [List.eq_replicate_of_mem hvalid, positionsOf_replicate (by decide), positionsOf_replicate (by decide)]
      rfl
  · rintro ⟨document, h, hread, hhasher, hall, rfl⟩
    have hjudge : ∀ x ∈ document.claims.zipIdx,
        (judge c document h x.1 x.2 : Act (StateM Desk) Verdict).run.run d = (.ok .valid, d) :=
      fun x hx => judge_eq_valid.mpr ⟨hall x.1 (List.fst_mem_of_mem_zipIdx hx), rfl⟩
    have hverdicts : document.claims.zipIdx.map (fun _ => Verdict.valid) =
        List.replicate document.claims.length .valid := by
      rw [List.map_const', List.length_zipIdx]
    refine ⟨document, d, hread, run_bind_eq_ok.mpr
      ⟨h, d, attempt_eq_ok.mpr (given_eq_ok.mpr ⟨hhasher, rfl⟩), run_bind_eq_ok.mpr
        ⟨_, d, run_mapM _ hjudge, run_bind_eq_ok.mpr ⟨(), _, print_eq_ok.mpr rfl, ?_⟩⟩⟩⟩
    rw [hverdicts, positionsOf_replicate (by decide), positionsOf_replicate (by decide)]
    have hany : (List.replicate document.claims.length Verdict.valid).any (· ≠ .valid) = false := by simp
    rw [hany]
    rfl

theorem run_verifyDistribution (hs : document.Sound c.settings) (htext : document.text = .ok text)
    (hfile : d.Holds file (Utf8.ofText text)) :
    (verifyDistribution c file : Act (StateM Desk) Unit).run.run d =
      (.ok (), d.printing (.object [("claims", .int document.claims.length), ("invalid", .list []),
        ("malformed", .list [])])) := by
  obtain ⟨h, hsettings, hhasher⟩ := hs.hasher
  refine verifyDistribution_eq_ok.mpr
    ⟨document, h, run_readDocument hs.plain htext hfile, hhasher, fun fs hfs => ?_, rfl⟩
  obtain ⟨p, hp, hverify⟩ := hs.accepted h hsettings fs hfs
  exact checkEntry_eq_true.mpr ⟨p, hp, hverify _ (Or.inr rfl)⟩

theorem run_verifyClaim {fs : Fields} {size : Option Int} (hs : document.Sound c.settings)
    (hfs : fs ∈ document.claims) (hfile : d.HoldsValue file (.object fs))
    (hsize : size = none ∨ size = some document.treeSize) :
    (verifyClaim c file document.root size : Act (StateM Desk) Unit).run.run d =
      (.ok (), d.printing (.object [("claim_valid", .bool true)])) := by
  obtain ⟨h, hsettings, -⟩ := hs.hasher
  obtain ⟨p, hp, hverify⟩ := hs.accepted h hsettings fs hfs
  have hcheck : checkClaim c.settings fs document.root size = .ok true := by
    rw [checkClaim, hp, hsettings]
    exact hverify size hsize
  rw [verifyClaim, run_bind_eq_ok]
  refine ⟨fs, d, readObject_eq_ok.mpr ⟨hfile, rfl⟩, run_bind_eq_ok.mpr
    ⟨true, d, attempt_eq_ok.mpr (given_eq_ok.mpr ⟨hcheck, rfl⟩), run_bind_eq_ok.mpr ⟨(), _, print_eq_ok.mpr rfl, rfl⟩⟩⟩

/-- What is printed about the claim at a position, by the fields that stand there. -/
theorem showProof_of_read {i : Nat} {fs : Fields}
    (hread : (readDocument file : Act (StateM Desk) Document).run.run d = (.ok document, d))
    (hfs : document.claims[i]? = some fs) :
    (showProof file i : Act (StateM Desk) Unit).run.run d =
      match Value.lookup "proof" fs with
      | none => (.error (.failed (.plain .noKey)), d)
      | some v => (.ok (), d.printing (.object [("index", .int i), ("proof", v), ("root", .text document.root)])) := by
  have hat : (if (0 : Int) ≤ i then document.claims[(i : Int).toNat]? else none) = some fs := by
    rw [if_pos (Int.natCast_nonneg i), Int.toNat_natCast, hfs]
  rw [showProof, run_bind_of_ok hread, hat]
  cases hproof : Value.lookup "proof" fs with
  | none =>
    simp only [hproof]
    rfl
  | some v =>
    simp only [hproof]
    exact print_eq_ok.mpr rfl

theorem run_showProof {i : Nat} {fs : Fields} {v : Value} (hplain : document.Plain)
    (htext : document.text = .ok text) (hfile : d.Holds file (Utf8.ofText text)) (hfs : document.claims[i]? = some fs)
    (hproof : Value.lookup "proof" fs = some v) :
    (showProof file i : Act (StateM Desk) Unit).run.run d =
      (.ok (), d.printing (.object [("index", .int i), ("proof", v), ("root", .text document.root)])) := by
  rw [showProof_of_read (run_readDocument hplain htext hfile) hfs, hproof]

theorem run_verifyRoot {fs : Fields} (hfile : d.HoldsValue file (.object fs)) :
    (verifyRoot file : Act (StateM Desk) Unit).run.run d =
      (.ok (), d.printing (.object [("signature_valid", .bool (SignedRoot.isValid fs))])) := by
  rw [verifyRoot, run_bind_eq_ok]
  exact ⟨fs, d, readObject_eq_ok.mpr ⟨hfile, rfl⟩, print_eq_ok.mpr rfl⟩

end Console
end Airdrop
