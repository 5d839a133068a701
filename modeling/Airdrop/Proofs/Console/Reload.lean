import Airdrop.Proofs.Claim.Link
import Airdrop.Proofs.Console.Ending
import Airdrop.Proofs.Console.Publish

/-!
# Saving a distribution and loading it

* `Document.Short dist payloads` : all integers that a document of the distribution would hold can be written.
  `Document.exists_text`, `Document.error_of_not_short` : then it has a text, and otherwise it has none.
* `saveDocument_eq`, `save_of_not_short` : saving makes the directory and writes the text, or writes nothing.
* `load_saved` : what was saved is loaded again, with all that the distribution and its payloads say.
-/

namespace Airdrop

open Outcome

namespace Document

variable {dist : Distribution} {payloads : List Payload} {host : Option String} {p : Payload} {document : Document}

/-- All integers that the document of a distribution with its payloads would hold can be written. -/
def Short (dist : Distribution) (payloads : List Payload) : Prop :=
  Radix.isLong dist.size = false ∧ ∀ p ∈ payloads, p.IsShort

/-- A claim is written unless there is a host and an integer is too long for a link. -/
theorem claim_cases (hp : p.Valid) (hwhole : p.IsWhole) (host : Option String) :
    (∃ fs, claim host p = .ok fs) ∨ claim host p = .error (.value .tooLongToWrite) ∧ ¬p.IsShort := by
  unfold claim
  split
  · exact .inl ⟨_, rfl⟩
  · next host =>
    by_cases hshort : p.IsShort
    · obtain ⟨_, name, -, -, htarget⟩ := Link.exists_target hp.integration
      rw [Link.render_eq htarget hwhole hshort]
      exact .inl ⟨_, rfl⟩
    · rw [Link.render_of_not_isShort hp.integration hshort]
      exact .inr ⟨rfl, hshort⟩

theorem isWritable_iff_short (h : ofDistribution dist payloads host = .ok document) :
    document.toValue.isWritable = true ↔ Short dist payloads := by
  obtain ⟨claims, hclaims, rfl⟩ := ofDistribution_eq_ok.mp h
  have hof := mapM_eq_ok_iff.mp hclaims
  rw [isWritable_toValue]
  refine and_congr_right fun _ => ⟨fun hall p hp => ?_, fun hall fs hfs => ?_⟩
  · obtain ⟨fs, hfs, hclaim⟩ := exists_of_forall₂ hof.flip p hp
    exact (claimOf_of_claim hclaim).isWritable_iff.mp (hall fs hfs)
  · obtain ⟨p, hp, hclaim⟩ := exists_of_forall₂ hof fs hfs
    exact (claimOf_of_claim hclaim).isWritable_iff.mpr (hall p hp)

section
variable (hvalid : ∀ p ∈ payloads, p.Valid) (hwhole : ∀ p ∈ payloads, p.IsWhole)
include hvalid hwhole

theorem exists_text (hshort : Short dist payloads) (host : Option String) :
    ∃ document text, ofDistribution dist payloads host = .ok document ∧ document.text = .ok text := by
  have hclaim : ∀ p ∈ payloads, ∃ fs, claim host p = .ok fs := by
    intro p hp
    rcases claim_cases (hvalid p hp) (hwhole p hp) host with hok | ⟨-, hlong⟩
    · exact hok
    · exact absurd (hshort.2 p hp) hlong
  obtain ⟨claims, hclaims⟩ := exists_mapM hclaim
  have hdocument : ofDistribution dist payloads host = .ok _ := ofDistribution_eq_ok.mpr ⟨claims, hclaims, rfl⟩
  exact ⟨_, _, hdocument, text_eq_ok.mpr ⟨(isWritable_iff_short hdocument).mpr hshort, rfl⟩⟩

/-- With an integer that is too long there is no document, because of a link, or the document has no text. -/
theorem error_of_not_short (hlong : ¬Short dist payloads) (host : Option String) :
    ofDistribution dist payloads host = .error (.value .tooLongToWrite) ∨
      ∃ document, ofDistribution dist payloads host = .ok document ∧
        document.text = .error (.value .tooLongToWrite) := by
  cases hdocument : ofDistribution dist payloads host with
  | ok document =>
    refine .inr ⟨document, rfl, text_eq_error.mpr ⟨?_, rfl⟩⟩
    exact Bool.eq_false_of_not_eq_true fun hwritable => hlong ((isWritable_iff_short hdocument).mp hwritable)
  | error e =>
    have herror : payloads.mapM (claim host) = .error e := by
      rcases bind_eq_error.mp hdocument with herror | ⟨_, -, hno⟩
      · exact herror
      · exact nomatch hno
    obtain ⟨before, p, after, rfl, -, hp⟩ := mapM_eq_error_iff.mp herror
    rcases claim_cases (hvalid p (by simp)) (hwhole p (by simp)) host with ⟨fs, hok⟩ | ⟨hlong, -⟩
    · exact nomatch hok.symm.trans hp
    · exact .inl (congrArg _ (Except.error.inj (hp.symm.trans hlong)))

end

/-- The empty host is none. -/
theorem claim_getD (host : Option String) : claim (some (host.getD "")) = claim host := by
  cases host <;> rfl

theorem ofDistribution_getD (dist : Distribution) (payloads : List Payload) (host : Option String) :
    ofDistribution dist payloads (some (host.getD "")) = ofDistribution dist payloads host := by
  rw [ofDistribution, claim_getD]
  rfl

end Document

namespace Console

variable {dist : Distribution} {payloads : List Payload} {host : Option String} {document : Document} {text : String}
  {d d' : Desk} {file : String}

theorem saveDocument_eq {m : Type → Type} [Monad m] [LawfulMonad m] [MonadConsole m]
    (h : Document.ofDistribution dist payloads host = .ok document) (htext : document.text = .ok text) (p : Path) :
    (saveDocument p (host.getD "") dist payloads : ExceptT Error m Unit) =
      makeDirectories p.parent >>= fun _ => write p (Utf8.ofText text) := by
  unfold saveDocument
  rw [Document.ofDistribution_getD, h]
  refine (pure_bind _ _).trans (bind_congr fun _ => ?_)
  rw [htext]
  exact pure_bind _ _

/-- Where an integer is too long, saving fails, for that or in making the directory, and leaves all files. -/
theorem save_of_not_short (hvalid : ∀ p ∈ payloads, p.Valid) (hwhole : ∀ p ∈ payloads, p.IsWhole)
    (hlong : ¬Document.Short dist payloads) (host : Option String) (p : Path) (d : Desk) :
    ∃ e d',
      (saveDocument p (host.getD "") dist payloads : ExceptT Error (StateM Desk) Unit).run.run d = (.error e, d') ∧
      d'.disk.file? = d.disk.file? ∧ (e = .value .tooLongToWrite ∨
        (makeDirectories p.parent : ExceptT Error (StateM Desk) Unit).run.run d = (.error e, d')) := by
  unfold saveDocument
  rw [Document.ofDistribution_getD]
  rcases Document.error_of_not_short hvalid hwhole hlong host with herror | ⟨document, hdocument, htext⟩
  · rw [herror]
    exact ⟨_, d, rfl, rfl, .inl rfl⟩
  · rw [hdocument, run_bind_of_ok (given_eq_ok.mpr ⟨rfl, rfl⟩)]
    rcases hmake : (makeDirectories p.parent : ExceptT Error (StateM Desk) Unit).run.run d with ⟨e | _, t⟩
    all_goals
      have hfiles : t.disk.file? = d.disk.file? :=
        (keeps_makeDirectories (P := fun disk => disk.file? = d.disk.file?)
          (fun _ _ _ hold hmade => (Disk.file?_of_makeDirectory hmade).trans hold) p.parent).of_run rfl hmake
    · exact ⟨e, t, run_bind_of_error hmake, hfiles, .inr rfl⟩
    · rw [run_bind_of_ok hmake, htext]
      exact ⟨_, t, rfl, hfiles, .inl rfl⟩

/-- A document that was saved is loaded, and the desk is left as it is. -/
theorem load_of_save (hdocument : Document.ofDistribution dist payloads host = .ok document)
    (htext : document.text = .ok text) (hwhole : ∀ p ∈ payloads, p.IsWhole)
    (hsave : (saveDocument (Path.ofText file) (host.getD "") dist payloads :
      ExceptT Error (StateM Desk) Unit).run.run d = (.ok (), d')) :
    (readDocument file : Act (StateM Desk) Document).run.run d' = (.ok document, d') := by
  rw [saveDocument_eq hdocument htext, run_bind_eq_ok] at hsave
  obtain ⟨_, t, hmake, hwrite⟩ := hsave
  have hs := saved_of_save hmake hwrite
  exact run_readDocument (Document.plain_ofDistribution hdocument htext hwhole) htext ⟨hs.noNul, hs.content⟩

/-- What is loaded from a file is what its text is read as. -/
theorem ofText_of_readDocument (hfile : d.Holds file (Utf8.ofText text))
    (hload : (readDocument file : Act (StateM Desk) Document).run.run d = (.ok document, d')) :
    Document.ofText text = .ok document := by
  obtain ⟨⟨content, cs, hheld, hdecode, hread⟩, -⟩ := readDocument_eq_ok.mp hload
  obtain rfl := Except.ok.inj (hfile.content.symm.trans hheld.content)
  obtain rfl := Option.some.inj ((Utf8.decode?_encode text.toList).symm.trans hdecode)
  rwa [String.ofList_toList] at hread

/-- A payload of which nothing but the handle and the amount is remarkable. -/
def owed (handle : RawText) (amount : Int) : Payload :=
  { integration := "transfer", handle, amount, index := 0, target := "b" }

theorem valid_owed {handle : RawText} {amount : Int} (hamount : 0 ≤ amount) : (owed handle amount).Valid :=
  ⟨(by decide : Payload.isIntegration "transfer" = true), hamount, Int.le_refl 0, by simp [owed], by simp [owed]⟩

theorem save_owed {amount : Int} (hamount : 0 ≤ amount) (hlong : Radix.isLong amount = true) (dist : Distribution)
    (host : Option String) (p : Path) (d : Desk) : ∃ e d', (saveDocument p (host.getD "") dist [owed "a" amount] :
      ExceptT Error (StateM Desk) Unit).run.run d = (.error e, d') ∧ d'.disk.file? = d.disk.file? := by
  have hshort : ¬Document.Short dist [owed "a" amount] := fun hshort =>
    Bool.false_ne_true ((Payload.isShort_iff.mp (hshort.2 _ List.mem_cons_self)).1.symm.trans hlong)
  obtain ⟨e, d', hfailed, hfiles, -⟩ := save_of_not_short (List.forall_mem_singleton.mpr (valid_owed hamount))
    (List.forall_mem_singleton.mpr (by simp [owed, Payload.isWhole_iff, RawText.isWhole])) hshort host p d
  exact ⟨e, d', hfailed, hfiles⟩

/-- The document of a distribution of one record with a payload whose handle is torn. -/
def tornDocument : Document where
  root := "EmJ33BnjdsaeV8S7sadMbWfZJNFV5aRzvZ7h6nS5WHw1"
  treeSize := 1
  integration := "transfer"
  hashing := Hasher.describe {}
  claims := [(owed (.torn .halved) 3).toFields]

end Console
end Airdrop
