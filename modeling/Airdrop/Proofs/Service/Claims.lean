import Airdrop.Proofs.Claim.Failure
import Airdrop.Proofs.Distribution.Document
import Airdrop.Proofs.Hasher.Description
import Airdrop.Proofs.Service

/-!
# How the service answers a claim

A claim that was read is answered with what its check says, or with what makes the check impossible. Building the hasher
and checking the claim fail with errors of a few families, all of which the service recovers from. What it cannot do is
send a message that shows a torn text, and the name of an unknown algorithm is shown.

* `VerifyRequest.Describes` : a request names an algorithm and writes two tags. `hasher_eq_ok_iff` : these are the
  hasher that is built.
* `Impossible s r e` : the check that a request asks for fails with an error. `Impossible.isValueError`,
  `Impossible.showsTorn_iff` : the service recovers from it, and when its message shows a torn text.
* `answerClaim_cases` : a claim has an answer, unless the message about it cannot be sent.
* `claim_outcome` : how a check ends, and how the service answers for it.
-/

namespace Airdrop

open Outcome
open Hasher (Writes)

/-! ## The hasher of a request -/

namespace VerifyRequest

variable {r : VerifyRequest} {h : Hasher}

/-- The request names the algorithm of a hasher and writes its tags in hexadecimal. -/
structure Describes (r : VerifyRequest) (h : Hasher) : Prop where
  algorithm : r.algorithm = .whole h.algorithm.name
  leafTag : Writes r.leafTag h.leafTag
  nodeTag : Writes r.nodeTag h.nodeTag

/-- The request writes two tags, but its name of an algorithm is torn. -/
structure NamesTorn (r : VerifyRequest) : Prop where
  algorithm : ∃ t, r.algorithm = .torn t
  leafTag : ∃ tag, Writes r.leafTag tag
  nodeTag : ∃ tag, Writes r.nodeTag tag

theorem hasher_eq_ok_iff : r.hasher = .ok h ↔ r.Describes h := by
  rw [hasher, Hasher.ofValues_eq_ok_iff]
  exact ⟨fun ⟨halgorithm, hleaf, hnode⟩ => ⟨halgorithm, hleaf, hnode⟩,
    fun ⟨halgorithm, hleaf, hnode⟩ => ⟨halgorithm, hleaf, hnode⟩⟩

/-- A hasher cannot be built because a value is unusable, and a torn text is shown only if it is the algorithm's
name. -/
theorem hasher_eq_error {e : Error} (h : r.hasher = .error e) :
    (∃ fault, e = .value fault) ∧ (e.showsTorn = true → r.NamesTorn) := by
  rcases Hasher.ofValues_eq_error h with ⟨i, rfl⟩ | ⟨hleaf, hnode, rfl⟩
  · exact ⟨⟨_, rfl⟩, fun hno => nomatch hno⟩
  · refine ⟨⟨_, rfl⟩, fun htorn => ⟨?_, hleaf, hnode⟩⟩
    cases halgorithm : r.algorithm with
    | whole name =>
      rw [halgorithm] at htorn
      exact nomatch htorn
    | torn t => exact ⟨t, rfl⟩

theorem NamesTorn.hasher_eq (h : r.NamesTorn) : ∃ e, r.hasher = .error e ∧ e.showsTorn = true := by
  obtain ⟨⟨t, ht⟩, hleaf, hnode⟩ := h
  refine ⟨.value (.unsupportedAlgorithm (.torn t)), ?_, rfl⟩
  rw [hasher, ht]
  exact Hasher.ofValues_of_torn hleaf hnode

/-- A request is plain if its claim and its other texts are whole and its integers short. -/
theorem plain_toValue (hwhole : r.claim.IsWhole) (hshort : r.claim.IsShort)
    (htexts : ∀ t ∈ [r.root, r.algorithm, r.leafTag, r.nodeTag], t.isWhole = true)
    (hsize : ∀ n, r.treeSize = some n → Radix.isLong n = false) : r.toValue.Plain 3 := by
  have hcount : (Value.ofOption .int r.treeSize).Plain 2 := by
    cases hown : r.treeSize with
    | none => exact .null
    | some n => exact .int (hsize n hown)
  simp only [List.forall_mem_cons] at htexts
  obtain ⟨hroot, halgorithm, hleaf, hnode, -⟩ := htexts
  refine .object (by decide : ["claim", "root", "hash_algorithm", "leaf_prefix_hex", "node_prefix_hex",
    "tree_size"].Nodup) ?_
  simp only [List.forall_mem_cons]
  exact ⟨Document.ClaimOf.bare.plain hwhole hshort, RawText.plain_toValue hroot, RawText.plain_toValue halgorithm,
    RawText.plain_toValue hleaf, RawText.plain_toValue hnode, hcount, fun _ hno => nomatch hno⟩

end VerifyRequest

/-! ## The answer -/

namespace Service

open Airdrop.Claim (CannotCheck)

variable {s : Settings} {r : VerifyRequest} {e : Error}

/-- The check that a request asks for cannot be made: there is no such hasher, or the claim cannot be checked. -/
inductive Impossible (s : Settings) (r : VerifyRequest) : Error → Prop
  | hasher {e : Error} (hhasher : r.hasher = .error e) : Impossible s r e
  | check {h : Hasher} {e : Error} (hh : r.Describes h)
      (hcheck : Claim.verify r.claim r.root h (.text s.program) r.treeSize = .error e) : Impossible s r e

theorem checkClaim_eq_ok_iff {valid : Bool} : checkClaim s r = .ok valid ↔
    ∃ h, r.Describes h ∧ Claim.verify r.claim r.root h (.text s.program) r.treeSize = .ok valid := by
  rw [checkClaim, bind_eq_ok]
  simp only [VerifyRequest.hasher_eq_ok_iff]

theorem checkClaim_eq_error_iff : checkClaim s r = .error e ↔ Impossible s r e := by
  rw [checkClaim, bind_eq_error]
  constructor
  · rintro (hhasher | ⟨h, hh, hcheck⟩)
    · exact .hasher hhasher
    · exact .check (VerifyRequest.hasher_eq_ok_iff.mp hh) hcheck
  · rintro (hhasher | ⟨hh, hcheck⟩)
    · exact .inl hhasher
    · exact .inr ⟨_, VerifyRequest.hasher_eq_ok_iff.mpr hh, hcheck⟩

theorem Impossible.unique {e' : Error} (hi : Impossible s r e) (hi' : Impossible s r e') : e = e' :=
  Except.error.inj ((checkClaim_eq_error_iff.mpr hi).symm.trans (checkClaim_eq_error_iff.mpr hi'))

/-- The service recovers from what makes a check impossible. -/
theorem Impossible.isValueError (hi : Impossible s r e) : e.isValueError = true := by
  cases hi with
  | hasher hhasher =>
    obtain ⟨⟨fault, rfl⟩, -⟩ := VerifyRequest.hasher_eq_error hhasher
    rfl
  | check _ hcheck =>
    cases (Claim.endsIn_verify _ _ _ _ _).of_error hcheck with
    | encoding | proof | unencodable | tooLong => rfl

/-- The message shows a torn text only if that is the name of the algorithm. -/
theorem Impossible.showsTorn_iff (hi : Impossible s r e) : e.showsTorn = true ↔ r.NamesTorn := by
  constructor
  · intro htorn
    cases hi with
    | hasher hhasher => exact (VerifyRequest.hasher_eq_error hhasher).2 htorn
    | check _ hcheck =>
      have hclean := ((Claim.endsIn_verify _ _ _ _ _).of_error hcheck).showsTorn
      exact absurd (hclean.symm.trans htorn) Bool.false_ne_true
  · intro htorn
    obtain ⟨e', hhasher, he'⟩ := htorn.hasher_eq
    exact hi.unique (.hasher hhasher) ▸ he'

/-- A claim is answered with what its check says, or with the message of what makes it impossible, if that can be
sent. -/
theorem answerClaim_cases (s : Settings) (r : VerifyRequest) :
    (∃ valid, checkClaim s r = .ok valid ∧ ¬r.NamesTorn ∧ answerClaim s r = .ok (.claimValid valid)) ∨
    (∃ e, Impossible s r e ∧ ¬r.NamesTorn ∧ answerClaim s r = .ok (.unusable e.detail)) ∨
    (∃ e, Impossible s r e) ∧ r.NamesTorn ∧ answerClaim s r = .error (.plain .unencodable) := by
  unfold answerClaim
  cases hcheck : checkClaim s r with
  | ok valid =>
    refine .inl ⟨valid, rfl, fun htorn => ?_, rfl⟩
    obtain ⟨e, hhasher, -⟩ := htorn.hasher_eq
    exact nomatch hcheck.symm.trans (checkClaim_eq_error_iff.mpr (.hasher hhasher))
  | error e =>
    have hi := checkClaim_eq_error_iff.mp hcheck
    have hfault : answerFault e = if e.showsTorn then .error (.plain .unencodable) else .ok (.unusable e.detail) := by
      rw [answerFault, hi.isValueError]
      rfl
    by_cases htorn : r.NamesTorn
    · refine .inr (.inr ⟨⟨e, hi⟩, htorn, hfault.trans ?_⟩)
      rw [hi.showsTorn_iff.mpr htorn]
      rfl
    · exact .inr (.inl ⟨e, hi, htorn, hfault.trans (if_neg (mt hi.showsTorn_iff.mp htorn))⟩)

theorem answerClaim_eq_claimValid_iff {valid : Bool} :
    answerClaim s r = .ok (.claimValid valid) ↔ checkClaim s r = .ok valid := by
  rcases answerClaim_cases s r with ⟨other, hcheck, -, hanswer⟩ | ⟨e, hi, -, hanswer⟩ | ⟨⟨e, hi⟩, -, hanswer⟩
  · rw [hcheck, hanswer]
    simp
  · rw [checkClaim_eq_error_iff.mpr hi, hanswer]
    simp
  · rw [checkClaim_eq_error_iff.mpr hi, hanswer]
    simp

theorem answerClaim_eq_unusable_iff {detail : String} :
    answerClaim s r = .ok (.unusable detail) ↔ ¬r.NamesTorn ∧ ∃ e, Impossible s r e ∧ e.detail = detail := by
  simp only [← checkClaim_eq_error_iff]
  rcases answerClaim_cases s r with ⟨valid, hcheck, -, hanswer⟩ | ⟨e, hi, htorn, hanswer⟩ | ⟨-, htorn, hanswer⟩
  · rw [hcheck, hanswer]
    simp
  · rw [checkClaim_eq_error_iff.mpr hi, hanswer]
    simp [htorn]
  · rw [hanswer]
    simp [htorn]

theorem answerClaim_eq_error_iff :
    answerClaim s r = .error e ↔ r.NamesTorn ∧ e = .plain .unencodable := by
  rcases answerClaim_cases s r with ⟨valid, -, htorn, hanswer⟩ | ⟨_, -, htorn, hanswer⟩ | ⟨-, htorn, hanswer⟩ <;>
    rw [hanswer]
  · simp [htorn]
  · simp [htorn]
  · simp [htorn, eq_comm]

theorem handle_claim {limit : Option String} {now : String} {q : Request} {max : Int} (hmethod : q.method = "POST")
    (hpath : q.path = "/claims/verify") (hmax : maxBytes s limit = .ok max) (hsize : exceeds q max = false)
    (hread : input VerifyRequest.form q = .ok r) : handle s limit now q = answerClaim s r := by
  rw [handle_eq hmax (route_verifyClaim hmethod hpath), hsize, if_neg Bool.false_ne_true, answer, hread]

/-- How a check of a claim ends, and how the service answers for it. Whatever the claim, the root, the hasher, the
program and the size are, a check says yes or no or fails with an encoding error or a proof error, except that the
handle of a claim with a PIN may be torn, and that a number of the claim or the size may be too long for the message
about it. A request with a claim that its form reads is answered with what the check under the described hasher says, or
as unusable with the message of the error if there is no such hasher or the check fails. There is no third answer, and
the service fails only if the name of the algorithm is torn and the tags can be read. -/
theorem claim_outcome (s : Settings) :
    (∀ (p : Payload) (root : Bytes) (h : Hasher) (program : Value) (size : Option Int),
      EndsIn (CannotCheck p size) (Claim.verifyBytes p root h program size)) ∧
    (∀ (p : Payload) (root : RawText) (h : Hasher) (program : Value) (size : Option Int),
      EndsIn (CannotCheck p size) (Claim.verify p root h program size)) ∧
    ∀ (limit : Option String) (now : String) (q : Request) (max : Int) (r : VerifyRequest), q.method = "POST" →
      q.path = "/claims/verify" → maxBytes s limit = .ok max → exceeds q max = false →
      input VerifyRequest.form q = .ok r →
      (∀ valid, handle s limit now q = .ok (.claimValid valid) ↔
        ∃ h, r.Describes h ∧ Claim.verify r.claim r.root h (.text s.program) r.treeSize = .ok valid) ∧
      (∀ detail, handle s limit now q = .ok (.unusable detail) ↔
        ¬r.NamesTorn ∧ ∃ e, Impossible s r e ∧ e.detail = detail) ∧
      (∀ e, handle s limit now q = .error e ↔ r.NamesTorn ∧ e = .plain .unencodable) ∧
      (¬r.NamesTorn → ∃ response, handle s limit now q = .ok response ∧
        (response.status = 200 ∧ (∃ valid, response = .claimValid valid) ∧ ¬ (∃ e, Impossible s r e) ∨
          response.status = 400 ∧ (∃ detail, response = .unusable detail) ∧ ∃ e, Impossible s r e)) := by
  refine ⟨Claim.endsIn_verifyBytes, Claim.endsIn_verify, fun limit now q max r hmethod hpath hmax hsize hread => ?_⟩
  rw [handle_claim hmethod hpath hmax hsize hread]
  refine ⟨fun valid => ?_, fun detail => answerClaim_eq_unusable_iff, fun e => answerClaim_eq_error_iff,
    fun hwhole => ?_⟩
  · rw [answerClaim_eq_claimValid_iff, checkClaim_eq_ok_iff]
  · rcases answerClaim_cases s r with ⟨valid, hcheck, -, hanswer⟩ | ⟨e, hi, -, hanswer⟩ | ⟨-, htorn, -⟩
    · refine ⟨_, hanswer, .inl ⟨rfl, ⟨valid, rfl⟩, ?_⟩⟩
      rintro ⟨e, hi⟩
      exact nomatch hcheck.symm.trans (checkClaim_eq_error_iff.mpr hi)
    · exact ⟨_, hanswer, .inr ⟨rfl, ⟨e.detail, rfl⟩, e, hi⟩⟩
    · exact absurd htorn hwhole

def requested : VerifyRequest where
  claim :=
    { integration := "transfer"
      handle := "11111111111111111111111111111111"
      amount := 3
      index := 0
      target := "11111111111111111111111111111113" }
  root := "A1ybXyscZtKQred2Z3pUpXNHQdqbeydTxTzBShUjuovz"
  treeSize := some 1

/-- The request as it is sent. -/
def sent : Request where
  method := "POST"
  path := "/claims/verify"
  headers := [("content-type", "application/json")]
  body := Utf8.encode (Json.pretty requested.toValue)

theorem input_sent : input VerifyRequest.form sent = .ok requested := by
  have hdocument : document sent = .ok requested.toValue :=
    document_pretty ((requested.plain_toValue (by decide) (by decide) (by decide) (by decide)).mono (by decide))
      (by decide +kernel) rfl
  rw [input_of_document hdocument]
  rfl

/-- The request is answered positively. -/
theorem claim_outcome_transfer : handle {} none "" sent = .ok (.claimValid true) := by
  have hanswer := (claim_outcome {}).2.2 none "" sent _ requested rfl rfl rfl (by decide +kernel) input_sent
  refine (hanswer.1 true).mpr ⟨{}, ⟨rfl, ⟨"", rfl, rfl⟩, ⟨"", rfl, rfl⟩⟩, toOption_eq_some.mp ?_⟩
  decide +kernel

/-- A claim with a PIN and a torn handle. -/
def halvedClaim : Payload := { requested.claim with handle := .torn .halved, pin := some 5 }

/-- The claim with another amount. -/
def paying (amount : Int) : Payload := { requested.claim with amount }

theorem verify_paying {amount : Int} (hlong : Radix.isLong amount = true) :
    Claim.verify (paying amount) requested.root {} (.text Claim.defaultProgram) none =
      .error (.value .tooLongToWrite) := by
  have hleaf : Claim.leaf (paying amount) (.text Claim.defaultProgram) = .ok (.transfer (.int 0)
      (.bytes (List.replicate 32 0)) (.bytes (List.replicate 31 0 ++ [2])) (.int amount)) := rfl
  have hencode : Leaf.encode (.transfer (.int 0) (.bytes (List.replicate 32 0))
      (.bytes (List.replicate 31 0 ++ [2])) (.int amount)) = .error (.value .tooLongToWrite) := by
    rw [Leaf.encode, Leaf.encodeNat_of_isLong hlong (by decide)]
    rfl
  have hsiblings : Claim.siblings (paying amount) = .ok [] := rfl
  obtain ⟨root, hroot⟩ : ∃ root, (Claim.rootOfText requested.root).mapError Error.encoding = .ok root := ⟨_, rfl⟩
  rw [Claim.verify, hroot, ok_bind, Claim.verifyBytes, hsiblings, ok_bind, hleaf, ok_bind, Leaf.hash, hencode]
  rfl

def unsendable : VerifyRequest := { requested with algorithm := .torn .halved }

/-- The request as it is sent. -/
def sentTorn : Request := { sent with body := Utf8.encode (Json.pretty unsendable.toValue) }

/-- The claim with an amount of 5001 digits and the claim with a torn handle are valid, but their checks fail with
neither of the two kinds of errors; and to the request with the torn name there is no answer. -/
theorem unanswered_of_torn_algorithm :
    ((paying (10 ^ 5000 : Nat)).Valid ∧
      Claim.verify (paying (10 ^ 5000 : Nat)) requested.root {} (.text Claim.defaultProgram) none =
        .error (.value .tooLongToWrite)) ∧
    (halvedClaim.Valid ∧ Claim.verify halvedClaim requested.root {} (.text Claim.defaultProgram) none =
      .error (.unencodable .halved)) ∧
    input VerifyRequest.form sentTorn = .ok unsendable ∧
    handle {} none "" sentTorn = .error (.plain .unencodable) := by
  have hlong : Radix.isLong (10 ^ 5000 : Nat) = true := Radix.isLong_ten_pow (k := 5000) (by decide)
  have hread : input VerifyRequest.form sentTorn = .ok unsendable := toOption_eq_some.mp (by decide +kernel)
  have hintegration : Payload.isIntegration "transfer" = true := by decide
  refine ⟨⟨⟨hintegration, Int.natCast_nonneg _, Int.le_refl 0, (fun _ hno => nomatch hno), (fun _ hno => nomatch hno)⟩,
    verify_paying hlong⟩, ⟨⟨by decide, by decide, by decide, by decide, by decide⟩, rfl⟩, hread, ?_⟩
  rw [handle_claim rfl rfl rfl (by decide +kernel) hread]
  rfl

end Service
end Airdrop
