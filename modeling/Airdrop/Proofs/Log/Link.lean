import Airdrop.Log
import Airdrop.Proofs.Claim.Link
import Airdrop.Proofs.Log.Redaction

/-!
# Links in logs

The PIN of a link stands between ampersands, as the value of a secret parameter.

* `render_pin` : a link is one text around its PIN, or there is no link, whatever the PIN is.
* `pin_redacted` : messages with the links of two payloads that differ in their PINs alone are redacted to one message.
-/

namespace Airdrop

theorem Message.redacted_of_text? {m : Message} {cs : List Char} (h : m.text? = some cs) :
    m.redacted = { template := Redaction.redact cs } := by
  unfold redacted
  rw [h]

/-- A log whose logger or handler redacts writes the same for messages that are redacted to one message. -/
theorem Log.emit_of_redacted {log : Log} {name : String} {m m' : Message} (hsame : m.redacted = m'.redacted)
    (hredacts : (log.logger name).redacts = true ∨ log.hasHandler = true ∧ log.handlerRedacts = true) (level : Int) :
    log.emit name level m = log.emit name level m' := by
  unfold emit
  cases hlogger : (log.logger name).redacts with
  | true => rw [if_pos rfl, if_pos rfl, hsame]
  | false =>
    obtain ⟨hhandler, hredacts⟩ := hredacts.resolve_left (ne_true_of_eq_false hlogger)
    simp only [hhandler, hredacts, Bool.and_self, Bool.false_eq_true, if_false, if_true, hsame]

namespace Query

/-- A parameter's value does not end within a written text. -/
theorem isValueChar_of_isWritten {c : Char} (h : isWritten c = true) : Redaction.isValueChar c = true := by
  have hall : ∀ n < 128, isWritten (Char.ofNat n) = true → Redaction.isValueChar (Char.ofNat n) = true := by decide
  rw [← Char.ofNat_toNat c] at h ⊢
  exact hall _ (toNat_lt_of_isWritten (by rwa [Char.ofNat_toNat] at h)) h

end Query

namespace Link

open Outcome

variable {p q : Payload} {target : String}

theorem pinString_ne_nil (pin : Option Int) : (pinString pin).toList ≠ [] := by
  cases pin with
  | none => decide
  | some n =>
    rw [pinString, Option.map_some, Option.getD_some, numeral, String.toList_ofList]
    exact Radix.integer_ne_nil n

/-- A short PIN has no part in whether a payload is short. -/
theorem isShort_with_pin {pin : Option Int} (hpin : ∀ n, pin = some n → Radix.isLong n = false) :
    ({ p with pin } : Payload).IsShort ↔ ({ p with pin := none } : Payload).IsShort := by
  simp only [Payload.isShort_iff]
  constructor
  · rintro ⟨hamount, hindex, hedition, -⟩
    exact ⟨hamount, hindex, hedition, fun _ hno => nomatch hno⟩
  · rintro ⟨hamount, hindex, hedition, -⟩
    exact ⟨hamount, hindex, hedition, hpin⟩

/-- The parameters of a payload in front of its PIN. -/
def lead (target : String) (p : Payload) : List (String × RawText) :=
  distributorParameter p.distributor ++ [(target, p.target)] ++
    (p.edition.map fun n => ("edition", .whole (numeral n))).toList ++
    [("handle", p.handle), ("amount", .whole (numeral p.amount)), ("index", .whole (numeral p.index))]

theorem written_with_pin (target : String) (p : Payload) (pin : Option Int) : written target { p with pin } =
    lead target p ++ [("pin", .whole (pinString pin)), ("proof", proofText p.proof)] :=
  (List.append_assoc _ [_, _, _] [_, _]).symm

theorem render_append {front : List (List Char × List Char)} (hfront : front ≠ []) (x y : List Char × List Char) :
    Query.render (front ++ [x, y]) =
      Query.render front ++ '&' :: (Query.encode x.1 ++ '=' :: Query.encode x.2 ++ '&' :: Query.render [y]) := by
  simp only [Query.render, List.map_append]
  rw [Text.join_append (by simpa using hfront) (by simp)]
  simp [Text.join]

theorem parameters_with_pin (hshort : ({ p with pin := none } : Payload).IsShort) {pin : Option Int}
    (hpin : ∀ n, pin = some n → Radix.isLong n = false) : parameters target { p with pin } =
      .ok (lead target p ++ [("pin", .whole (pinString pin)), ("proof", proofText p.proof)]) := by
  rw [← written_with_pin]
  exact parameters_eq ((isShort_with_pin hpin).mpr hshort)

/-- A PIN stands in UTF-8, so it has no part in whether the parameters around it do. -/
theorem mapM_encodable_pin (front : List (String × RawText)) (pin : Option Int) (proof : String × RawText) :
    (front ++ [("pin", .whole (pinString pin)), proof]).mapM encodable = (do
      let front ← front.mapM encodable
      let proof ← encodable proof
      return front ++ [("pin".toList, (pinString pin).toList), proof]) := by
  rw [List.mapM_append]
  cases front.mapM encodable with
  | error e => rfl
  | ok front =>
    simp only [List.mapM_cons]
    cases encodable proof <;> rfl

theorem ne_nil_of_lead {front : List (List Char × List Char)} (h : (lead target p).mapM encodable = .ok front) :
    front ≠ [] := by
  rintro rfl
  have hlength := (mapM_eq_ok_iff.mp h).length_eq
  simp [lead] at hlength

/-- A link is one text around its PIN, or there is no link, whatever the PIN is. -/
theorem render_pin (host : String) (hp : Payload.isIntegration p.integration = true) :
    ∃ around : Except Error (List Char × List Char), ∀ pin, (∀ n, pin = some n → Radix.isLong n = false) →
      render host { p with pin } = around.map fun (front, rest) => String.ofList
        (front ++ '&' :: ("pin".toList ++ '=' :: Query.encode (pinString pin).toList ++ '&' :: rest)) := by
  obtain ⟨kind, target, -, -, htarget⟩ := exists_target hp
  by_cases hshort : ({ p with pin := none } : Payload).IsShort
  · refine ⟨do
      let front ← (lead target p).mapM encodable
      let proof ← encodable ("proof", proofText p.proof)
      return (Text.trimRight (· == '/') host.toList ++ "/claim?".toList ++ Query.render front, Query.render [proof]),
      fun pin hpin => ?_⟩
    have hname : Query.encode "pin".toList = "pin".toList := by decide
    simp only [render, htarget, parameters_with_pin hshort hpin, ok_bind, mapM_encodable_pin]
    cases hlead : (lead target p).mapM encodable with
    | error e => rfl
    | ok front =>
      cases encodable ("proof", proofText p.proof) with
      | error e => rfl
      | ok proof =>
        simp only [ok_bind, pure, Except.pure, render_append (ne_nil_of_lead hlead), hname, ← List.append_assoc]
        rfl
  · refine ⟨.error (.value .tooLongToWrite), fun pin hpin => ?_⟩
    have hparameters : parameters target { p with pin } = .error (.value .tooLongToWrite) :=
      parameters_of_not_isShort ((isShort_with_pin hpin).not.mpr hshort)
    simp only [render, htarget, hparameters]
    rfl

/-- No PIN gets into the logs with a link. Payloads that differ in their PINs alone both have a link at every host,
unless another integer is too long or a text is torn; then they have none for one reason. Messages with one link and the
other between the same texts are redacted to one message. So wherever a logger or the handler redacts, the log shows the
same for both. -/
theorem pin_redacted (hp : p.Valid) (hsame : { p with pin := none } = { q with pin := none }) (host : String) :
    (p.IsWhole → p.IsShort → q.IsShort → ∃ link link', render host p = .ok link ∧ render host q = .ok link') ∧
    (q.Valid → ∀ e, render host p = .error e ↔ render host q = .error e) ∧
    ∀ link link', render host p = .ok link → render host q = .ok link' →
      ∀ (front rest : List Char) (m m' : Message), m.text? = some (front ++ link.toList ++ rest) →
        m'.text? = some (front ++ link'.toList ++ rest) → m.redacted = m'.redacted ∧
          ∀ (log : Log) (name : String) (level : Int),
            (log.logger name).redacts = true ∨ log.hasHandler = true ∧ log.handlerRedacts = true →
            log.emit name level m = log.emit name level m' := by
  have hother : q = { p with pin := q.pin } := congrArg (fun x : Payload => { x with pin := q.pin }) hsame.symm
  obtain ⟨around, haround⟩ := render_pin host hp.integration
  have hown := haround p.pin hp.isLong_pin
  have hown' (hpin : ∀ n, q.pin = some n → Radix.isLong n = false) := haround q.pin hpin
  rw [← hother] at hown'
  refine ⟨fun hwhole hshort hshort' => ?_, fun hq e => ?_, fun link link' hlink hlink' front rest m m' hm hm' => ?_⟩
  · obtain ⟨-, target, -, -, htarget⟩ := exists_target hp.integration
    have hlink : render host p = .ok _ := render_eq htarget hwhole hshort
    rw [hown, map_eq_ok] at hlink
    obtain ⟨_, hlink, -⟩ := hlink
    exact ⟨_, _, hown.trans (congrArg _ hlink), (hown' (Payload.isShort_iff.mp hshort').2.2.2).trans (congrArg _ hlink)⟩
  · rw [hown, hown' hq.isLong_pin, map_eq_error, map_eq_error]
  · have hkind : p.integration = q.integration := (Payload.mk.inj hsame).1
    have hshort := Payload.isShort_iff.mp (isShort_of_render (hkind ▸ hp.integration) hlink')
    rw [hown, map_eq_ok] at hlink
    rw [hown' hshort.2.2.2, map_eq_ok] at hlink'
    obtain ⟨⟨start, tail⟩, rfl, rfl⟩ := hlink
    obtain ⟨_, hsame, rfl⟩ := hlink'
    obtain rfl := Except.ok.inj hsame
    obtain ⟨redacted, hredacted⟩ := Redaction.redact_secret (show "pin" ∈ Redaction.secretNames by decide)
      (front ++ start) (tail ++ rest)
    have hlink {m : Message} {pin : Option Int} (hm : m.text? = some (front ++ (String.ofList (start ++ '&' ::
        ("pin".toList ++ '=' :: Query.encode (pinString pin).toList ++ '&' :: tail))).toList ++ rest)) :
        m.redacted = { template := redacted } := by
      have hvalue := hredacted (Query.encode (pinString pin).toList) (Query.encode_ne_nil (pinString_ne_nil pin))
        fun c hc => Query.isValueChar_of_isWritten (Query.isWritten_of_mem_encode _ c hc)
      rw [Message.redacted_of_text? hm, ← hvalue]
      simp
    have hmessage : m.redacted = m'.redacted := (hlink hm).trans (hlink hm').symm
    exact ⟨hmessage, fun log name level hredacts => Log.emit_of_redacted hmessage hredacts level⟩

/-- A claim with the handle `pin=7 c` and a PIN, if it has one. -/
def secretive (pin : Option Int) : Payload :=
  { integration := "transfer", handle := "pin=7 c", amount := 3, index := 0, pin, target := "d" }

/-- A claim with the PIN 5 and the same claim without a PIN, in a message that names credentials. -/
theorem pin_redacted_five : ∃ link link', render "https://a/?key=b" (secretive (some 5)) = .ok link ∧
    render "https://a/?key=b" (secretive none) = .ok link' ∧ link ≠ link' ∧
    ({ template := "Authorization e ".toList ++ link.toList } : Message).redacted =
      ({ template := "Authorization e ".toList ++ link'.toList } : Message).redacted := by
  have hne : (render "https://a/?key=b" (secretive (some 5))).toOption ≠
      (render "https://a/?key=b" (secretive none)).toOption := by
    decide +kernel
  obtain ⟨hlinks, -, hredacted⟩ := pin_redacted (p := secretive (some 5)) (q := secretive none)
    ⟨by decide, by decide, by decide, by simp [secretive], by simp [secretive, pinBound]⟩ rfl "https://a/?key=b"
  obtain ⟨link, link', hlink, hlink'⟩ := hlinks (by decide) (by decide) (by decide)
  refine ⟨link, link', hlink, hlink', ?_,
    (hredacted link link' hlink hlink' "Authorization e ".toList [] _ _ ?_ ?_).1⟩
  · rintro rfl
    rw [hlink, hlink'] at hne
    exact hne rfl
  · exact congrArg some (List.append_nil _).symm
  · exact congrArg some (List.append_nil _).symm

end Link
end Airdrop
