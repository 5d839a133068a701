import Airdrop.Proofs.Form
import Airdrop.Proofs.Json.Pretty
import Airdrop.Proofs.Json.Reading
import Airdrop.Proofs.Outcome
import Airdrop.Proofs.Text.Utf8
import Airdrop.Service

/-!
# How the service takes requests

* `handle_eq` : a request to an endpoint is answered there unless it is too large.
* `document_pretty` : an object arrives as it was written. `isJson_of_document` : what an object that arrives can hold.
* `verifyRoot_answered` : which signed roots are answered with the status 200.
-/

namespace Airdrop.Service

open Outcome

variable {s : Settings} {limit : Option String} {now : String} {r : Request} {e : Endpoint} {max : Int}

theorem handle_eq (hmax : maxBytes s limit = .ok max) (hroute : route r = .ok e) :
    handle s limit now r = if exceeds r max then .ok .tooLarge else answer s now r e := by
  unfold handle
  rw [hmax, ok_bind]
  simp only [hroute]
  split <;> rfl

/-- A request with the method and the path of an endpoint gets there. -/
theorem route_of_mem (h : (r.method, r.path, e) ∈ routes) : route r = .ok e := by
  simp only [routes, List.mem_cons, Prod.mk.injEq, List.not_mem_nil, or_false] at h
  unfold route
  rcases h with ⟨hmethod, hpath, rfl⟩ | ⟨hmethod, hpath, rfl⟩ | ⟨hmethod, hpath, rfl⟩ <;>
    simp [hmethod, hpath, routes]

theorem route_verifyRoot (hmethod : r.method = "POST") (hpath : r.path = "/roots/verify") :
    route r = .ok .verifyRoot := by
  refine route_of_mem ?_
  rw [hmethod, hpath]
  simp [routes]

theorem route_verifyClaim (hmethod : r.method = "POST") (hpath : r.path = "/claims/verify") :
    route r = .ok .verifyClaim := by
  refine route_of_mem ?_
  rw [hmethod, hpath]
  simp [routes]

theorem exists_cons_pretty_object (fs : Fields) : ∃ cs, Json.pretty (.object fs) = '\x7b' :: cs := by
  cases fs with
  | nil => exact ⟨_, rfl⟩
  | cons f fs => exact ⟨_, rfl⟩

/-- An object arrives as it was written, with the content type of JSON. -/
theorem document_pretty {fs : Fields} (hplain : (Value.object fs).Plain depthLimit)
    (hjson : (header? r "content-type").any isJson = true) (hbody : r.body = Utf8.encode (Json.pretty (.object fs))) :
    document r = .ok (.object fs) := by
  obtain ⟨cs, hcs⟩ := exists_cons_pretty_object fs
  have htext : textOf? r.body = some (Json.pretty (.object fs)) := by
    unfold textOf?
    rw [hbody, Utf8.decode?_encode, hcs]
    rfl
  have hempty : r.body.isEmpty = false := by
    cases hnil : r.body with
    | nil =>
      rw [hnil] at htext
      rw [hcs] at htext
      exact nomatch htext
    | cons b bs => rfl
  unfold document
  rw [hempty, hjson, htext]
  simp only [Json.read_pretty hplain]
  rfl

theorem input_of_document {α : Type} {form : Form α} {v : Value} (h : document r = .ok v) :
    input form r = (form.readRequest v).mapError fun refusal => refuse v refusal.issues := by
  rw [input, h]
  rfl

/-- Where a body is refused, the answer has the status of a refusal. -/
theorem status_of_refuse {v : Value} {issues : List Issue} {response : Response}
    (h : refuse v issues = .ok response) : response.status = 422 := by
  unfold refuse at h
  simp only [ite_error_eq_ok] at h
  obtain ⟨-, -, -, h⟩ := h
  exact Except.ok.inj h ▸ rfl

theorem answer_verifyRoot {fs : Fields} {root : SignedRoot} (hdocument : document r = .ok (.object fs))
    (hread : SignedRoot.form.fields .request fs = .accepted root) :
    answer s now r .verifyRoot = .ok (.signatureValid (SignedRoot.isValid root.toFields)) := by
  have hinput : input SignedRoot.form r = .ok root := by
    rw [input_of_document hdocument, mapError_eq_ok, Form.readRequest, Reading.outcome_eq_ok,
      Reading.within_eq_accepted]
    exact hread
  unfold answer
  rw [hinput]

/-- An object that arrives is one that a text can hold. -/
theorem isJson_of_document {fs : Fields} (h : document r = .ok (.object fs)) : (Value.object fs).IsJson := by
  unfold document at h
  split at h
  · exact nomatch h
  · split at h
    · exact nomatch h
    · split at h
      · exact nomatch h
      · split at h
        · next hread =>
          obtain rfl := Except.ok.inj h
          exact Json.isJson_of_read hread
        · exact nomatch h
        · exact nomatch h
        · exact nomatch h

/-- A signed root is answered with the status 200 only if the form reads it; the answer is about what was read. -/
theorem verifyRoot_answered {fs : Fields} {response : Response} (hmethod : r.method = "POST")
    (hpath : r.path = "/roots/verify") (hdocument : document r = .ok (.object fs))
    (h : handle s limit now r = .ok response) (hstatus : response.status = 200) :
    ∃ root, SignedRoot.form.fields .request fs = .accepted root ∧
      response = .signatureValid (SignedRoot.isValid root.toFields) := by
  obtain ⟨max, hmax, -⟩ := bind_eq_ok.mp h
  rw [handle_eq hmax (route_verifyRoot hmethod hpath)] at h
  split at h
  · obtain rfl := Except.ok.inj h
    exact absurd hstatus (by decide)
  · simp only [answer, input_of_document hdocument] at h
    cases hread : SignedRoot.form.readRequest (.object fs) with
    | error refusal =>
      rw [hread] at h
      exact absurd ((status_of_refuse h).symm.trans hstatus) (by decide)
    | ok root =>
      rw [hread] at h
      unfold Form.readRequest at hread
      rw [Reading.outcome_eq_ok, Reading.within_eq_accepted] at hread
      exact ⟨root, hread, (Except.ok.inj h).symm⟩

end Airdrop.Service
