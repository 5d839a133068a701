import Airdrop.Proofs.Claim.Link
import Airdrop.Proofs.Url.Authority

/-!
# Which links are read

A link is read in three steps, and each can refuse it: the authority must be well-formed, the parameters of the query
must write the fields of a payload, and the payload must be valid. Only the last two steps tell of a claim that cannot
be encoded; a malformed authority is an unusable value.

* `Carries` : parameters write the fields of a payload. The first of the three targets that is there tells its kind
  (`TargetIn`).
* `fields_eq_ok_iff`, `payload_eq_ok_iff` : what is read is what the parameters carry, if it is valid.
* `parse_outcome` : how reading a link ends.
-/

namespace Airdrop.Link

open Outcome

variable {ps : List (String × String)} {kind : Kind} {target : String} {p : Payload}

/-! ## Parameters that carry a payload -/

/-- The integer that a parameter writes, with no more digits than are read. -/
def integer? (text : String) : Option Int := (Numeral.read text.toList).toOption

/-- The texts between the commas of a parameter, without the empty ones. -/
def pieces (text : String) : List String :=
  ((Text.split ',' text.toList).filter fun piece => !piece.isEmpty).map String.ofList

/-- The target among parameters, and the kind that its name tells. -/
inductive TargetIn (ps : List (String × String)) : Kind → String → Prop
  | mint {target : String} (h : ps.lookup "mint" = some target) : TargetIn ps .transfer target
  | config {target : String} (hmint : ps.lookup "mint" = none) (h : ps.lookup "config" = some target) :
      TargetIn ps .candy target
  | master {target : String} (hmint : ps.lookup "mint" = none) (hconfig : ps.lookup "config" = none)
      (h : ps.lookup "master" = some target) : TargetIn ps .edition target

/-- Parameters write the fields of a payload, each under its own name. -/
structure Carries (ps : List (String × String)) (p : Payload) : Prop where
  target : ∃ kind target, TargetIn ps kind target ∧ p.target = .whole target ∧ p.integration = kind.name
  handle : (ps.lookup "handle").map .whole = some p.handle
  amount : (ps.lookup "amount").bind integer? = some p.amount
  index : (ps.lookup "index").bind integer? = some p.index
  pin : ((ps.lookup "pin").filter (· != noPin)).map integer? = p.pin.map some
  proof : (pieces ((ps.lookup "proof").getD "")).map .whole = p.proof
  edition : (ps.lookup "edition").map integer? = p.edition.map some
  distributor : (ps.lookup "distributor").map .whole = p.distributor

theorem TargetIn.exists_find? (h : TargetIn ps kind target) : ∃ name,
    targetParameters.find? (fun x => (ps.lookup x.2).isSome) = some (kind, name) ∧ ps.lookup name = some target := by
  cases h with
  | mint h => exact ⟨"mint", by simp [targetParameters, h], h⟩
  | config hmint h => exact ⟨"config", by simp [targetParameters, hmint, h], h⟩
  | master hmint hconfig h => exact ⟨"master", by simp [targetParameters, hmint, hconfig, h], h⟩

theorem TargetIn.unique {kind' : Kind} {target' : String} (h : TargetIn ps kind target)
    (h' : TargetIn ps kind' target') : kind = kind' ∧ target = target' := by
  obtain ⟨name, hfind, hlook⟩ := h.exists_find?
  obtain ⟨name', hfind', hlook'⟩ := h'.exists_find?
  obtain ⟨rfl, rfl⟩ := Prod.mk.inj (Option.some.inj (hfind.symm.trans hfind'))
  exact ⟨rfl, Option.some.inj (hlook.symm.trans hlook')⟩

theorem exists_targetIn_or (ps : List (String × String)) :
    (∃ kind target, TargetIn ps kind target) ∨ ∀ x ∈ targetParameters, ps.lookup x.2 = none := by
  cases hmint : ps.lookup "mint" with
  | some target => exact Or.inl ⟨_, target, .mint hmint⟩
  | none =>
    cases hconfig : ps.lookup "config" with
    | some target => exact Or.inl ⟨_, target, .config hmint hconfig⟩
    | none =>
      cases hmaster : ps.lookup "master" with
      | some target => exact Or.inl ⟨_, target, .master hmint hconfig hmaster⟩
      | none => exact Or.inr (by simp only [targetParameters, List.forall_mem_cons]; simp [hmint, hconfig, hmaster])

/-! ## Reading parameters -/

theorem required_eq_ok {name value : String} : required name ps = .ok value ↔ ps.lookup name = some value := by
  unfold required
  cases ps.lookup name <;> simp

theorem integer_eq_ok {text : String} {n : Int} : integer text = .ok n ↔ integer? text = some n := by
  unfold integer integer?
  rcases Numeral.read text.toList with (_ | _) | _ <;> simp [Except.toOption]

theorem optionalInteger_eq_ok {text? : Option String} {o : Option Int} :
    optionalInteger text? = .ok o ↔ text?.map integer? = o.map some := by
  cases text? with
  | none => cases o <;> simp [optionalInteger]
  | some text =>
    show (integer text).map some = .ok o ↔ _
    simp only [map_eq_ok, integer_eq_ok]
    cases o <;> simp

/-- The fields that are read from parameters are those of a payload that they carry. -/
theorem fields_eq_ok_iff {fs : Fields} (ht : TargetIn ps kind target) :
    fields kind target ps = .ok fs ↔ ∃ p, Carries ps p ∧ p.toFields = fs := by
  unfold fields
  simp only [bind_eq_ok, required_eq_ok, integer_eq_ok, optionalInteger_eq_ok]
  constructor
  · rintro ⟨handle, hhandle, _, hamount, amount, hamount', _, hindex, index, hindex', pin, hpin, edition, hedition, h⟩
    obtain rfl := Except.ok.inj h
    refine ⟨⟨kind.name, handle, amount, index, pin, (pieces ((ps.lookup "proof").getD "")).map .whole, target, edition,
      (ps.lookup "distributor").map .whole⟩, ?_, ?_⟩
    · exact ⟨⟨kind, target, ht, rfl, rfl⟩, congrArg (Option.map RawText.whole) hhandle,
        Option.bind_eq_some_iff.mpr ⟨_, hamount, hamount'⟩, Option.bind_eq_some_iff.mpr ⟨_, hindex, hindex'⟩,
        hpin, rfl, hedition, rfl⟩
    · cases ps.lookup "distributor" <;> simp [Payload.toFields, pieces, RawText.toValue, Value.ofOption]
  · rintro ⟨p, hp, rfl⟩
    obtain ⟨kind', target', ht', htarget, hkind⟩ := hp.target
    obtain ⟨rfl, rfl⟩ := ht.unique ht'
    obtain ⟨handle, hhandle, hhandle'⟩ := Option.map_eq_some_iff.mp hp.handle
    obtain ⟨amount, hamount, hamount'⟩ := Option.bind_eq_some_iff.mp hp.amount
    obtain ⟨index, hindex, hindex'⟩ := Option.bind_eq_some_iff.mp hp.index
    refine ⟨_, hhandle, _, hamount, _, hamount', _, hindex, _, hindex', _, hp.pin, _, hp.edition, ?_⟩
    simp only [Payload.toFields, ← hp.proof, ← hp.distributor, ← hhandle', htarget, hkind, pieces, List.map_map]
    cases ps.lookup "distributor" <;> rfl

theorem payload_of_targetIn (ht : TargetIn ps kind target) : payload ps =
    (fields kind target ps >>= fun fs => (Payload.form.read fs).mapError .refused).mapError .badLink := by
  obtain ⟨name, hfind, hlook⟩ := ht.exists_find?
  unfold payload
  rw [hfind]
  dsimp only
  rw [hlook]
  rfl

theorem payload_of_no_target (h : ∀ x ∈ targetParameters, ps.lookup x.2 = none) : payload ps = .error .noTarget := by
  have hfind : targetParameters.find? (fun x => (ps.lookup x.2).isSome) = none :=
    List.find?_eq_none.mpr fun x hx => by simp [h x hx]
  unfold payload
  rw [hfind]

/-- What is read from parameters is the valid payload that they carry. -/
theorem payload_eq_ok_iff : payload ps = .ok p ↔ p.Valid ∧ Carries ps p := by
  rcases exists_targetIn_or ps with ⟨kind, target, ht⟩ | hnone
  · rw [payload_of_targetIn ht, mapError_eq_ok, bind_eq_ok]
    simp only [mapError_eq_ok, fields_eq_ok_iff ht]
    constructor
    · rintro ⟨_, ⟨q, hq, rfl⟩, hread⟩
      obtain ⟨hvalid, rfl⟩ := Payload.read_toFields_eq_ok_iff.mp hread
      exact ⟨hvalid, hq⟩
    · rintro ⟨hvalid, hp⟩
      exact ⟨_, ⟨p, hp, rfl⟩, Payload.read_toFields hvalid⟩
  · rw [payload_of_no_target hnone]
    refine iff_of_false (fun hno => nomatch hno) fun ⟨_, hp⟩ => ?_
    obtain ⟨kind, _, ht, -⟩ := hp.target
    obtain ⟨name, hfind, hlook⟩ := ht.exists_find?
    rw [hnone _ (List.mem_of_find?_eq_some hfind)] at hlook
    exact nomatch hlook

/-! ## Reading links -/

def parametersOf (link : String) : List (String × String) :=
  (Query.pairs (Url.queryText link.toList)).map fun (name, value) => (String.ofList name, String.ofList value)

def WellFormed (link : String) : Prop := Url.WellFormed (Url.authority link.toList)

variable {link : String}

theorem parse_of_wellFormed (h : WellFormed link) : parse link = (payload (parametersOf link)).mapError .encoding := by
  have hquery : (Url.query link.toList).mapError (fun fault => Error.value (.badAuthority fault)) =
      .ok (Url.queryText link.toList) :=
    mapError_eq_ok.mpr (Url.query_eq_ok_iff.mpr ⟨h, rfl⟩)
  rw [parse, hquery, ok_bind, parametersOf]

theorem parse_of_query_error {fault : AuthorityFault} (h : Url.query link.toList = .error fault) :
    parse link = .error (.value (.badAuthority fault)) := by
  rw [parse, h]
  rfl

theorem parse_of_not_wellFormed (h : ¬WellFormed link) : ∃ fault, parse link = .error (.value (.badAuthority fault)) :=
  (Url.query_eq_error_iff.mpr h).imp fun _ => parse_of_query_error

theorem parse_eq_ok_iff : parse link = .ok p ↔ WellFormed link ∧ p.Valid ∧ Carries (parametersOf link) p := by
  by_cases hwell : WellFormed link
  · rw [parse_of_wellFormed hwell, mapError_eq_ok, payload_eq_ok_iff]
    exact (and_iff_right hwell).symm
  · obtain ⟨fault, hparse⟩ := parse_of_not_wellFormed hwell
    rw [hparse]
    exact iff_of_false (fun hno => nomatch hno) fun h => hwell h.1

theorem parse_eq_encoding_iff : (∃ fault, parse link = .error (.encoding fault)) ↔
    WellFormed link ∧ ¬∃ p : Payload, p.Valid ∧ Carries (parametersOf link) p := by
  by_cases hwell : WellFormed link
  · rw [parse_of_wellFormed hwell, and_iff_right hwell]
    simp only [← payload_eq_ok_iff]
    cases hp : payload (parametersOf link) with
    | error fault => exact iff_of_true ⟨fault, rfl⟩ fun ⟨_, hno⟩ => nomatch hno
    | ok p => exact iff_of_false (fun ⟨_, hno⟩ => nomatch hno) fun h => h ⟨p, rfl⟩
  · obtain ⟨fault, hparse⟩ := parse_of_not_wellFormed hwell
    rw [hparse]
    exact iff_of_false (fun ⟨_, hno⟩ => nomatch hno) fun h => hwell h.1

theorem parse_eq_badAuthority_iff :
    (∃ fault, parse link = .error (.value (.badAuthority fault))) ↔ ¬WellFormed link := by
  refine ⟨?_, parse_of_not_wellFormed⟩
  rintro ⟨fault, hparse⟩ hwell
  rw [parse_of_wellFormed hwell, mapError_eq_error] at hparse
  obtain ⟨_, -, hno⟩ := hparse
  exact nomatch hno

/-- **How reading a link ends.** A link with a well-formed authority gives the valid payload that its parameters carry,
of the kind that the first of the three targets tells, and an encoding error if they carry none, also where an integer
has more digits than are read. A link with a malformed authority gives neither, whatever its parameters carry: it is
refused as an unusable value. -/
theorem parse_outcome (link : String) :
    (∀ p, parse link = .ok p ↔ WellFormed link ∧ p.Valid ∧ Carries (parametersOf link) p) ∧
    ((∃ fault, parse link = .error (.encoding fault)) ↔
      WellFormed link ∧ ¬∃ p : Payload, p.Valid ∧ Carries (parametersOf link) p) ∧
    ((∃ fault, parse link = .error (.value (.badAuthority fault))) ↔ ¬WellFormed link) :=
  ⟨fun _ => parse_eq_ok_iff, parse_eq_encoding_iff, parse_eq_badAuthority_iff⟩

/-- A link that carries a payload behind an open bracket: it is neither read nor refused with an encoding error. -/
theorem parse_open_bracket :
    (∃ p : Payload, p.Valid ∧
      Carries (parametersOf "http://[::1/?mint=T&handle=a&amount=1&index=0") p) ∧
    (∀ p, parse "http://[::1/?mint=T&handle=a&amount=1&index=0" ≠ .ok p) ∧
    (∀ fault, parse "http://[::1/?mint=T&handle=a&amount=1&index=0" ≠ .error (.encoding fault)) ∧
    parse "http://[::1/?mint=T&handle=a&amount=1&index=0" = .error (.value (.badAuthority .unbalancedBrackets)) := by
  have hparse : parse "http://[::1/?mint=T&handle=a&amount=1&index=0" =
      .error (.value (.badAuthority .unbalancedBrackets)) := by
    have hfront : Url.authority "http://[::1/?mint=T&handle=a&amount=1&index=0".toList = "[::1".toList := by
      decide +kernel
    refine parse_of_query_error ?_
    rw [Url.query_eq, hfront]
    rfl
  refine ⟨⟨{ integration := "transfer", handle := "a", amount := 1, index := 0, target := "T" }, ?_, ?_⟩, ?_, ?_,
    hparse⟩
  · exact ⟨by decide, by decide, by decide, by simp, by simp⟩
  · have hps : parametersOf "http://[::1/?mint=T&handle=a&amount=1&index=0" =
        [("mint", "T"), ("handle", "a"), ("amount", "1"), ("index", "0")] := by decide +kernel
    rw [hps]
    exact ⟨⟨.transfer, _, .mint rfl, rfl, rfl⟩, rfl, by decide, by decide, rfl, rfl, rfl, rfl⟩
  · exact fun p hno => nomatch hparse.symm.trans hno
  · exact fun fault hno => nomatch hparse.symm.trans hno

end Airdrop.Link
