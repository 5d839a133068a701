import Airdrop.Claim.Link
import Airdrop.Proofs.Claim.Issue
import Airdrop.Proofs.Number.Numeral
import Airdrop.Proofs.Url
import Airdrop.Proofs.Url.Query

/-!
# Links carry payloads

A link is taken apart into parameters, the parameters into fields, and the form reads the fields. `parse_render` goes
back the same way: the query is what stands behind the host, every parameter is found under its own name, and the fields
found are those of the payload.

* `Payload.Linkable` : no sibling disappears between the commas. The payloads of a distribution are linkable
  (`Distribution.linkable_of_issue`), and so is whatever a link carries (`linkable_of_parse`).
* `Payload.delivered` : what arrives of a payload; of an empty distributor nothing does.
* `strings` : the parameters of a payload without torn texts and long integers. `render_eq` : a link holds these, and
  `render_of_not_isShort` : with a long integer there is no link.
-/

namespace Airdrop

open Outcome

def RawText.chars : RawText → List Char
  | whole s => s.toList
  | torn _ => []

/-- A text that is not torn as a string. -/
def RawText.string (t : RawText) : String := String.ofList t.chars

theorem RawText.whole_string {t : RawText} (h : t.isWhole = true) : .whole t.string = t := by
  cases t with
  | whole s => simp [string, chars]
  | torn t => exact nomatch h

theorem RawText.codes_eq {t : RawText} (h : t.isWhole = true) : t.codes = t.chars.map .char := by
  cases t with
  | whole s => rfl
  | torn t => exact nomatch h

/-! ## Payloads that fit into a link -/

namespace Payload

/-- The siblings can be told apart when commas stand between them. -/
def Linkable (p : Payload) : Prop := ∀ s ∈ p.proof, s ≠ .whole "" ∧ .char ',' ∉ s.codes

instance (p : Payload) : Decidable p.Linkable :=
  inferInstanceAs (Decidable (∀ s ∈ p.proof, s ≠ .whole "" ∧ .char ',' ∉ s.codes))

/-- The payload that a link delivers. -/
def delivered (p : Payload) : Payload := { p with distributor := p.distributor.filter fun d => !d.isEmpty }

variable {p : Payload}

theorem Valid.delivered (h : p.Valid) : p.delivered.Valid := ⟨h.integration, h.amount, h.index, h.edition, h.pin⟩

end Payload

namespace Link

open Payload (Linkable)

/-! ## Integers and siblings as texts -/

def numeral (n : Int) : String := String.ofList (Radix.integer n)

theorem number_eq_ok_iff {n : Int} {t : RawText} :
    number n = .ok t ↔ Radix.isLong n = false ∧ .whole (numeral n) = t := by
  unfold number Radix.integerText?
  cases Radix.isLong n <;> simp [numeral]

theorem number_eq_error {n : Int} {e : Error} (h : number n = .error e) : e = .value .tooLongToWrite := by
  unfold number at h
  split at h
  · exact nomatch h
  · exact (Except.error.inj h).symm

theorem integer_numeral {n : Int} (h : Radix.isLong n = false) : integer (numeral n) = .ok n := by
  unfold integer numeral
  rw [String.toList_ofList, Numeral.read_integer, h]
  rfl

/-- No integer is written like an absent PIN, for that text is no integer. -/
theorem numeral_ne_noPin {n : Int} (h : Radix.isLong n = false) : numeral n ≠ noPin := by
  intro heq
  have hread := integer_numeral h
  rw [heq] at hread
  exact nomatch hread

theorem optionalInteger_map {o : Option Int} (h : ∀ n, o = some n → Radix.isLong n = false) :
    optionalInteger (o.map numeral) = .ok o := by
  cases o with
  | none => rfl
  | some n =>
    rw [Option.map_some, optionalInteger, integer_numeral (h n rfl)]
    rfl

theorem join_map_char : ∀ pieces : List (List Char),
    Text.join [CodePoint.char ','] (pieces.map (·.map .char)) = (Text.join [','] pieces).map .char
  | [] => rfl
  | [piece] => rfl
  | piece :: next :: rest => by
    have ih := join_map_char (next :: rest)
    rw [List.map_cons] at ih
    rw [List.map_cons, List.map_cons, Text.join, ih, Text.join, List.map_append, List.map_append]
    rfl

theorem proofText_eq {proof : List RawText} (h : ∀ s ∈ proof, s.isWhole = true) :
    proofText proof = .whole (String.ofList (Text.join [','] (proof.map RawText.chars))) := by
  have hcodes : proof.map RawText.codes = (proof.map RawText.chars).map (·.map .char) := by
    rw [List.map_map]
    exact List.map_congr_left fun s hs => RawText.codes_eq (h s hs)
  rw [proofText, hcodes, join_map_char, RawText.ofCodes_char]

theorem pieces_join {proof : List RawText} (hwhole : ∀ s ∈ proof, s.isWhole = true)
    (h : ∀ s ∈ proof, s ≠ .whole "" ∧ .char ',' ∉ s.codes) :
    ((Text.split ',' (Text.join [','] (proof.map RawText.chars))).filter fun piece => !piece.isEmpty) =
      proof.map RawText.chars := by
  by_cases hnil : proof = []
  · subst hnil
    rfl
  have hpieces : ∀ piece ∈ proof.map RawText.chars, piece ≠ [] ∧ ',' ∉ piece := by
    intro piece hpiece
    obtain ⟨s, hs, rfl⟩ := List.mem_map.mp hpiece
    obtain ⟨hne, hcomma⟩ := h s hs
    constructor
    · intro hempty
      refine hne ?_
      rw [← RawText.whole_string (hwhole s hs), RawText.string, hempty, String.ofList_nil]
    · rw [RawText.codes_eq (hwhole s hs)] at hcomma
      exact fun hmem => hcomma (List.mem_map_of_mem hmem)
  rw [Text.split_join (by simpa using hnil) fun piece hpiece => (hpieces piece hpiece).2, List.filter_eq_self]
  intro piece hpiece
  simpa using (hpieces piece hpiece).1

/-! ## Parameters -/

def pinString (pin : Option Int) : String := (pin.map numeral).getD noPin

/-- The parameters of a payload without long integers. -/
def written (name : String) (p : Payload) : List (String × RawText) :=
  distributorParameter p.distributor ++ [(name, p.target)] ++
    (p.edition.map fun n => ("edition", .whole (numeral n))).toList ++
    [("handle", p.handle), ("amount", .whole (numeral p.amount)), ("index", .whole (numeral p.index)),
      ("pin", .whole (pinString p.pin)), ("proof", proofText p.proof)]

def strings (name : String) (p : Payload) : List (String × String) :=
  (p.delivered.distributor.map fun d => ("distributor", d.string)).toList ++ [(name, p.target.string)] ++
    (p.edition.map fun n => ("edition", numeral n)).toList ++
    [("handle", p.handle.string), ("amount", numeral p.amount), ("index", numeral p.index),
      ("pin", pinString p.pin),
      ("proof", String.ofList (Text.join [','] (p.proof.map RawText.chars)))]

/-- What parameters tell of a payload: all of its fields, each under its own name, and no target of another kind. -/
structure Tells (ps : List (String × String)) (kind : Kind) (name : String) (p : Payload) : Prop where
  kind : targetParameters.find? (fun x => (ps.lookup x.2).isSome) = some (kind, name)
  target : ps.lookup name = some p.target.string
  distributor : ps.lookup "distributor" = p.delivered.distributor.map RawText.string
  edition : ps.lookup "edition" = p.edition.map numeral
  handle : ps.lookup "handle" = some p.handle.string
  amount : ps.lookup "amount" = some (numeral p.amount)
  index : ps.lookup "index" = some (numeral p.index)
  pin : (ps.lookup "pin").filter (· != noPin) = p.pin.map numeral
  proof : ps.lookup "proof" = some (String.ofList (Text.join [','] (p.proof.map RawText.chars)))

section
variable {p : Payload} {kind : Kind} {name : String} {ps : List (String × String)}

theorem optionalNumber_eq {name : String} {o : Option Int} (h : ∀ n, o = some n → Radix.isLong n = false) :
    optionalNumber name o = .ok (o.map fun n => (name, .whole (numeral n))).toList := by
  cases o with
  | none => rfl
  | some n =>
    rw [optionalNumber, number_eq_ok_iff.mpr ⟨h n rfl, rfl⟩]
    rfl

theorem optionalNumber_eq_error {name : String} {o : Option Int} {e : Error} (h : optionalNumber name o = .error e) :
    e = .value .tooLongToWrite := by
  cases o with
  | none => exact nomatch h
  | some n => exact number_eq_error (map_eq_error.mp h)

theorem pinText_eq {o : Option Int} (h : ∀ n, o = some n → Radix.isLong n = false) :
    pinText o = .ok (.whole (pinString o)) := by
  cases o with
  | none => rfl
  | some n => exact number_eq_ok_iff.mpr ⟨h n rfl, rfl⟩

theorem pinText_eq_error {o : Option Int} {e : Error} (h : pinText o = .error e) : e = .value .tooLongToWrite := by
  cases o with
  | none => exact nomatch h
  | some n => exact number_eq_error h

theorem distributorParameter_eq (hwhole : p.IsWhole) : distributorParameter p.distributor =
    (p.delivered.distributor.map fun d => ("distributor", .whole d.string)).toList := by
  obtain ⟨-, -, -, hdistributor⟩ := Payload.isWhole_iff.mp hwhole
  unfold Payload.delivered
  cases hown : p.distributor with
  | none => rfl
  | some d =>
    have hd := RawText.whole_string (hdistributor d hown)
    by_cases hempty : d.isEmpty = true <;> simp [distributorParameter, hempty, hd, Option.filter]

/-- A payload without long integers has its parameters. -/
theorem parameters_eq (hshort : p.IsShort) : parameters name p = .ok (written name p) := by
  obtain ⟨hamount, hindex, hedition, hpin⟩ := Payload.isShort_iff.mp hshort
  unfold parameters
  rw [optionalNumber_eq hedition, number_eq_ok_iff.mpr ⟨hamount, rfl⟩, number_eq_ok_iff.mpr ⟨hindex, rfl⟩,
    pinText_eq hpin]
  rfl

/-- Without torn texts the parameters are strings. -/
theorem written_eq (hwhole : p.IsWhole) : written name p = (strings name p).map fun (k, s) => (k, .whole s) := by
  obtain ⟨hhandle, htarget, hproof, -⟩ := Payload.isWhole_iff.mp hwhole
  rw [written, distributorParameter_eq hwhole, proofText_eq hproof]
  simp only [strings, List.map_append, List.map_cons, List.map_nil, Option.toList_map,
    RawText.whole_string hhandle, RawText.whole_string htarget]
  cases p.delivered.distributor <;> cases p.edition <;> rfl

theorem isShort_of_parameters {ps : List (String × RawText)} (h : parameters name p = .ok ps) : p.IsShort := by
  simp only [parameters, bind_eq_ok] at h
  obtain ⟨_, hserial, _, hamount, _, hindex, _, hown, -⟩ := h
  refine Payload.isShort_iff.mpr ⟨(number_eq_ok_iff.mp hamount).1, (number_eq_ok_iff.mp hindex).1, ?_, ?_⟩
  · intro n hn
    rw [hn] at hserial
    obtain ⟨_, hserial, -⟩ := map_eq_ok.mp hserial
    exact (number_eq_ok_iff.mp hserial).1
  · intro n hn
    rw [hn] at hown
    exact (number_eq_ok_iff.mp hown).1

/-- A payload has parameters unless one of its integers is too long, and then the refusal says so. -/
theorem parameters_of_not_isShort (h : ¬p.IsShort) : parameters name p = .error (.value .tooLongToWrite) := by
  cases hps : parameters name p with
  | ok ps => exact absurd (isShort_of_parameters hps) h
  | error e =>
    simp only [parameters, bind_eq_error] at hps
    rcases hps with he | ⟨_, -, he | ⟨_, -, he | ⟨_, -, he | ⟨_, -, hno⟩⟩⟩⟩
    · rw [optionalNumber_eq_error he]
    · rw [number_eq_error he]
    · rw [number_eq_error he]
    · rw [pinText_eq_error he]
    · exact nomatch hno

theorem lookup_toList {α : Type} (x name : String) (f : α → String) (o : Option α) :
    (o.map fun a => (name, f a)).toList.lookup x = if x = name then o.map f else none := by
  cases o <;> simp

theorem lookup_strings (name : String) (p : Payload) (x : String) : (strings name p).lookup x =
    (((if x = "distributor" then p.delivered.distributor.map RawText.string else none).or
      ([(name, p.target.string)].lookup x)).or (if x = "edition" then p.edition.map numeral else none)).or
      ([("handle", p.handle.string), ("amount", numeral p.amount), ("index", numeral p.index),
        ("pin", pinString p.pin),
        ("proof", String.ofList (Text.join [','] (p.proof.map RawText.chars)))].lookup x) := by
  rw [strings, List.lookup_append, List.lookup_append, List.lookup_append, lookup_toList, lookup_toList]

theorem tells_strings (hname : (kind, name) ∈ targetParameters) (hshort : p.IsShort) :
    Tells (strings name p) kind name p := by
  have hpin : (some (pinString p.pin)).filter (· != noPin) = p.pin.map numeral := by
    cases hown : p.pin with
    | none => rfl
    | some n => simp [pinString, Option.filter, numeral_ne_noPin ((Payload.isShort_iff.mp hshort).2.2.2 n hown)]
  -- For each of the three kinds every field is looked up, and its name stands in one part of the parameters only.
  simp only [targetParameters, List.mem_cons, List.not_mem_nil, or_false, Prod.mk.injEq] at hname
  rcases hname with ⟨rfl, rfl⟩ | ⟨rfl, rfl⟩ | ⟨rfl, rfl⟩ <;> constructor <;>
    simp [lookup_strings, List.lookup_cons, targetParameters, hpin]

theorem text_string {t : RawText} (h : t.isWhole = true) : Value.text t.string = t.toValue := by
  rw [← RawText.whole_string h]
  simp [RawText.string, RawText.chars, RawText.toValue]

theorem fields_of_tells (h : Tells ps kind name p) (hkind : kind.name = p.integration) (hl : p.Linkable)
    (hwhole : p.IsWhole) (hshort : p.IsShort) : fields kind p.target.string ps = .ok p.delivered.toFields := by
  obtain ⟨hamount, hindex, hedition, hpin⟩ := Payload.isShort_iff.mp hshort
  obtain ⟨hhandle, htarget, hproof, hdistributor⟩ := Payload.isWhole_iff.mp hwhole
  have hpath : (p.proof.map RawText.chars).map (fun piece => Value.text (String.ofList piece)) =
      p.proof.map RawText.toValue := by
    rw [List.map_map]
    exact List.map_congr_left fun s hs => text_string (hproof s hs)
  have hpayer : Value.ofOption Value.text (p.delivered.distributor.map RawText.string) =
      Value.ofOption RawText.toValue p.delivered.distributor := by
    cases hown : p.delivered.distributor with
    | none => rfl
    | some d => exact text_string (hdistributor d (Option.filter_eq_some_iff.mp hown).1)
  unfold fields required
  rw [h.handle, h.amount, h.index, h.pin, h.proof, h.edition, h.distributor]
  simp only [ok_bind, integer_numeral hamount, integer_numeral hindex, optionalInteger_map hedition,
    optionalInteger_map hpin, Option.getD_some, String.toList_ofList, pieces_join hproof hl, hpath, hkind, hpayer,
    text_string hhandle, text_string htarget]
  rfl

theorem payload_of_tells (h : Tells ps kind name p) (hkind : kind.name = p.integration) (hvalid : p.Valid)
    (hl : p.Linkable) (hwhole : p.IsWhole) (hshort : p.IsShort) : payload ps = .ok p.delivered := by
  unfold payload
  rw [h.kind]
  simp only [h.target, Option.getD_some, fields_of_tells h hkind hl hwhole hshort]
  rw [mapError_eq_ok, bind_eq_ok]
  exact ⟨_, rfl, mapError_eq_ok.mpr (Payload.read_toFields hvalid.delivered)⟩

theorem exists_target {integration : String} (h : Payload.isIntegration integration = true) :
    ∃ kind name, (kind, name) ∈ targetParameters ∧ kind.name = integration ∧
      targetParameter? integration = some name := by
  obtain ⟨kind, hkind⟩ := Option.isSome_iff_exists.mp h
  obtain ⟨hindexed, rfl⟩ := Claim.integration?_eq_some_iff.mp hkind
  cases kind with
  | transfer => exact ⟨.transfer, "mint", by decide, rfl, by decide⟩
  | candy => exact ⟨.candy, "config", by decide, rfl, by decide⟩
  | edition => exact ⟨.edition, "master", by decide, rfl, by decide⟩
  | ingredient => exact absurd hindexed Bool.false_ne_true

end

/-! ## Links -/

section
variable {host : String} {p : Payload} {link : String}

/-- What a host may be that a link is made for. -/
def IsHost (host : String) : Prop := ∀ c ∈ host.toList, Url.isFrontChar c = true

instance (host : String) : Decidable (IsHost host) :=
  decidable_of_iff (host.toList.all Url.isFrontChar = true) List.all_eq_true

theorem query_render (hhost : IsHost host) (ps : List (List Char × List Char)) :
    Url.query (Text.trimRight (· == '/') host.toList ++ "/claim?".toList ++ Query.render ps) =
      .ok (Query.render ps) := by
  have hfront : ∀ c ∈ Text.trimRight (· == '/') host.toList ++ "/claim".toList, Url.isFrontChar c = true := by
    have hpath : ∀ c ∈ "/claim".toList, Url.isFrontChar c = true := List.all_eq_true.mp (by decide)
    intro c hc
    rcases List.mem_append.mp hc with hc | hc
    · unfold Text.trimRight at hc
      have hin := (List.dropWhile_suffix _).subset (List.mem_reverse.mp hc)
      exact hhost c (List.mem_reverse.mp hin)
    · exact hpath c hc
  -- What would end the query or be dropped from it is written with a percent sign.
  have hquery : ∀ c ∈ ['\t', '\r', '\n', ':', '#'], c ∉ Query.render ps := by
    have hnone : ∀ c ∈ ['\t', '\r', '\n', ':', '#'], Query.isWritten c = false ∧ c ≠ '&' ∧ c ≠ '=' := by
      intro c hc
      simp only [List.mem_cons, List.not_mem_nil, or_false] at hc
      rcases hc with rfl | rfl | rfl | rfl | rfl <;> decide
    intro c hc
    obtain ⟨hwritten, hand, hequals⟩ := hnone c hc
    exact Query.not_mem_render hwritten hand hequals ps
  have hcut := Url.query_front hfront hquery
  rw [List.append_assoc] at hcut ⊢
  exact hcut

theorem render_eq {name : String} (htarget : targetParameter? p.integration = some name) (hwhole : p.IsWhole)
    (hshort : p.IsShort) : render host p = .ok (String.ofList (Text.trimRight (· == '/') host.toList ++
      "/claim?".toList ++ Query.render ((strings name p).map fun x => (x.1.toList, x.2.toList)))) := by
  have hquery : ((strings name p).map fun x => (x.1, RawText.whole x.2)).mapM encodable =
      .ok ((strings name p).map fun x => (x.1.toList, x.2.toList)) := by
    rw [List.mapM_map]
    exact mapM_eq_ok _ fun x _ => rfl
  simp only [render, htarget, parameters_eq hshort, written_eq hwhole, ok_bind, hquery]
  rfl

/-- With an integer that is too long there is no link. -/
theorem render_of_not_isShort (hintegration : Payload.isIntegration p.integration = true) (hlong : ¬p.IsShort) :
    render host p = .error (.value .tooLongToWrite) := by
  obtain ⟨kind, name, -, -, htarget⟩ := exists_target hintegration
  simp only [render, htarget, parameters_of_not_isShort hlong]
  rfl

theorem isShort_of_render (hintegration : Payload.isIntegration p.integration = true) (h : render host p = .ok link) :
    p.IsShort := by
  by_contra hlong
  rw [render_of_not_isShort hintegration hlong] at h
  exact nomatch h

/-- A link delivers its payload. -/
theorem parse_of_render (hhost : IsHost host) (hvalid : p.Valid) (hl : p.Linkable) (hwhole : p.IsWhole)
    (hshort : p.IsShort) : ∃ link, render host p = .ok link ∧ parse link = .ok p.delivered := by
  obtain ⟨kind, name, hmem, hkind, htarget⟩ := exists_target hvalid.integration
  refine ⟨_, render_eq htarget hwhole hshort, ?_⟩
  have hstrings : (((strings name p).map fun x => (x.1.toList, x.2.toList)).map fun x =>
      (String.ofList x.1, String.ofList x.2)) = strings name p := by
    rw [List.map_map]
    exact List.map_id'' (fun x => by simp) _
  unfold parse
  rw [String.toList_ofList, query_render hhost]
  refine mapError_eq_ok.mpr ?_
  rw [Query.pairs_render, hstrings]
  exact payload_of_tells (tells_strings hmem hshort) hkind hvalid hl hwhole hshort

/-- The siblings among the fields of a link are the pieces between its commas, without the empty ones. -/
theorem proof_of_fields {kind : Kind} {target : String} {ps : List (String × String)} {fs : Fields}
    (h : fields kind target ps = .ok fs) : ∃ proof : List RawText,
      (∀ s ∈ proof, s ≠ .whole "" ∧ .char ',' ∉ s.codes) ∧
      Value.lookup "proof" fs = some (.list (proof.map RawText.toValue)) := by
  unfold fields at h
  simp only [bind_eq_ok] at h
  obtain ⟨_, -, _, -, _, -, _, -, _, -, _, -, _, -, h⟩ := h
  obtain rfl := Except.ok.inj h
  refine ⟨(_ : List (List Char)).map fun piece => .whole (String.ofList piece), ?_, by rw [List.map_map]; rfl⟩
  intro s hs
  obtain ⟨piece, hpiece, rfl⟩ := List.mem_map.mp hs
  obtain ⟨hsplit, hne⟩ := List.mem_filter.mp hpiece
  have hcomma := Text.not_mem_of_mem_split hsplit
  refine ⟨fun hempty => ?_, by simpa using hcomma⟩
  have hnil : piece = [] := by simpa using congrArg String.toList (RawText.whole.inj hempty)
  simp [hnil] at hne

/-- What a link carries fits into a link. -/
theorem linkable_of_parse (h : parse link = .ok p) : p.Valid ∧ p.Linkable := by
  unfold parse at h
  rw [bind_eq_ok] at h
  obtain ⟨query, -, h⟩ := h
  rw [mapError_eq_ok] at h
  unfold payload at h
  split at h
  · exact nomatch h
  · rw [mapError_eq_ok, bind_eq_ok] at h
    obtain ⟨fs, hfs, hread⟩ := h
    rw [mapError_eq_ok] at hread
    obtain ⟨proof, hproof, hlookup⟩ := proof_of_fields hfs
    refine ⟨Payload.valid_of_read hread, ?_⟩
    rw [Payload.Linkable, Payload.proof_of_read hread hlookup]
    exact hproof

end

/-! ## The payloads of a distribution -/

section
open Airdrop.Distribution (ofRecords Built built_of_ofRecords entry targetText)

variable {h : Hasher} {d : Distribution} {records : List Leaf} {encodings : List Bytes} {rows : List Claimant}
  {distributor : Option RawText} {payloads : List Payload}

theorem text_ne_empty {bs : Bytes} (hbs : bs ≠ []) : Base58.text bs ≠ "" := by
  intro hempty
  have hread := Base58.ofText?_text bs
  rw [hempty] at hread
  exact hbs (Option.some.inj hread).symm

theorem comma_not_mem_text (bs : Bytes) : ',' ∉ (Base58.text bs).toList := by
  have hcomma : ',' ∉ Base58.alphabet := by decide
  rw [Base58.text, String.toList_ofList]
  exact fun hmem => hcomma (Base58.mem_alphabet bs ',' hmem)

theorem isIndexed_of_target? {l : Leaf} {v : Value} {kind : Kind} (hl : l.target? = some v) (hk : l.kind = .ok kind) :
    kind.isIndexed = true := by
  cases l with
  | transfer | candy | edition => exact Except.ok.inj hk ▸ rfl
  | ingredient | foreign => exact nomatch hl

theorem linkable_of_payload (hb : Built h records encodings d) {e : Entry} {row : Claimant} {p : Payload}
    (he : e ∈ d.entries) (hrow : row.Valid) (hp : Distribution.payload d.kind distributor e row = .ok p) :
    p.Valid ∧ p.Linkable := by
  obtain ⟨i, hi⟩ := List.getElem?_of_mem he
  obtain ⟨l, encoded, hl, hencoded, rfl⟩ := hb.of_getElem?_entries hi
  have hlt : i < (d.tree.levels.headD []).length := by
    rw [hb.length_leaves]
    exact (List.getElem?_eq_some_iff.mp hencoded).1
  unfold Distribution.payload at hp
  rw [bind_eq_ok] at hp
  obtain ⟨target, htarget, hp⟩ := hp
  obtain rfl := Except.ok.inj hp
  -- Only records of an indexed kind have a target, so there is no payload of another kind.
  have hkind : d.kind.isIndexed = true := by
    unfold targetText at htarget
    split at htarget
    · next hkey => exact isIndexed_of_target? hkey (hb.admitted.kind_eq l (List.mem_of_getElem? hl))
    · exact nomatch htarget
    · exact nomatch htarget
  have hintegration : Payload.isIntegration d.kind.name = true := by
    unfold Payload.isIntegration
    rw [Claim.integration?_name hkind]
    rfl
  refine ⟨⟨hintegration, hrow.amount, Int.natCast_nonneg i, hrow.edition, hrow.pin⟩, ?_⟩
  intro s hs
  obtain ⟨sibling, hsibling, rfl⟩ := List.mem_map.mp hs
  have hlength := hb.tower.length_of_mem_siblings i hlt sibling hsibling
  have hne : sibling ≠ [] := by
    rintro rfl
    exact absurd hlength (by decide)
  refine ⟨fun hempty => text_ne_empty hne (RawText.whole.inj hempty), ?_⟩
  simpa using comma_not_mem_text sibling

/-- The payloads of a distribution are valid, and they fit into links. -/
theorem linkable_of_issue (hd : ofRecords h records = .ok d) (hrows : ∀ row ∈ rows, row.Valid)
    (hissue : d.issue rows distributor = .ok payloads) : ∀ p ∈ payloads, p.Valid ∧ p.Linkable := by
  obtain ⟨encodings, hb⟩ := built_of_ofRecords hd
  unfold Distribution.issue at hissue
  rw [ite_error_eq_ok, mapM_eq_ok_iff] at hissue
  intro p hp
  obtain ⟨⟨e, row⟩, hmem, hpayload⟩ := exists_of_forall₂ hissue.2 p hp
  obtain ⟨he, hrow⟩ := List.of_mem_zip hmem
  exact linkable_of_payload hb he (hrows row hrow) hpayload

end

/-! ## Round trip -/

/-- A payload of which nothing but the amount is remarkable. -/
def paying (amount : Int) : Payload := { integration := "transfer", handle := "a", amount, index := 0, target := "b" }

end Link
end Airdrop
