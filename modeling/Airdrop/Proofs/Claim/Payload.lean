import Airdrop.Claim.Payload
import Airdrop.Proofs.Claim.Record
import Airdrop.Proofs.Form
import Airdrop.Proofs.Value

/-!
# Valid rows and payloads

* `Claimant.Valid`, `Payload.Valid` : what the two forms demand of the values that they read. `Claimant.valid_iff` : the
  rows that the form reads are the valid ones.
* `Payload.read_toFields` : a valid payload is read back from its fields, and so it is when a link stands among them
  (`Payload.ofClaim_insert_url`). `Payload.valid_iff` : the valid payloads are those that the form reads.
* `Payload.IsWhole`, `Payload.IsShort` : the payloads whose texts are strings and whose integers can be written.
-/

namespace Airdrop

open Check Form Reading

theorem atLeast_zero_int {source : Source} {n : Int} (h : 0 ≤ n) : atLeast 0 integer source (.int n) = .accepted n :=
  atLeast_eq_accepted.mpr ⟨rfl, h⟩

theorem pin_int {source : Source} {n : Int} (h : 0 ≤ n ∧ n < (pinBound : Int)) :
    atLeast 0 (lessThan pinBound integer) source (.int n) = .accepted n :=
  atLeast_eq_accepted.mpr ⟨lessThan_eq_accepted.mpr ⟨rfl, h.2⟩, h.1⟩

theorem nonneg_of_atLeast {source : Source} (n m : Int) (h : atLeast 0 integer source (.int n) = .accepted m) :
    0 ≤ n := by
  obtain ⟨hint, hle⟩ := atLeast_eq_accepted.mp h
  obtain rfl := Reading.accepted.inj hint
  exact hle

theorem pin_of_atLeast {source : Source} (n m : Int)
    (h : atLeast 0 (lessThan pinBound integer) source (.int n) = .accepted m) : 0 ≤ n ∧ n < (pinBound : Int) := by
  obtain ⟨hint, hle⟩ := atLeast_eq_accepted.mp h
  obtain ⟨hint, hlt⟩ := lessThan_eq_accepted.mp hint
  obtain rfl := Reading.accepted.inj hint
  exact ⟨hle, hlt⟩

theorem nonneg_of_read {name : String} {source : Source} {fs : Fields} {o : Option Int}
    (h : withDefault name (optional (atLeast 0 integer)) none source fs = .accepted o) : ∀ n, o = some n → 0 ≤ n := by
  refine of_withDefault (P := fun o => ∀ n, o = some n → 0 ≤ n) h (fun _ hno => nomatch hno) fun v hv => ?_
  exact of_optional hv fun n hn => (atLeast_eq_accepted.mp hn).2

theorem pin_of_read {name : String} {source : Source} {fs : Fields} {o : Option Int}
    (h : withDefault name (optional (atLeast 0 (lessThan pinBound integer))) none source fs = .accepted o) :
    ∀ n, o = some n → 0 ≤ n ∧ n < (pinBound : Int) := by
  refine of_withDefault (P := fun o => ∀ n, o = some n → 0 ≤ n ∧ n < (pinBound : Int)) h (fun _ hno => nomatch hno)
    fun v hv => ?_
  refine of_optional hv fun n hn => ?_
  obtain ⟨hlt, hle⟩ := atLeast_eq_accepted.mp hn
  exact ⟨hle, (lessThan_eq_accepted.mp hlt).2⟩

theorem toValue_ne_null (s : RawText) : s.toValue ≠ .null := by cases s <;> exact fun hno => nomatch hno

namespace Claimant

/-- What the form demands of a row. -/
structure Valid (c : Claimant) : Prop where
  handle : isHandle c.handle = true
  amount : 0 ≤ c.amount
  edition : ∀ n, c.edition = some n → 0 ≤ n
  pin : ∀ n, c.pin = some n → 0 ≤ n ∧ n < (pinBound : Int)

theorem valid_of_read {c : Claimant} {fs : Fields} (h : form.read fs = .ok c) : c.Valid := by
  rw [read_eq_ok_iff] at h
  simp only [form, seq_eq_accepted, map_eq_accepted] at h
  obtain ⟨_, url, ⟨_, pin, ⟨_, edition, ⟨_, amount, ⟨handle, hhandle, rfl⟩, hamount, rfl⟩, hedition, rfl⟩, hpin, rfl⟩,
    -, rfl⟩ := h
  obtain ⟨_, -, hhandle⟩ := required_eq_accepted.mp hhandle
  obtain ⟨_, -, hamount⟩ := required_eq_accepted.mp hamount
  exact ⟨(satisfying_eq_accepted.mp hhandle).2, (atLeast_eq_accepted.mp hamount).2, nonneg_of_read hedition,
    pin_of_read hpin⟩

/-- A valid row is read back from its fields. -/
theorem exists_read {c : Claimant} (h : c.Valid) : ∃ fs, c.toValue = .object fs ∧ form.read fs = .ok c := by
  refine ⟨_, rfl, read_eq_ok_iff.mpr ?_⟩
  have hhandle : satisfying isHandle "handle must not be blank" text .call c.handle.toValue = .accepted c.handle :=
    satisfying_eq_accepted.mpr ⟨text_toValue c.handle, h.handle⟩
  have hamount : atLeast 0 integer .call (.int c.amount) = .accepted c.amount := atLeast_zero_int h.amount
  have hedition : optional (atLeast 0 integer) .call (Value.ofOption .int c.edition) = .accepted c.edition :=
    optional_ofOption (fun _ hno => nomatch hno) fun n hn => atLeast_zero_int (h.edition n hn)
  have hpin : optional (atLeast 0 (lessThan pinBound integer)) .call (Value.ofOption .int c.pin) = .accepted c.pin :=
    optional_ofOption (fun _ hno => nomatch hno) fun n hn => pin_int (h.pin n hn)
  have hurl : optional text .call (Value.ofOption RawText.toValue c.url) = .accepted c.url :=
    optional_ofOption toValue_ne_null fun s _ => text_toValue s
  simp only [form]
  rw [required_of_lookup rfl hhandle, required_of_lookup rfl hamount, withDefault_of_lookup rfl hedition,
    withDefault_of_lookup rfl hpin, withDefault_of_lookup rfl hurl]
  rfl

/-- The valid rows are those that the form reads. -/
theorem valid_iff {c : Claimant} : c.Valid ↔ ∃ fs, form.read fs = .ok c :=
  ⟨fun h => (exists_read h).imp fun _ hfs => hfs.2, fun ⟨_, h⟩ => valid_of_read h⟩

end Claimant

/-- One half of a surrogate pair. -/
def TornText.halved : TornText := ⟨[.ofHalf 0xD800], rfl⟩

namespace Payload

/-- What the form demands of a payload. -/
structure Valid (p : Payload) : Prop where
  integration : isIntegration p.integration = true
  amount : 0 ≤ p.amount
  index : 0 ≤ p.index
  edition : ∀ n, p.edition = some n → 0 ≤ n
  pin : ∀ n, p.pin = some n → 0 ≤ n ∧ n < (pinBound : Int)

def numbers (p : Payload) : List Int := p.amount :: p.index :: (p.edition.toList ++ p.pin.toList)

/-- The texts of a payload, the kind of its distribution apart. -/
def texts (p : Payload) : List RawText := p.handle :: p.target :: (p.proof ++ p.distributor.toList)

/-- Every integer of the payload can be written. -/
def IsShort (p : Payload) : Prop := ∀ n ∈ p.numbers, Radix.isLong n = false

/-- No text of the payload is torn. -/
def IsWhole (p : Payload) : Prop := ∀ s ∈ p.texts, s.isWhole = true

instance (p : Payload) : Decidable p.IsShort := inferInstanceAs (Decidable (∀ n ∈ p.numbers, Radix.isLong n = false))

instance (p : Payload) : Decidable p.IsWhole := inferInstanceAs (Decidable (∀ s ∈ p.texts, s.isWhole = true))

variable {p : Payload}

theorem mem_numbers {n : Int} :
    n ∈ p.numbers ↔ n = p.amount ∨ n = p.index ∨ p.edition = some n ∨ p.pin = some n := by
  simp only [numbers, List.mem_cons, List.mem_append, Option.mem_toList]

theorem isShort_iff : p.IsShort ↔ Radix.isLong p.amount = false ∧ Radix.isLong p.index = false ∧
    (∀ n, p.edition = some n → Radix.isLong n = false) ∧ ∀ n, p.pin = some n → Radix.isLong n = false := by
  simp only [IsShort, numbers, List.forall_mem_cons, List.forall_mem_append, Option.mem_toList]

theorem isWhole_iff : p.IsWhole ↔ p.handle.isWhole = true ∧ p.target.isWhole = true ∧
    (∀ s ∈ p.proof, s.isWhole = true) ∧ ∀ s, p.distributor = some s → s.isWhole = true := by
  simp only [IsWhole, texts, List.forall_mem_cons, List.forall_mem_append, Option.mem_toList]

/-- PINs that pass the checks are short. -/
theorem Valid.isLong_pin (h : p.Valid) : ∀ n, p.pin = some n → Radix.isLong n = false := by
  intro n hn
  have hbound := h.pin n hn
  refine Radix.isLong_of_lt (k := 32) ?_ (by decide)
  unfold pinBound at hbound
  omega

theorem integrationName_text {source : Source} {name : String} (h : isIntegration name = true) :
    integrationName source (.text name) = .accepted name := by
  show (if isIntegration name = true then _ else _) = _
  rw [if_pos h]
  rfl

theorem of_integrationName {source : Source} {v : Value} {name : String}
    (h : integrationName source v = .accepted name) :
    text source v = .accepted (.whole name) ∧ isIntegration name = true := by
  unfold integrationName at h
  obtain ⟨_ | _, htext, h⟩ := andThen_eq_accepted.mp h
  · dsimp only at h
    split at h
    · next hname =>
      obtain rfl := Reading.accepted.inj h
      exact ⟨htext, hname⟩
    · exact nomatch h
  · exact nomatch h

/-- Wherever its fields come from, a valid payload is accepted. -/
theorem fields_toFields (h : p.Valid) (source : Source) : form.fields source p.toFields = .accepted p := by
  have hintegration : integrationName source (.text p.integration) = .accepted p.integration :=
    integrationName_text h.integration
  have hamount : atLeast 0 integer source (.int p.amount) = .accepted p.amount := atLeast_zero_int h.amount
  have hindex : atLeast 0 integer source (.int p.index) = .accepted p.index := atLeast_zero_int h.index
  have hpin : optional (atLeast 0 (lessThan pinBound integer)) source (Value.ofOption .int p.pin) = .accepted p.pin :=
    optional_ofOption (fun _ hno => nomatch hno) fun n hn => pin_int (h.pin n hn)
  have hproof : list text source (.list (p.proof.map RawText.toValue)) = .accepted p.proof :=
    list_map fun s _ => text_toValue s
  have hedition : optional (atLeast 0 integer) source (Value.ofOption .int p.edition) = .accepted p.edition :=
    optional_ofOption (fun _ hno => nomatch hno) fun n hn => atLeast_zero_int (h.edition n hn)
  have hdistributor : optional text source (Value.ofOption RawText.toValue p.distributor) = .accepted p.distributor :=
    optional_ofOption toValue_ne_null fun s _ => text_toValue s
  have hnames : ∀ f ∈ p.toFields, f.1 ∈ fieldNames := fun f hf => List.mem_map_of_mem (f := Prod.fst) hf
  simp only [form]
  rw [only_of_forall hnames, required_of_lookup rfl hintegration, required_of_lookup rfl (text_toValue p.handle),
    required_of_lookup rfl hamount, required_of_lookup rfl hindex, withDefault_of_lookup rfl hpin,
    withDefault_of_lookup rfl hproof, required_of_lookup rfl (text_toValue p.target),
    withDefault_of_lookup rfl hedition, withDefault_of_lookup rfl hdistributor]
  rfl

/-- A valid payload is read back from its fields. -/
theorem read_toFields (h : p.Valid) : form.read p.toFields = .ok p := read_eq_ok_iff.mpr (fields_toFields h .call)

theorem checks_of_read {fs : Fields} (h : form.read fs = .ok p) :
    (isIntegration p.integration = true ∧ 0 ≤ p.amount ∧ 0 ≤ p.index) ∧
      withDefault "pin" (optional (atLeast 0 (lessThan pinBound integer))) none .call fs = .accepted p.pin ∧
      withDefault "proof" (list text) [] .call fs = .accepted p.proof ∧
      withDefault "edition" (optional (atLeast 0 integer)) none .call fs = .accepted p.edition := by
  rw [read_eq_ok_iff] at h
  have hread := of_only h
  simp only [seq_eq_accepted, map_eq_accepted] at hread
  obtain ⟨_, distributor, ⟨_, edition, ⟨_, target, ⟨_, proof, ⟨_, pin, ⟨_, index, ⟨_, amount, ⟨_, handle,
    ⟨integration, hintegration, rfl⟩, -, rfl⟩, hamount, rfl⟩, hindex, rfl⟩, hpin, rfl⟩, hproof, rfl⟩, -, rfl⟩, hedition,
    rfl⟩, -, rfl⟩ := hread
  obtain ⟨_, -, hintegration⟩ := required_eq_accepted.mp hintegration
  obtain ⟨_, -, hamount⟩ := required_eq_accepted.mp hamount
  obtain ⟨_, -, hindex⟩ := required_eq_accepted.mp hindex
  exact ⟨⟨(of_integrationName hintegration).2, (atLeast_eq_accepted.mp hamount).2,
    (atLeast_eq_accepted.mp hindex).2⟩, hpin, hproof, hedition⟩

theorem valid_of_read {fs : Fields} (h : form.read fs = .ok p) : p.Valid := by
  obtain ⟨⟨hintegration, hamount, hindex⟩, hpin, -, hedition⟩ := checks_of_read h
  exact ⟨hintegration, hamount, hindex, nonneg_of_read hedition, pin_of_read hpin⟩

theorem proof_of_read {fs : Fields} {proof : List RawText} (h : form.read fs = .ok p)
    (hproof : Value.lookup "proof" fs = some (.list (proof.map RawText.toValue))) : p.proof = proof := by
  obtain ⟨-, -, hread, -⟩ := checks_of_read h
  have hown : withDefault "proof" (list text) [] .call fs = .accepted proof :=
    withDefault_of_lookup hproof (list_map fun s _ => text_toValue s)
  rw [hown] at hread
  exact (Reading.accepted.inj hread).symm

theorem valid_of_read_toFields {q : Payload} (h : form.read p.toFields = .ok q) : p.Valid := by
  rw [read_eq_ok_iff] at h
  simp only [form] at h
  have hread := of_only h
  simp only [seq_eq_accepted, map_eq_accepted] at hread
  obtain ⟨_, _, ⟨_, _, ⟨_, _, ⟨_, _, ⟨_, _, ⟨_, _, ⟨_, _, ⟨_, _, ⟨_, hintegration, rfl⟩, -, rfl⟩, hamount, rfl⟩, hindex,
    rfl⟩, hpin, rfl⟩, -, rfl⟩, -, rfl⟩, hedition, rfl⟩, -, -⟩ := hread
  obtain ⟨htext, hkind⟩ := of_integrationName (of_required_of_lookup rfl hintegration)
  obtain rfl := RawText.whole.inj (Reading.accepted.inj htext)
  have hedition' : optional (atLeast 0 integer) .call (Value.ofOption .int p.edition) = .accepted _ :=
    of_withDefault_of_lookup rfl hedition
  have hpin' : optional (atLeast 0 (lessThan pinBound integer)) .call (Value.ofOption .int p.pin) = .accepted _ :=
    of_withDefault_of_lookup rfl hpin
  exact ⟨hkind, nonneg_of_atLeast _ _ (of_required_of_lookup rfl hamount),
    nonneg_of_atLeast _ _ (of_required_of_lookup rfl hindex),
    of_optional_ofOption hedition' (fun _ hno => nomatch hno) nonneg_of_atLeast,
    of_optional_ofOption hpin' (fun _ hno => nomatch hno) pin_of_atLeast⟩

/-- The fields of a payload are read if it is valid, and then as this payload. -/
theorem read_toFields_eq_ok_iff {q : Payload} : form.read p.toFields = .ok q ↔ p.Valid ∧ p = q := by
  constructor
  · intro h
    have hp := valid_of_read_toFields h
    exact ⟨hp, Except.ok.inj ((read_toFields hp).symm.trans h)⟩
  · rintro ⟨hp, rfl⟩
    exact read_toFields hp

/-- The valid payloads are those that the form reads. -/
theorem valid_iff : p.Valid ↔ ∃ fs, form.read fs = .ok p :=
  ⟨fun h => ⟨_, read_toFields h⟩, fun ⟨_, h⟩ => valid_of_read h⟩

theorem dropField_toFields (p : Payload) : Value.dropField "url" p.toFields = p.toFields := rfl

theorem ofClaim_toFields (h : p.Valid) : ofClaim p.toFields = .ok p := by
  rw [ofClaim, dropField_toFields, read_toFields h]
  rfl

/-- A link among the fields is left out, wherever it stands. -/
theorem ofClaim_insert_url (h : p.Valid) {before after : Fields} (url : Value) (hfs : before ++ after = p.toFields) :
    ofClaim (before ++ ("url", url) :: after) = .ok p := by
  rw [ofClaim, Value.dropField_insert, hfs, dropField_toFields, read_toFields h]
  rfl

end Payload
end Airdrop
