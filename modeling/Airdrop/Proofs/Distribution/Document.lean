import Airdrop.Distribution.Document
import Airdrop.Proofs.Bytes.Hex
import Airdrop.Proofs.Claim.Payload
import Airdrop.Proofs.Json.Pretty
import Mathlib.Data.List.Forall2

/-!
# Documents and their claims

* `ClaimOf p fs` : `fs` are the fields of a payload, perhaps with a link. `ClaimOf.ofClaim`, `ClaimOf.read_claimant` :
  such an object is read as the payload, and as the row that the payload was issued for.
* `isWritable_toValue` : a document can be written if its size and its claims can.
* `Plain`, `ofText_text` : a plain document is read back from its text.
* `plain_ofDistribution` : if no text is torn, what was written of a distribution is plain. `hasher_ofDistribution`,
  `payloads_ofDistribution` : its hasher and its payloads are read back.
-/

namespace Airdrop

open Check Form Reading Outcome

theorem Check.entries_map {α : Type} {c : Check α} {source : Source} {f : α → Value} : ∀ as : List (String × α),
    (∀ a ∈ as, c source (f a.2) = .accepted a.2) → entries c source (as.map fun (k, a) => (k, f a)) = .accepted as
  | [], _ => rfl
  | (k, a) :: as, h => by
    rw [List.map_cons, entries, h (k, a) List.mem_cons_self, entries_map as fun b hb => h b (List.mem_cons_of_mem _ hb)]
    rfl

namespace Payload

variable {p : Payload}

theorem plain_toFields (hwhole : p.IsWhole) (hshort : p.IsShort) : ∀ f ∈ p.toFields, f.2.Plain 1 := by
  obtain ⟨hhandle, htarget, hproof, hdistributor⟩ := isWhole_iff.mp hwhole
  obtain ⟨hamount, hindex, hedition, hpin⟩ := isShort_iff.mp hshort
  have hint {o : Option Int} (ho : ∀ n, o = some n → Radix.isLong n = false) : (Value.ofOption .int o).Plain 1 := by
    cases o with
    | none => exact .null
    | some n => exact .int (ho n rfl)
  have hpath : (Value.list (p.proof.map RawText.toValue)).Plain 1 := by
    refine .list fun v hv => ?_
    obtain ⟨s, hs, rfl⟩ := List.mem_map.mp hv
    exact RawText.plain_toValue (hproof s hs)
  have hpayer : (Value.ofOption RawText.toValue p.distributor).Plain 1 := by
    cases hown : p.distributor with
    | none => exact .null
    | some s => exact RawText.plain_toValue (hdistributor s hown)
  simp only [toFields, List.forall_mem_cons]
  exact ⟨.text _, RawText.plain_toValue hhandle, .int hamount, .int hindex, hint hpin, hpath,
    RawText.plain_toValue htarget, hint hedition, hpayer, fun _ hno => nomatch hno⟩

/-- A payload can be written if all of its integers can. -/
theorem isWritable_toFields : (Value.object p.toFields).isWritable = true ↔ p.IsShort := by
  have hint (o : Option Int) :
      (Value.ofOption .int o).isWritable = true ↔ ∀ n, o = some n → Radix.isLong n = false := by
    cases o <;> simp [Value.ofOption, show Value.null.isWritable = true from rfl]
  have hpayer : (Value.ofOption RawText.toValue p.distributor).isWritable = true := by
    cases p.distributor <;> simp [Value.ofOption, show Value.null.isWritable = true from rfl]
  simp [toFields, isShort_iff, hint, hpayer, and_comm]

end Payload

namespace Document

/-! ## Claims -/

/-- The fields of a payload, perhaps with a link. -/
inductive ClaimOf (p : Payload) : Fields → Prop
  | bare : ClaimOf p p.toFields
  | linked (link : String) : ClaimOf p (p.toFields ++ [("url", .text link)])

theorem claimOf_of_claim {host : Option String} {p : Payload} {fs : Fields} (h : claim host p = .ok fs) :
    ClaimOf p fs := by
  unfold claim at h
  split at h
  · obtain rfl := Except.ok.inj h
    exact .bare
  · obtain ⟨link, -, h⟩ := bind_eq_ok.mp h
    obtain rfl := Except.ok.inj h
    exact .linked link

namespace ClaimOf

variable {p : Payload} {fs : Fields}

theorem plain (h : ClaimOf p fs) (hwhole : p.IsWhole) (hshort : p.IsShort) : (Value.object fs).Plain 2 := by
  have hfields := Payload.plain_toFields hwhole hshort
  cases h with
  | bare => exact .object (by show Payload.fieldNames.Nodup; decide) hfields
  | linked link =>
    refine .object (by show (Payload.fieldNames ++ ["url"]).Nodup; decide) fun f hf => ?_
    rcases List.mem_append.mp hf with hf | hf
    · exact hfields f hf
    · obtain rfl := List.mem_singleton.mp hf
      exact .text link

theorem isWritable_iff (h : ClaimOf p fs) : (Value.object fs).isWritable = true ↔ p.IsShort := by
  cases h with
  | bare => exact Payload.isWritable_toFields
  | linked link => simp [← Payload.isWritable_toFields]

theorem lookup_proof (h : ClaimOf p fs) :
    Value.lookup "proof" fs = some (.list (p.proof.map RawText.toValue)) := by
  cases h <;> rfl

theorem ofClaim (h : ClaimOf p fs) (hp : p.Valid) : Payload.ofClaim fs = .ok p := by
  cases h with
  | bare => exact Payload.ofClaim_toFields hp
  | linked link => exact Payload.ofClaim_insert_url hp _ (List.append_nil _)

/-- The object is read as the row that the payload was issued for. -/
theorem read_claimant (h : ClaimOf p fs) {row : Claimant} (hrow : row.Valid) (hhandle : p.handle = row.handle)
    (hamount : p.amount = row.amount) (hedition : p.edition = row.edition) (hpin : p.pin = row.pin) :
    ∃ url, Claimant.form.read fs = .ok { row with url } := by
  have hlookup : Value.lookup "handle" fs = some row.handle.toValue ∧
      Value.lookup "amount" fs = some (.int row.amount) ∧
      Value.lookup "edition" fs = some (Value.ofOption .int row.edition) ∧
      Value.lookup "pin" fs = some (Value.ofOption .int row.pin) := by
    rw [← hhandle, ← hamount, ← hedition, ← hpin]
    cases h <;> exact ⟨rfl, rfl, rfl, rfl⟩
  obtain ⟨hlookHandle, hlookAmount, hlookEdition, hlookPin⟩ := hlookup
  obtain ⟨url, hurl⟩ : ∃ url, withDefault "url" (optional Check.text) none .call fs = .accepted url := by
    cases h with
    | bare => exact ⟨none, withDefault_eq_accepted.mpr (Or.inr ⟨rfl, rfl⟩)⟩
    | linked link => exact ⟨some (.whole link), withDefault_of_lookup rfl rfl⟩
  have hhandle' : satisfying Claimant.isHandle "handle must not be blank" Check.text .call row.handle.toValue =
      .accepted row.handle :=
    satisfying_eq_accepted.mpr ⟨text_toValue row.handle, hrow.handle⟩
  have hamount' : atLeast 0 integer .call (.int row.amount) = .accepted row.amount := atLeast_zero_int hrow.amount
  have hedition' : optional (atLeast 0 integer) .call (Value.ofOption .int row.edition) = .accepted row.edition :=
    optional_ofOption (fun _ hno => nomatch hno) fun n hn => atLeast_zero_int (hrow.edition n hn)
  have hpin' : optional (atLeast 0 (lessThan pinBound integer)) .call (Value.ofOption .int row.pin) =
      .accepted row.pin :=
    optional_ofOption (fun _ hno => nomatch hno) fun n hn => pin_int (hrow.pin n hn)
  refine ⟨url, read_eq_ok_iff.mpr ?_⟩
  simp only [Claimant.form]
  rw [required_of_lookup hlookHandle hhandle', required_of_lookup hlookAmount hamount',
    withDefault_of_lookup hlookEdition hedition', withDefault_of_lookup hlookPin hpin', hurl]
  rfl

end ClaimOf

/-! ## Whole documents -/

/-- A document whose parts are written and read back alike. -/
structure Plain (d : Document) : Prop where
  treeSize : Radix.isLong d.treeSize = false
  hashing : (d.hashing.map (·.1)).Nodup
  claims : ∀ fs ∈ d.claims, (Value.object fs).Plain 2

variable {d : Document} {s : String}

theorem text_eq_ok : d.text = .ok s ↔ d.toValue.isWritable = true ∧ String.ofList (Json.pretty d.toValue) = s := by
  rw [text, map_eq_ok]
  constructor
  · rintro ⟨cs, hcs, rfl⟩
    obtain ⟨hwritable, rfl⟩ := Json.text_eq_ok.mp hcs
    exact ⟨hwritable, rfl⟩
  · rintro ⟨hwritable, rfl⟩
    exact ⟨_, Json.text_eq_ok.mpr ⟨hwritable, rfl⟩, rfl⟩

theorem text_eq_error {e : Error} : d.text = .error e ↔ d.toValue.isWritable = false ∧ e = .value .tooLongToWrite := by
  rw [text, map_eq_error, Json.text_eq_error]

/-- A document can be written if the size and the claims can. -/
theorem isWritable_toValue : d.toValue.isWritable = true ↔
    Radix.isLong d.treeSize = false ∧ ∀ fs ∈ d.claims, (Value.object fs).isWritable = true := by
  have hhashing : (Value.object d.hashingFields).isWritable = true := by simp [hashingFields]
  simp only [toValue, Value.isWritable_object, List.all_cons, List.all_nil, Value.isWritable_text, Value.isWritable_int,
    Value.isWritable_list, Bool.and_true, Bool.true_and, Bool.and_eq_true, Bool.not_eq_true', List.all_eq_true,
    List.forall_mem_map] at hhashing ⊢
  exact and_congr_right fun _ => and_iff_right hhashing

theorem Plain.toValue (h : d.Plain) : d.toValue.Plain 4 := by
  have hnames : (d.hashingFields.map (·.1)).Nodup := by
    rw [hashingFields, List.map_map]
    exact h.hashing
  have htexts : ∀ f ∈ d.hashingFields, f.2.Plain 2 := by
    intro f hf
    obtain ⟨⟨name, s⟩, -, rfl⟩ := List.mem_map.mp hf
    exact .text s
  have hclaims : (Value.list (d.claims.map .object)).Plain 3 := by
    refine .list fun v hv => ?_
    obtain ⟨fs, hfs, rfl⟩ := List.mem_map.mp hv
    exact h.claims fs hfs
  have hdistinct : ["merkle_root_b58", "tree_size", "integration", "hash_config", "claims"].Nodup := by decide
  refine .object hdistinct ?_
  simp only [List.forall_mem_cons]
  exact ⟨.text _, .int h.treeSize, .text _, .object hnames htexts, hclaims, fun _ hno => nomatch hno⟩

/-- A plain document has a text. -/
theorem Plain.exists_text (h : d.Plain) : ∃ s, d.text = .ok s := ⟨_, text_eq_ok.mpr ⟨h.toValue.isWritable, rfl⟩⟩

theorem check_toValue (d : Document) : form.check .text d.toValue = .accepted d := by
  have hhashing : fieldsOf string .text (.object d.hashingFields) = .accepted d.hashing :=
    andThen_eq_accepted.mpr ⟨d.hashingFields, rfl, entries_map _ fun _ _ => rfl⟩
  have hclaims : Check.list object .text (.list (d.claims.map .object)) = .accepted d.claims := list_map fun _ _ => rfl
  have hsize : integer .text (.int d.treeSize) = .accepted d.treeSize := rfl
  show form.fields .text _ = _
  simp only [form]
  rw [required_of_lookup rfl (string_text d.root), required_of_lookup rfl hsize,
    required_of_lookup rfl (string_text d.integration), required_of_lookup rfl hhashing,
    withDefault_of_lookup rfl hclaims]
  rfl

theorem read_text {strict : Bool} {limit : Nat} (h : d.Plain) (hlimit : 4 ≤ limit) (htext : d.text = .ok s) :
    Json.read strict limit s.toList = .ok d.toValue := by
  obtain ⟨-, rfl⟩ := text_eq_ok.mp htext
  rw [String.toList_ofList]
  exact Json.read_pretty (h.toValue.mono hlimit)

/-- A plain document is read back from its text. -/
theorem ofText_text (h : d.Plain) (htext : d.text = .ok s) : ofText s = .ok d := by
  rw [ofText, readText, read_text h (by decide) htext]
  show ((form.check .text d.toValue).outcome form.title).mapError Error.refused = _
  rw [check_toValue]
  rfl

/-! ## The document of a distribution -/

variable {dist : Distribution} {payloads : List Payload} {host : Option String}

theorem ofDistribution_eq_ok :
    ofDistribution dist payloads host = .ok d ↔ ∃ claims, payloads.mapM (claim host) = .ok claims ∧
      d = { root := Base58.text dist.root, treeSize := dist.size, integration := dist.kind.name,
            hashing := dist.hasher.describe, claims } := by
  rw [ofDistribution, bind_pure_eq_ok]

theorem claimOf_of_mem (h : ofDistribution dist payloads host = .ok d) {fs : Fields} (hfs : fs ∈ d.claims) :
    ∃ p ∈ payloads, ClaimOf p fs := by
  obtain ⟨claims, hclaims, rfl⟩ := ofDistribution_eq_ok.mp h
  obtain ⟨p, hp, hclaim⟩ := exists_of_forall₂ (mapM_eq_ok_iff.mp hclaims) fs hfs
  exact ⟨p, hp, claimOf_of_claim hclaim⟩

theorem nodup_hashing_ofDistribution (h : ofDistribution dist payloads host = .ok d) :
    (d.hashing.map (·.1)).Nodup := by
  obtain ⟨claims, -, rfl⟩ := ofDistribution_eq_ok.mp h
  show List.Nodup ["algorithm", "leaf_prefix_hex", "node_prefix_hex"]
  decide

theorem plain_ofDistribution (h : ofDistribution dist payloads host = .ok d) (htext : d.text = .ok s)
    (hwhole : ∀ p ∈ payloads, p.IsWhole) : d.Plain := by
  obtain ⟨hsize, hclaims⟩ := isWritable_toValue.mp (text_eq_ok.mp htext).1
  refine ⟨hsize, nodup_hashing_ofDistribution h, fun fs hfs => ?_⟩
  obtain ⟨p, hp, hclaim⟩ := claimOf_of_mem h hfs
  exact hclaim.plain (hwhole p hp) (hclaim.isWritable_iff.mp (hclaims fs hfs))

theorem hasher_ofDistribution (h : ofDistribution dist payloads host = .ok d) : d.hasher = .ok dist.hasher := by
  obtain ⟨claims, -, rfl⟩ := ofDistribution_eq_ok.mp h
  exact Hasher.ofDescription_describe dist.hasher

/-- The payloads that a document was made for are those of its claims. -/
theorem payloads_ofDistribution (h : ofDistribution dist payloads host = .ok d) (hvalid : ∀ p ∈ payloads, p.Valid) :
    d.payloads = .ok payloads := by
  obtain ⟨claims, hclaims, rfl⟩ := ofDistribution_eq_ok.mp h
  have hall := (List.forall₂_and_left _ _).mpr ⟨hvalid, mapM_eq_ok_iff.mp hclaims⟩
  refine mapM_eq_ok_iff.mpr (hall.flip.imp ?_)
  rintro fs p ⟨hp, hfs⟩
  exact (claimOf_of_claim hfs).ofClaim hp

end Document
end Airdrop
