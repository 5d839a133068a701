import Airdrop.Proofs.SignedRoot.Delivery

/-!
# Signed roots as they stand and as they are read

The command checks the object in a file as it stands. The service checks the attestation that its form reads from the
object: other fields are left out, and what stands for the size is made an integer.

* `lookup_of_accepted` : the texts of the attestation are those of the object.
* `perm_of_accepted` : without other fields, and with an integer as its size, the object holds what is read from it.
* `service_answers_reading` : what the service and the command say about one object, and when they agree.
* `accepted_with_note` : a field that was never signed, of which the service takes no notice.
-/

namespace Airdrop.SignedRoot

open Check Form Reading Outcome Console

variable {source : Source} {o : Fields} {r : SignedRoot}

theorem checks_of_accepted (h : form.fields source o = .accepted r) :
    required "tree_size" integer source o = .accepted r.treeSize ∧
      required "merkle_root_b58" text source o = .accepted r.root ∧
      required "hash_algorithm" text source o = .accepted r.algorithm ∧
      required "integration" text source o = .accepted r.integration ∧
      required "ts" text source o = .accepted r.timestamp ∧
      required "signer_pubkey_b64" text source o = .accepted r.signerKey ∧
      required "signature_b64" text source o = .accepted r.signature := by
  simp only [form, seq_eq_accepted, map_eq_accepted] at h
  obtain ⟨_, _, ⟨_, _, ⟨_, _, ⟨_, _, ⟨_, _, ⟨_, _, ⟨_, hsize, rfl⟩, hroot, rfl⟩, halgorithm, rfl⟩, hintegration, rfl⟩,
    htimestamp, rfl⟩, hkey, rfl⟩, hsignature, rfl⟩ := h
  exact ⟨hsize, hroot, halgorithm, hintegration, htimestamp, hkey, hsignature⟩

/-- Every field of an attestation that was read stands in the object, but for the size. -/
theorem lookup_of_accepted (hjson : (Value.object o).IsJson) (h : form.fields source o = .accepted r) :
    ∀ f ∈ r.toFields, f.1 ≠ "tree_size" → Value.lookup f.1 o = some f.2 := by
  obtain ⟨-, hroot, halgorithm, hintegration, htimestamp, hkey, hsignature⟩ := checks_of_accepted h
  simp only [toFields, body, List.cons_append, List.nil_append, List.forall_mem_cons]
  exact ⟨fun hno => absurd rfl hno, fun _ => lookup_of_required hjson hroot,
    fun _ => lookup_of_required hjson halgorithm, fun _ => lookup_of_required hjson hintegration,
    fun _ => lookup_of_required hjson htimestamp, fun _ => lookup_of_required hjson hkey,
    fun _ => lookup_of_required hjson hsignature,
    fun _ hno => absurd hno List.not_mem_nil⟩

/-- The signature and the signer's key are those of the object. -/
theorem fieldBytes?_of_accepted (hjson : (Value.object o).IsJson) (h : form.fields source o = .accepted r) :
    fieldBytes? signatureField o = fieldBytes? signatureField r.toFields ∧
      fieldBytes? keyField o = fieldBytes? keyField r.toFields := by
  have hlookup := lookup_of_accepted hjson h
  have hsignature := hlookup (signatureField, r.signature.toValue) (by simp [toFields])
    (show signatureField ≠ "tree_size" by decide)
  have hkey := hlookup (keyField, r.signerKey.toValue) (by simp [toFields, body, keyField])
    (show keyField ≠ "tree_size" by decide)
  unfold fieldBytes?
  rw [hsignature, hkey]
  exact ⟨rfl, rfl⟩

theorem treeSize_of_accepted {n : Int} (h : form.fields source o = .accepted r)
    (hsize : Value.lookup "tree_size" o = some (.int n)) : n = r.treeSize := by
  obtain ⟨v, hv, hinteger⟩ := required_eq_accepted.mp (checks_of_accepted h).1
  obtain rfl : .int n = v := Option.some.inj (hsize.symm.trans hv)
  exact Reading.accepted.inj hinteger

/-- An object of no other fields whose size is an integer holds what is read from it. -/
theorem perm_of_accepted {n : Int} (hjson : (Value.object o).IsJson) (h : form.fields source o = .accepted r)
    (hnames : ∀ f ∈ o, f.1 ∈ r.toFields.map (·.1)) (hsize : Value.lookup "tree_size" o = some (.int n)) :
    o.Perm r.toFields := by
  obtain rfl := treeSize_of_accepted h hsize
  have hlookup : ∀ f ∈ r.toFields, Value.lookup f.1 o = some f.2 := by
    intro f hf
    by_cases hname : f.1 = "tree_size"
    · have hfirst : f = ("tree_size", .int r.treeSize) := by
        have hown := (Value.lookup_eq_some_iff (nodup_toFields r)).mpr hf
        rw [hname] at hown
        exact Prod.ext hname (Option.some.inj hown).symm
      rw [hfirst]
      exact hsize
    · exact lookup_of_accepted hjson h f hf hname
  -- neither list holds a field twice, so it is enough that they have the same members
  refine (List.perm_ext_iff_of_nodup (List.Nodup.of_map _ hjson.nodup) (List.Nodup.of_map _ (nodup_toFields r))).mpr ?_
  intro f
  constructor
  · intro hf
    obtain ⟨g, hg, hname⟩ := List.mem_map.mp (hnames f hf)
    have hvalue : some g.2 = some f.2 := by
      rw [← hlookup g hg, hname]
      exact (Value.lookup_eq_some_iff hjson.nodup).mpr hf
    rwa [Prod.ext hname (Option.some.inj hvalue)] at hg
  · intro hf
    exact (Value.lookup_eq_some_iff hjson.nodup).mp (hlookup f hf)

/-- Two messages that one signature is accepted for under one key. -/
theorem message_eq_or_shared {fs gs : Fields} (hfs : isValid fs = true) (hgs : isValid gs = true)
    (hsignature : fieldBytes? signatureField fs = fieldBytes? signatureField gs)
    (hkey : fieldBytes? keyField fs = fieldBytes? keyField gs) :
    message fs = message gs ∨ ∃ key signature m m', message fs = .ok m ∧ message gs = .ok m' ∧ m ≠ m' ∧
      Signature.verify key m signature = true ∧ Signature.verify key m' signature = true := by
  obtain ⟨signature, key, m, hsig, hk, hm, -, hverify⟩ := isValid_eq_true_iff.mp hfs
  obtain ⟨signature', key', m', hsig', hk', hm', -, hverify'⟩ := isValid_eq_true_iff.mp hgs
  obtain rfl : signature = signature' := Option.some.inj (hsig.symm.trans (hsignature.trans hsig'))
  obtain rfl : key = key' := Option.some.inj (hk.symm.trans (hkey.trans hk'))
  by_cases hsame : m = m'
  · exact Or.inl (hm.trans (hsame ▸ hm'.symm))
  · exact Or.inr ⟨key, signature, m, m', hm, hm', hsame, hverify, hverify'⟩

/-- **What the service and the command say about one signed root.** Whenever the service answers a request that holds an
object with the status 200, its form reads an attestation from the object, and the answer is about the attestation,
while the command tells of the object as it stands. Both say the same if both are signed as the same bytes; so it is
with an object of no other fields whose size is an integer. If both accept other than that, one signature stands for two
messages. -/
theorem service_answers_reading {s : Settings} {limit : Option String} {now : String} {q : Request}
    {response : Response}
    (hmethod : q.method = "POST") (hpath : q.path = "/roots/verify")
    (hdocument : Service.document q = .ok (.object o)) (h : Service.handle s limit now q = .ok response)
    (hstatus : response.status = 200) :
    ∃ r, form.fields .request o = .accepted r ∧ response = .signatureValid (isValid r.toFields) ∧
      (∀ (d : Desk) (c : Context) (file : String), d.HoldsValue file (.object o) → d.perform c (.verifyRoot file) =
        (.ok (), d.printing (.object [("signature_valid", .bool (isValid o))]))) ∧
      (message o = message r.toFields → isValid o = isValid r.toFields) ∧
      ((∀ f ∈ o, f.1 ∈ r.toFields.map (·.1)) → (∃ n, Value.lookup "tree_size" o = some (.int n)) →
        o.Perm r.toFields ∧ isValid o = isValid r.toFields) ∧
      (isValid o = true → isValid r.toFields = true → message o = message r.toFields ∨
        ∃ key signature m m', message o = .ok m ∧ message r.toFields = .ok m' ∧ m ≠ m' ∧
          Signature.verify key m signature = true ∧ Signature.verify key m' signature = true) := by
  obtain ⟨r, hread, hresponse⟩ := Service.verifyRoot_answered hmethod hpath hdocument h hstatus
  have hjson := Service.isJson_of_document hdocument
  obtain ⟨hsignature, hkey⟩ := fieldBytes?_of_accepted hjson hread
  refine ⟨r, hread, hresponse, fun _ _ _ hfile => run_verifyRoot hfile, isValid_congr hsignature hkey, ?_,
    fun hown hother => message_eq_or_shared hown hother hsignature hkey⟩
  rintro hnames ⟨n, hsize⟩
  have hperm := perm_of_accepted hjson hread hnames hsize
  exact ⟨hperm, isValid_of_perm hperm hjson.nodup⟩

/-- The attestation of a claim, signed with a seed of ones. -/
def attested : SignedRoot where
  treeSize := 1
  root := "EmJ33BnjdsaeV8S7sadMbWfZJNFV5aRzvZ7h6nS5WHw1"
  algorithm := "sha256"
  integration := "transfer"
  timestamp := "2026-01-02T03:04:05+00:00"
  signerKey := "iojj3XQJ8ZX9UtstPLpdcspnCb8dlBIb83SIAbQPb1w="
  signature := "cClQDGNJo288O5tahNGlriLm8UhQeQCnJSwawOs26sf/oiPtLXcD/SvKzqvXIqDb2vhK9mFzAXA2klN+l4AgBw=="

def asking (o : Fields) : Request where
  method := "POST"
  path := "/roots/verify"
  headers := [("content-type", "application/json")]
  body := Utf8.encode (Json.pretty (.object o))

def keeping (o : Fields) : Desk where
  disk := { nodes := [(["r"], .file (Utf8.encode (Json.pretty (.object o))))] }

theorem plain_attested : ∀ f ∈ attested.toFields, f.2.Plain 0 :=
  plain_toFields (by decide) (by decide)

theorem document_asking (h : (Value.object o).Plain 1) : Service.document (asking o) = .ok (.object o) := by
  have htype : Service.header? (asking o) "content-type" = some "application/json" := rfl
  refine Service.document_pretty (h.mono (by decide)) ?_ rfl
  rw [htype]
  decide +kernel

theorem holdsValue_keeping (h : (Value.object o).Plain 1) : (keeping o).HoldsValue "r" (.object o) :=
  ⟨_, _, ⟨by decide, rfl⟩, Utf8.decode?_encode _, Json.read_pretty (h.mono (by decide))⟩

theorem handle_asking (h : (Value.object o).Plain 1) (hread : form.fields .request o = .accepted r)
    (hlimit : Service.exceeds (asking o) ({} : Settings).maxRequestBytes = false) :
    Service.handle {} none "" (asking o) = .ok (.signatureValid (isValid r.toFields)) := by
  rw [Service.handle_eq rfl (Service.route_verifyRoot rfl rfl), hlimit, if_neg Bool.false_ne_true,
    Service.answer_verifyRoot (document_asking h) hread]

/-- The fields of an attestation in reversed order. -/
theorem service_answers_reading_reversed : ∃ (o : Fields) (q : Request) (d : Desk) (c : Context),
    Service.document q = .ok (.object o) ∧ d.HoldsValue "r" (.object o) ∧ o.Perm attested.toFields ∧
    Service.handle {} none "" q = .ok (.signatureValid (isValid o)) ∧
    d.perform c (.verifyRoot "r") = (.ok (), d.printing (.object [("signature_valid", .bool (isValid o))])) := by
  let o : Fields := attested.toFields.reverse
  have hplain : (Value.object o).Plain 1 :=
    .object (by decide +kernel) fun f hf => plain_attested f (List.mem_reverse.mp hf)
  have hhandle := handle_asking (o := o) (r := attested) hplain rfl (by decide +kernel)
  obtain ⟨r, hread, hresponse, hcommand, -, hagree, -⟩ :=
    service_answers_reading rfl rfl (document_asking hplain) hhandle rfl
  have hattested : attested = r := Reading.accepted.inj hread
  subst hattested
  obtain ⟨hperm, hsame⟩ := hagree (by decide +kernel) ⟨1, rfl⟩
  rw [← hsame] at hhandle
  exact ⟨o, asking o, keeping o, { settings := {}, log := {} }, document_asking hplain, holdsValue_keeping hplain,
    hperm, hhandle, hcommand _ _ _ (holdsValue_keeping hplain)⟩

/-- A field that was never signed: the service finds the signature valid, the command does not. -/
theorem accepted_with_note : ∃ (o : Fields) (q : Request) (d : Desk) (c : Context),
    Service.document q = .ok (.object o) ∧ d.HoldsValue "r" (.object o) ∧
    Service.handle {} none "" q = .ok (.signatureValid true) ∧ isValid o = false ∧
    d.perform c (.verifyRoot "r") = (.ok (), d.printing (.object [("signature_valid", .bool false)])) := by
  let o : Fields := attested.toFields ++ [("note", .text "paid")]
  have hplain : (Value.object o).Plain 1 := by
    refine .object (by decide +kernel) fun f hf => ?_
    rcases List.mem_append.mp hf with hf | hf
    · exact plain_attested f hf
    · obtain rfl := List.mem_singleton.mp hf
      exact .text _
  have hvalid : isValid attested.toFields = true := by decide +kernel
  have hnot : isValid o = false := by decide +kernel
  have hhandle := handle_asking (o := o) (r := attested) hplain rfl (by decide +kernel)
  have hcommand := run_verifyRoot (holdsValue_keeping hplain)
  rw [hvalid] at hhandle
  rw [hnot] at hcommand
  exact ⟨o, asking o, keeping o, { settings := {}, log := {} }, document_asking hplain, holdsValue_keeping hplain,
    hhandle, hnot, hcommand⟩

end Airdrop.SignedRoot
