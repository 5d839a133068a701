import Airdrop.Proofs.Bytes.Base64
import Airdrop.Proofs.Console.Create
import Airdrop.Proofs.Json.Canonical
import Airdrop.Proofs.Service
import Airdrop.Proofs.SignedRoot

/-!
# A signed root survives its delivery

* `isValid_make` : a fresh attestation is valid.
* `form_of_perm` : it is read from its fields in any order.
* `Delivered fs` : whoever is handed the object `fs`, in a file or in a request, finds its signature valid.
  `make_delivered` : so it is with the fields of an attestation in any order.
-/

namespace Airdrop

open Outcome Console

theorem Point.length_encode (P : Point) : P.encode.length = 32 := Bytes.length_ofNatLE 32 _

theorem Signature.length_publicKey (seed : Bytes) : (publicKey seed).length = 32 := Point.length_encode _

namespace SignedRoot

/-- Whoever is handed an object finds its signature valid: the check itself, the command that reads it from a file, and
the service, once it takes the request. The file and the request may hold any text of the object, in particular the
indented one. -/
structure Delivered (fs : Fields) : Prop where
  valid : isValid fs = true
  reread : ∀ (strict : Bool) (limit : Nat), 0 < limit →
    Json.read strict limit (Json.pretty (.object fs)) = .ok (.object fs)
  command : ∀ (d : Desk) (c : Context) (file : String),
    d.HoldsValue file (.object fs) ∨ d.Holds file (Utf8.encode (Json.pretty (.object fs))) →
    d.perform c (.verifyRoot file) = (.ok (), d.printing (.object [("signature_valid", .bool true)]))
  service : ∀ (s : Settings) (now : String) (r : Request), Service.document r = .ok (.object fs) ∨
    (Service.header? r "content-type").any Service.isJson = true ∧
      r.body = Utf8.encode (Json.pretty (.object fs)) →
    Service.answer s now r .verifyRoot = .ok (.signatureValid true) ∧
      ∀ (limit : Option String) (max : Int), r.method = "POST" → r.path = "/roots/verify" →
        Service.maxBytes s limit = .ok max →
        Service.handle s limit now r = .ok (if Service.exceeds r max then .tooLarge else .signatureValid true)

section
variable {d : Distribution} {seed key : Bytes} {timestamp : String} {r : SignedRoot} {fs : Fields}

theorem atomic_body (key : Bytes) (timestamp : String) (hsize : d.size ≤ Json.maxSafeInteger) :
    ∀ f ∈ (unsigned d key timestamp).body, f.2.Atomic := by
  simp only [body, List.forall_mem_cons]
  refine ⟨.int ?_, .text _, .text _, .text _, .text _, .text _, fun _ hno => absurd hno List.not_mem_nil⟩
  exact hsize

def texts (r : SignedRoot) : List RawText :=
  [r.root, r.algorithm, r.integration, r.timestamp, r.signerKey, r.signature]

theorem plain_toFields (hsize : Radix.isLong r.treeSize = false) (hwhole : ∀ t ∈ r.texts, t.isWhole = true) :
    ∀ f ∈ r.toFields, f.2.Plain 0 := by
  simp only [texts, List.forall_mem_cons] at hwhole
  obtain ⟨hroot, halgorithm, hintegration, htimestamp, hkey, hsignature, -⟩ := hwhole
  simp only [toFields, body, List.cons_append, List.nil_append, List.forall_mem_cons]
  exact ⟨.int hsize, RawText.plain_toValue hroot, RawText.plain_toValue halgorithm, RawText.plain_toValue hintegration,
    RawText.plain_toValue htimestamp, RawText.plain_toValue hkey, RawText.plain_toValue hsignature,
    fun _ hno => absurd hno List.not_mem_nil⟩

/-- A root is signed unless its size is no safe integer. -/
theorem exists_make (hseed : seed.length = 32) (hsize : d.size ≤ Json.maxSafeInteger) :
    ∃ r, make d seed key timestamp = .ok r := by
  obtain ⟨m, hm⟩ := Json.exists_canonical (atomic_body key timestamp hsize)
  exact ⟨_, make_eq_ok_iff.mpr ⟨m, hm, hseed, rfl⟩⟩

/-- A fresh attestation is plain: with an unsafe size it would have no message. -/
theorem plain_of_make (hmake : make d seed key timestamp = .ok r) : ∀ f ∈ r.toFields, f.2.Plain 0 := by
  obtain ⟨m, hm, -, rfl⟩ := make_eq_ok_iff.mp hmake
  refine plain_toFields (Json.isLong_of_safe (Json.safe_of_canonical hm List.mem_cons_self)) fun t ht => ?_
  simp only [texts, List.mem_cons, List.not_mem_nil, or_false] at ht
  rcases ht with rfl | rfl | rfl | rfl | rfl | rfl <;> rfl

theorem isWritable_of_make (hmake : make d seed key timestamp = .ok r) :
    (Value.object r.toFields).isWritable = true := by
  rw [Value.isWritable_object, List.all_eq_true]
  exact fun f hf => (plain_of_make hmake f hf).isWritable

/-- An attestation is valid with any signature that its key accepts for its message. -/
theorem isValid_of_verify {signature m : Bytes}
    (hr : { unsigned d key timestamp with signature := .whole (Base64.text signature) } = r) (hlength : key.length = 32)
    (hm : Json.canonical (.object (unsigned d key timestamp).body) = .ok m)
    (hverify : Signature.verify key m signature = true) : isValid r.toFields = true := by
  subst hr
  refine isValid_eq_true_iff.mpr ⟨signature, key, m, ?_, ?_, hm, hlength, hverify⟩
  · rw [fieldBytes?_signature rfl, Base64.ofText?_text]
  · exact Base64.ofText?_text key

theorem isValid_make (hmake : make d seed key timestamp = .ok r) (hlength : key.length = 32)
    (hsign : ∀ m, Json.canonical (.object (unsigned d key timestamp).body) = .ok m →
      Signature.verify key m (Signature.sign seed m) = true) : isValid r.toFields = true := by
  obtain ⟨m, hm, -, hr⟩ := make_eq_ok_iff.mp hmake
  exact isValid_of_verify hr hlength hm (hsign m hm)

/-- An attestation is read from its fields in any order. -/
theorem form_of_perm (h : fs.Perm r.toFields) (source : Source) : form.fields source fs = .accepted r := by
  have hlookup (name : String) : Value.lookup name fs = Value.lookup name r.toFields :=
    (Value.lookup_of_perm h.symm (nodup_toFields r)).symm
  have hsize : Check.integer source (.int r.treeSize) = .accepted r.treeSize := rfl
  simp only [form]
  rw [Form.required_of_lookup (hlookup _) hsize, Form.required_of_lookup (hlookup _) (Check.text_toValue r.root),
    Form.required_of_lookup (hlookup _) (Check.text_toValue r.algorithm),
    Form.required_of_lookup (hlookup _) (Check.text_toValue r.integration),
    Form.required_of_lookup (hlookup _) (Check.text_toValue r.timestamp),
    Form.required_of_lookup (hlookup _) (Check.text_toValue r.signerKey),
    Form.required_of_lookup (hlookup _) (Check.text_toValue r.signature)]
  rfl

/-- Whoever is handed the fields of a valid attestation in any order finds it valid. -/
theorem delivered_of_perm (h : fs.Perm r.toFields) (hfields : ∀ f ∈ r.toFields, f.2.Plain 0)
    (hvalid : isValid r.toFields = true) : Delivered fs := by
  have hnames : (fs.map (·.1)).Nodup := (h.map _).nodup_iff.mpr (nodup_toFields r)
  -- One level of depth is all that the object needs of its readers, in whatever order its fields are.
  have hplain : (Value.object fs).Plain 1 := .object hnames fun f hf => hfields f (h.mem_iff.mp hf)
  have hown : isValid fs = true := (isValid_of_perm h hnames).trans hvalid
  refine ⟨hown, ?_, ?_, ?_⟩
  · intro strict limit hlimit
    exact Json.read_pretty (hplain.mono hlimit)
  · intro d c file hfile
    have hvalue : d.HoldsValue file (.object fs) := by
      rcases hfile with hvalue | htext
      · exact hvalue
      · exact ⟨_, _, htext, Utf8.decode?_encode _, Json.read_pretty (hplain.mono (by decide))⟩
    have hrun := run_verifyRoot hvalue
    rw [hown] at hrun
    exact hrun
  · intro s now q hq
    have hdocument : Service.document q = .ok (.object fs) := by
      rcases hq with hdocument | ⟨hjson, hbody⟩
      · exact hdocument
      · exact Service.document_pretty (hplain.mono (by decide)) hjson hbody
    have hanswer : Service.answer s now q .verifyRoot = .ok (.signatureValid true) := by
      rw [Service.answer_verifyRoot hdocument (form_of_perm h .request), hvalid]
    refine ⟨hanswer, fun limit max hmethod hpath hmax => ?_⟩
    rw [Service.handle_eq hmax (Service.route_verifyRoot hmethod hpath), hanswer]
    split <;> rfl

/-- **A signed root survives its delivery.** A distribution is signed at any time with any seed of 32 bytes, if its size
is a safe integer. Given that the key of the seed accepts the signature of the signed message, whoever is handed the
fields of the attestation, in any order and through any text, finds its signature valid. -/
theorem make_delivered (d : Distribution) (seed : Bytes) (timestamp : String) (hseed : seed.length = 32)
    (hsign : ∀ m, Json.canonical (.object (unsigned d (Signature.publicKey seed) timestamp).body) = .ok m →
      Signature.verify (Signature.publicKey seed) m (Signature.sign seed m) = true) :
    (d.size ≤ Json.maxSafeInteger → ∃ r, make d seed (Signature.publicKey seed) timestamp = .ok r) ∧
      ∀ (r : SignedRoot) (fs : Fields), make d seed (Signature.publicKey seed) timestamp = .ok r → fs.Perm r.toFields →
        Delivered fs :=
  ⟨exists_make hseed, fun _ _ hmake hperm =>
    delivered_of_perm hperm (plain_of_make hmake) (isValid_make hmake (Signature.length_publicKey seed) hsign)⟩

/-- One claim, signed with a seed of ones; the fields arrive in reverse. -/
theorem make_delivered_one : ∃ d r,
    Distribution.ofRecords {}
      [.transfer (.int 0) (.bytes (List.replicate 32 3)) (.bytes (List.replicate 32 4)) (.int 5)] = .ok d ∧
    make d (List.replicate 32 1) (Signature.publicKey (List.replicate 32 1)) "2026-01-02T03:04:05+00:00" = .ok r ∧
    Delivered r.toFields.reverse := by
  have hrun : ((Distribution.ofRecords {} [.transfer (.int 0) (.bytes (List.replicate 32 3))
      (.bytes (List.replicate 32 4)) (.int 5)]).toOption.map fun d => (d.size, (Json.canonical (.object
        (unsigned d (Signature.publicKey (List.replicate 32 1))
          "2026-01-02T03:04:05+00:00").body)).toOption.map fun m =>
            Signature.verify (Signature.publicKey (List.replicate 32 1)) m (Signature.sign (List.replicate 32 1) m))) =
      some (1, some true) := by
    decide +kernel
  obtain ⟨d, hd, hchecks⟩ := toOption_map_eq_some.mp hrun
  obtain ⟨hsize, hverify⟩ := Prod.mk.inj hchecks
  obtain ⟨m, hm, hsigned⟩ := toOption_map_eq_some.mp hverify
  obtain ⟨hmake, hdelivered⟩ := make_delivered d (List.replicate 32 1) "2026-01-02T03:04:05+00:00" (by decide) (by
    intro m' hm'
    obtain rfl := Except.ok.inj (hm.symm.trans hm')
    exact hsigned)
  obtain ⟨r, hr⟩ := hmake (hsize ▸ by decide)
  exact ⟨d, r, hd, hr, hdelivered r _ hr (List.reverse_perm _)⟩

end
end SignedRoot
end Airdrop
