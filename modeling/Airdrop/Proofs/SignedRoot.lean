import Airdrop.Proofs.Json.Order
import Airdrop.Proofs.Outcome
import Airdrop.Proofs.Value
import Airdrop.SignedRoot

/-!
# What the signature of a signed root covers

* `message` : the signed bytes of an object, its other fields in canonical form. `isValid_eq_true_iff` : an object is
  accepted if its signature holds for them.
* `isValid_of_perm` : the order of the fields does not matter.
* `make_eq_ok_iff` : the attestation of a distribution is its unsigned one with a signature of these bytes.
-/

namespace Airdrop.SignedRoot

open Outcome

/-- The field that holds the signer's key. -/
def keyField : String := "signer_pubkey_b64"

/-- The bytes that the signature of an object covers. -/
def message (fs : Fields) : Except CanonicalFault Bytes := Json.canonical (.object (Value.dropField signatureField fs))

variable {fs gs : Fields}

theorem isValid_eq_true_iff : isValid fs = true ↔ ∃ signature key m, fieldBytes? signatureField fs = some signature ∧
    fieldBytes? keyField fs = some key ∧ message fs = .ok m ∧ key.length = 32 ∧
    Signature.verify key m signature = true := by
  unfold isValid
  constructor
  · intro h
    split at h
    · next signature key m hsignature hkey hm =>
      rw [Bool.and_eq_true, beq_iff_eq] at h
      exact ⟨signature, key, m, hsignature, hkey, toOption_eq_some.mp hm, h⟩
    · exact absurd h Bool.false_ne_true
  · rintro ⟨signature, key, m, hsignature, hkey, hm, hlength, hverify⟩
    have hmessage := toOption_eq_some.mpr hm
    unfold message at hmessage
    unfold keyField at hkey
    rw [hsignature, hkey, hmessage]
    simp only [hlength, hverify]
    rfl

theorem message_of_perm (h : fs.Perm gs) (hnames : (fs.map (·.1)).Nodup) : message fs = message gs :=
  Json.canonical_of_perm (h.filter _) (Value.nodup_dropField hnames signatureField)

theorem fieldBytes?_of_perm (h : fs.Perm gs) (hnames : (fs.map (·.1)).Nodup) (name : String) :
    fieldBytes? name fs = fieldBytes? name gs := by
  unfold fieldBytes?
  rw [Value.lookup_of_perm h hnames]

theorem isValid_congr (hsignature : fieldBytes? signatureField fs = fieldBytes? signatureField gs)
    (hkey : fieldBytes? keyField fs = fieldBytes? keyField gs) (hm : message fs = message gs) :
    isValid fs = isValid gs := by
  rw [Bool.eq_iff_iff, isValid_eq_true_iff, isValid_eq_true_iff, hsignature, hkey, hm]

/-- The order of its fields does not matter to the validity of a signed root. -/
theorem isValid_of_perm (h : fs.Perm gs) (hnames : (fs.map (·.1)).Nodup) : isValid fs = isValid gs :=
  isValid_congr (fieldBytes?_of_perm h hnames _) (fieldBytes?_of_perm h hnames _) (message_of_perm h hnames)

/-! ## Attestations -/

section
variable {d : Distribution} {seed key : Bytes} {timestamp : String}

theorem fieldBytes?_signature {r : SignedRoot} {s : String} (h : r.signature = .whole s) :
    fieldBytes? signatureField r.toFields = Base64.ofText? s := by
  obtain ⟨treeSize, root, algorithm, integration, timestamp, signerKey, _⟩ := r
  subst h
  rfl

theorem nodup_toFields (r : SignedRoot) : (r.toFields.map (·.1)).Nodup := by
  have hnames : r.toFields.map (·.1) = ["tree_size", "merkle_root_b58", "hash_algorithm", "integration", "ts",
    "signer_pubkey_b64", "signature_b64"] := rfl
  rw [hnames]
  decide

theorem make_eq_ok_iff {r : SignedRoot} : make d seed key timestamp = .ok r ↔ ∃ m,
    Json.canonical (.object (unsigned d key timestamp).body) = .ok m ∧ seed.length = 32 ∧
      { unsigned d key timestamp with signature := .whole (Base64.text (Signature.sign seed m)) } = r := by
  unfold make
  simp only [bind_eq_ok, mapError_eq_ok, error_bind, ite_error_eq_ok, not_ne_iff]
  constructor
  · rintro ⟨m, hm, hseed, h⟩
    exact ⟨m, hm, hseed, Except.ok.inj h⟩
  · rintro ⟨m, hm, hseed, rfl⟩
    exact ⟨m, hm, hseed, rfl⟩

end
end Airdrop.SignedRoot
