import Airdrop.Proofs.Json.Canonical
import Airdrop.Proofs.SignedRoot

/-!
# A signature binds every other field

`signature_binds` : two flat objects with the same signed bytes agree in every field but the signature. So where one
signature is accepted for objects that differ elsewhere, it holds for two different messages under one key.
-/

namespace Airdrop.SignedRoot

/-- Objects of texts, truth values, nulls and safe integers. -/
structure Flat (fs : Fields) : Prop where
  names : (fs.map (·.1)).Nodup
  atomic : ∀ f ∈ fs, f.2.Atomic

variable {fs gs : Fields} {m : Bytes}

theorem Flat.dropField (h : Flat fs) (name : String) : Flat (Value.dropField name fs) :=
  ⟨Value.nodup_dropField h.names name, fun f hf => h.atomic f (List.mem_filter.mp hf).1⟩

theorem exists_message (h : Flat fs) : ∃ m, message fs = .ok m :=
  Json.exists_canonical (h.dropField signatureField).atomic

/-- The signed bytes tell what stands under every other name. -/
theorem lookup_of_message (hfs : Flat fs) (hgs : Flat gs) (hm : message fs = .ok m) (hm' : message gs = .ok m)
    {name : String} (hname : name ≠ signatureField) : Value.lookup name fs = Value.lookup name gs := by
  have hbody := hfs.dropField signatureField
  have hbody' := hgs.dropField signatureField
  have hperm := Json.perm_of_canonical hbody.atomic hbody.names hbody'.atomic hbody'.names hm hm'
  calc Value.lookup name fs
      = Value.lookup name (Value.dropField signatureField fs) := (Value.lookup_dropField hname).symm
    _ = Value.lookup name (Value.dropField signatureField gs) := Value.lookup_of_perm hperm hbody.names
    _ = Value.lookup name gs := Value.lookup_dropField hname

/-- **The signature of a signed root binds every other field.** Flat objects have signed bytes; if they have the same
ones, they hold the same under every name but that of the signature. If both are accepted with one signature under one
key, though they differ under another name, then this signature is accepted for two different messages. -/
theorem signature_binds (hfs : Flat fs) (hgs : Flat gs) : ∃ m m', message fs = .ok m ∧ message gs = .ok m' ∧
    (m = m' → ∀ name, name ≠ signatureField → Value.lookup name fs = Value.lookup name gs) ∧
    (isValid fs = true → isValid gs = true → fieldBytes? signatureField fs = fieldBytes? signatureField gs →
      fieldBytes? keyField fs = fieldBytes? keyField gs →
      (∃ name, name ≠ signatureField ∧ Value.lookup name fs ≠ Value.lookup name gs) →
      ∃ key signature, fieldBytes? keyField fs = some key ∧ fieldBytes? signatureField fs = some signature ∧ m ≠ m' ∧
        Signature.verify key m signature = true ∧ Signature.verify key m' signature = true) := by
  obtain ⟨m, hm⟩ := exists_message hfs
  obtain ⟨m', hm'⟩ := exists_message hgs
  have hbinds : m = m' → ∀ name, name ≠ signatureField → Value.lookup name fs = Value.lookup name gs := by
    rintro rfl name hname
    exact lookup_of_message hfs hgs hm hm' hname
  refine ⟨m, m', hm, hm', hbinds, ?_⟩
  rintro hvalid hvalid' hsignatures hkeys ⟨name, hname, hdiffer⟩
  obtain ⟨signature, key, n, hsignature, hkey, hn, -, hverify⟩ := isValid_eq_true_iff.mp hvalid
  obtain ⟨signature', key', n', hsignature', hkey', hn', -, hverify'⟩ := isValid_eq_true_iff.mp hvalid'
  obtain rfl : m = n := Except.ok.inj (hm.symm.trans hn)
  obtain rfl : m' = n' := Except.ok.inj (hm'.symm.trans hn')
  obtain rfl : signature = signature' := Option.some.inj (hsignature.symm.trans (hsignatures.trans hsignature'))
  obtain rfl : key = key' := Option.some.inj (hkey.symm.trans (hkeys.trans hkey'))
  exact ⟨key, signature, hkey, hsignature, fun heq => hdiffer (hbinds heq name hname), hverify, hverify'⟩

/-- No text spills into a field next to it. -/
theorem signature_binds_quoted :
    ∃ m m', message [("ts", .text "1\",\"x\":\"2"), ("signature_b64", .null)] = .ok m ∧
      message [("x", .text "2"), ("ts", .text "1")] = .ok m' ∧ m ≠ m' := by
  have hfs : Flat [("ts", .text "1\",\"x\":\"2"), ("signature_b64", .null)] :=
    ⟨by decide, by simp [Value.Atomic.text, Value.Atomic.null]⟩
  have hgs : Flat [("x", .text "2"), ("ts", .text "1")] := ⟨by decide, by simp [Value.Atomic.text]⟩
  obtain ⟨m, m', hm, hm', hbinds, -⟩ := signature_binds hfs hgs
  refine ⟨m, m', hm, hm', fun heq => ?_⟩
  have hx := hbinds heq "x" (by decide)
  exact nomatch hx

end Airdrop.SignedRoot
