import Airdrop.Hasher
import Airdrop.Proofs.Error
import Airdrop.Proofs.Outcome

/-!
# Which texts describe a hasher

* `ofValues_eq_ok_iff` : the name of an algorithm and two tags in hexadecimal, and only these, give a hasher.
* `ofValues_eq_error`, `ofValues_of_torn` : the errors of other texts. The name of an algorithm is shown, torn or not.
-/

namespace Airdrop

open Outcome

theorem Algorithm.ofName?_eq_some_iff {name : String} {a : Algorithm} : ofName? name = some a ↔ name = a.name := by
  constructor
  · intro h
    unfold ofName? at h
    split at h
    · next hname => exact Option.some.inj h ▸ hname
    · split at h
      · next hname => exact Option.some.inj h ▸ hname
      · exact nomatch h
  · rintro rfl
    exact ofName?_name a

namespace Hasher

/-- The text writes the bytes of a tag in hexadecimal. -/
def Writes (t : RawText) (tag : Bytes) : Prop := ∃ s, t = .whole s ∧ Hex.decode s.toList = .ok tag

variable {t algorithm leafTag nodeTag : RawText} {tag : Bytes} {h : Hasher} {e : Error}

@[simp] theorem writes_whole {s : String} : Writes (.whole s) tag ↔ Hex.decode s.toList = .ok tag := by
  simp [Writes]

theorem tagOfValue_eq_ok_iff : tagOfValue t.toValue = .ok tag ↔ Writes t tag := by
  cases t with
  | whole s => exact mapError_eq_ok.trans writes_whole.symm
  | torn t => exact iff_of_false (fun hno => nomatch hno) fun ⟨_, hno, _⟩ => nomatch hno

theorem tagOfValue_eq_error (h : tagOfValue t.toValue = .error e) : ∃ i, e = .value (.badHex i) := by
  cases t with
  | whole s =>
    obtain ⟨i, -, rfl⟩ := mapError_eq_error.mp h
    exact ⟨i, rfl⟩
  | torn t => exact ⟨_, (Except.error.inj h).symm⟩

theorem algorithmOfValue_eq_ok_iff {a : Algorithm} :
    algorithmOfValue algorithm.toValue = .ok a ↔ algorithm = .whole a.name := by
  cases algorithm with
  | whole name =>
    rw [RawText.whole.injEq, ← Algorithm.ofName?_eq_some_iff, RawText.toValue, algorithmOfValue]
    cases Algorithm.ofName? name <;> simp
  | torn t => exact iff_of_false (fun hno => nomatch hno) fun hno => nomatch hno

theorem algorithmOfValue_torn (t : TornText) :
    algorithmOfValue (.torn t) = .error (.value (.unsupportedAlgorithm (.torn t))) :=
  congrArg Except.error (Error.raised_of_isSome rfl)

/-- An unknown name of an algorithm is shown as it is. -/
theorem algorithmOfValue_eq_error (h : algorithmOfValue algorithm.toValue = .error e) :
    e = .value (.unsupportedAlgorithm algorithm.toValue) := by
  cases algorithm with
  | whole name =>
    rw [RawText.toValue, algorithmOfValue] at h
    split at h
    · exact nomatch h
    · exact (Except.error.inj h).symm
  | torn t => exact (Except.error.inj ((algorithmOfValue_torn t).symm.trans h)).symm

theorem ofValues_eq_ok_iff : ofValues algorithm.toValue leafTag.toValue nodeTag.toValue = .ok h ↔
    algorithm = .whole h.algorithm.name ∧ Writes leafTag h.leafTag ∧ Writes nodeTag h.nodeTag := by
  unfold ofValues
  simp only [bind_eq_ok, tagOfValue_eq_ok_iff, algorithmOfValue_eq_ok_iff]
  constructor
  · rintro ⟨leaf, hleaf, node, hnode, a, ha, hh⟩
    obtain rfl := Except.ok.inj hh
    exact ⟨ha, hleaf, hnode⟩
  · rintro ⟨ha, hleaf, hnode⟩
    exact ⟨h.leafTag, hleaf, h.nodeTag, hnode, h.algorithm, ha, rfl⟩

theorem ofTexts_eq_ok_iff {algorithm leafTag nodeTag : String} :
    ofValues (.text algorithm) (.text leafTag) (.text nodeTag) = .ok h ↔ algorithm = h.algorithm.name ∧
      Hex.decode leafTag.toList = .ok h.leafTag ∧ Hex.decode nodeTag.toList = .ok h.nodeTag := by
  have hraw : ofValues (RawText.whole algorithm).toValue (RawText.whole leafTag).toValue
      (RawText.whole nodeTag).toValue = .ok h ↔ _ := ofValues_eq_ok_iff
  rwa [RawText.whole.injEq, writes_whole, writes_whole] at hraw

/-- There is no hasher because a tag cannot be read, or else because there is no algorithm of the name. -/
theorem ofValues_eq_error (h : ofValues algorithm.toValue leafTag.toValue nodeTag.toValue = .error e) :
    (∃ i, e = .value (.badHex i)) ∨ (∃ tag, Writes leafTag tag) ∧ (∃ tag, Writes nodeTag tag) ∧
      e = .value (.unsupportedAlgorithm algorithm.toValue) := by
  unfold ofValues at h
  simp only [bind_eq_error, tagOfValue_eq_ok_iff] at h
  rcases h with hleaf | ⟨leaf, hleaf, hnode | ⟨node, hnode, ha | ⟨_, -, hno⟩⟩⟩
  · exact .inl (tagOfValue_eq_error hleaf)
  · exact .inl (tagOfValue_eq_error hnode)
  · exact .inr ⟨⟨leaf, hleaf⟩, ⟨node, hnode⟩, algorithmOfValue_eq_error ha⟩
  · exact nomatch hno

/-- Where both tags can be read, a name that is no string is shown. -/
theorem ofValues_of_torn {t : TornText} (hleaf : ∃ tag, Writes leafTag tag) (hnode : ∃ tag, Writes nodeTag tag) :
    ofValues (.torn t) leafTag.toValue nodeTag.toValue = .error (.value (.unsupportedAlgorithm (.torn t))) := by
  obtain ⟨leaf, hleaf⟩ := hleaf
  obtain ⟨node, hnode⟩ := hnode
  rw [ofValues, tagOfValue_eq_ok_iff.mpr hleaf, ok_bind, tagOfValue_eq_ok_iff.mpr hnode, ok_bind,
    algorithmOfValue_torn]
  rfl

end Hasher
end Airdrop
