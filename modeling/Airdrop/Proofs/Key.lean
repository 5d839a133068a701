import Airdrop.Key
import Airdrop.Proofs.Bytes.Base58

/-!
# Keys as texts

Keys travel as texts. Each key has one of them, so two spellings of a key differ in blanks at the end at most.

* `parse_text_eq_ok_iff`, `parse_text_eq_error_iff` : which texts are keys, and what the others are refused for.
* `length_of_parse` : whatever it is read from, a key has 32 bytes. `ofText_text` : a key is read back from its text.
* `text_canonical` : all of this together, with the two ways between byte strings and texts.
-/

namespace Airdrop.Key

open Base58 (bare ofText? text ofText?_eq_some_iff ofText?_text text_inj)

variable {s field : String} {key : Bytes}

theorem ofBytes_eq_ok_iff {bs : Bytes} : ofBytes bs field = .ok key ↔ bs.length = 32 ∧ bs = key := by
  unfold ofBytes size
  by_cases hlen : bs.length = 32 <;> simp [hlen]

theorem ofText_eq_ofBytes {bs : Bytes} (hs : bare s = text bs) : ofText s field = ofBytes bs field := by
  rw [ofText, ofText?_eq_some_iff.mpr hs]

theorem ofText_of_forall_ne (hs : ∀ bs, bare s ≠ text bs) : ofText s field = .error (.notBase58 field) := by
  have hnone : ofText? s = none := by
    apply Option.eq_none_iff_forall_ne_some.mpr
    intro bs hbs
    exact hs bs (ofText?_eq_some_iff.mp hbs)
  rw [ofText, hnone]

theorem parse_text_eq_ok_iff : parse (.text s) field = .ok key ↔ key.length = 32 ∧ bare s = text key := by
  show ofText s field = .ok key ↔ _
  by_cases hs : ∃ bs, bare s = text bs
  · obtain ⟨bs, hs⟩ := hs
    rw [ofText_eq_ofBytes hs, ofBytes_eq_ok_iff, hs]
    constructor
    · rintro ⟨hlen, rfl⟩
      exact ⟨hlen, rfl⟩
    · rintro ⟨hlen, heq⟩
      obtain rfl := text_inj heq
      exact ⟨hlen, rfl⟩
  · rw [ofText_of_forall_ne fun bs h => hs ⟨bs, h⟩]
    simp only [reduceCtorEq, false_iff, not_and]
    exact fun _ h => hs ⟨key, h⟩

/-- A text that is no key is refused because it writes no bytes at all or because it writes too few or too many. -/
theorem parse_text_eq_error_iff {fault : EncodingFault} : parse (.text s) field = .error fault ↔
    (∀ bs, bare s ≠ text bs) ∧ fault = .notBase58 field ∨
      ∃ bs, bare s = text bs ∧ bs.length ≠ 32 ∧ fault = .keyLength field bs.length := by
  show ofText s field = .error fault ↔ _
  by_cases hs : ∃ bs, bare s = text bs
  · obtain ⟨bs, hs⟩ := hs
    rw [ofText_eq_ofBytes hs, ofBytes, size]
    constructor
    · intro h
      split at h
      · exact nomatch h
      · next hlen => exact .inr ⟨bs, hs, hlen, (Except.error.inj h).symm⟩
    · rintro (⟨hno, -⟩ | ⟨bs', hs', hlen, rfl⟩)
      · exact absurd hs (hno bs)
      · obtain rfl := text_inj (hs.symm.trans hs')
        exact if_neg hlen
  · have hforall : ∀ bs, bare s ≠ text bs := fun bs h => hs ⟨bs, h⟩
    rw [ofText_of_forall_ne hforall, Except.error.injEq]
    constructor
    · exact fun h => .inl ⟨hforall, h.symm⟩
    · rintro (⟨-, rfl⟩ | ⟨bs, h, -⟩)
      · rfl
      · exact absurd h (hforall bs)

theorem length_of_parse {v : Value} (h : parse v field = .ok key) : key.length = 32 := by
  cases v with
  | text s => exact (parse_text_eq_ok_iff.mp h).1
  | bytes bs =>
    obtain ⟨hlen, rfl⟩ := ofBytes_eq_ok_iff.mp h
    exact hlen
  | null | bool | int | float | torn | list | object => exact nomatch h

theorem ofText_text (hkey : key.length = 32) (field : String) : ofText (text key) field = .ok key :=
  parse_text_eq_ok_iff.mpr ⟨hkey, ofText?_eq_some_iff.mp (ofText?_text key)⟩

/-- **The text of a key is canonical.** A byte string is read back from its text, and a text that is read as a byte
string is its text, apart from blanks at the end. So the texts of keys, with any blanks at the end, are read as keys,
each as the key that it is the text of, and two texts are read as one key only if they differ at the end in blanks.
Every other text is refused: for a character that is no digit, or for the number of bytes that it writes. -/
theorem text_canonical (field : String) :
    (∀ bs : Bytes, ofText? (text bs) = some bs) ∧
    (∀ (s : String) (bs : Bytes), ofText? s = some bs → text bs = bare s) ∧
    (∀ (s : String) (key : Bytes), parse (.text s) field = .ok key ↔ key.length = 32 ∧ bare s = text key) ∧
    (∀ (s s' other : String) (key : Bytes), parse (.text s) field = .ok key → parse (.text s') other = .ok key →
      bare s = bare s') ∧
    (∀ s : String, (¬∃ key : Bytes, key.length = 32 ∧ bare s = text key) →
      ∃ fault : EncodingFault, parse (.text s) field = .error fault) ∧
    ∀ (s : String) (fault : EncodingFault), parse (.text s) field = .error fault ↔
      (∀ bs, bare s ≠ text bs) ∧ fault = .notBase58 field ∨
        ∃ bs, bare s = text bs ∧ bs.length ≠ 32 ∧ fault = .keyLength field bs.length := by
  refine ⟨ofText?_text, fun s bs h => ?_, fun s key => parse_text_eq_ok_iff, fun s s' other key h h' => ?_,
    fun s hno => ?_, fun s fault => parse_text_eq_error_iff⟩
  · exact (ofText?_eq_some_iff.mp h).symm
  · rw [(parse_text_eq_ok_iff.mp h).2, (parse_text_eq_ok_iff.mp h').2]
  · cases hparse : parse (.text s) field with
    | ok key => exact absurd ⟨key, parse_text_eq_ok_iff.mp hparse⟩ hno
    | error fault => exact ⟨fault, rfl⟩

/-- The key whose last byte is one, with two blanks after its text, and a text with a character that is no digit. -/
theorem text_canonical_padded :
    let one : Bytes := List.replicate 31 0 ++ [1]
    parse (.text "11111111111111111111111111111112 \u3000") "target" = .ok one ∧
      bare "11111111111111111111111111111112 \u3000" = bare "11111111111111111111111111111112" ∧
      ∃ fault, parse (.text "1111O") "target" = .error fault := by
  intro one
  obtain ⟨-, -, hok, hsame, herror, -⟩ := text_canonical "target"
  have hpadded : parse (.text "11111111111111111111111111111112 \u3000") "target" = .ok one :=
    (hok _ one).mpr (by decide +kernel)
  have hplain : parse (.text "11111111111111111111111111111112") "target" = .ok one :=
    (hok _ one).mpr (by decide +kernel)
  refine ⟨hpadded, hsame _ _ "target" one hpadded hplain, herror _ ?_⟩
  rintro ⟨key, hlen, htext⟩
  have hread : ofText? "1111O" = some key := ofText?_eq_some_iff.mpr htext
  exact nomatch hread.symm.trans (show ofText? "1111O" = none by decide +kernel)

end Airdrop.Key
