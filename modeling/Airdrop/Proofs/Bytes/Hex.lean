import Airdrop.Hasher

/-!
# Hexadecimal text and back

* `digit?_digitChar` : the digits.
* `decode_encode` : a byte string is read back from its text.
* `ofDescription_describe` : so is a hasher from its description.
-/

namespace Airdrop

namespace Hex

theorem digit?_digitChar : ∀ d < 16, digit? (digitChar d) = some d := by decide

theorem digitChar_ascii : ∀ d < 16, (digitChar d).toNat < 128 ∧ Text.isAsciiBlank (digitChar d) = false := by decide

theorem decodeFrom_encode : ∀ (bs : Bytes) (i : Nat), decodeFrom i (encode bs) = .ok bs
  | [], _ => rfl
  | b :: bs, i => by
    have hb : b.toNat < 256 := b.toNat_lt
    have hhi := digit?_digitChar (b.toNat / 16) (by omega)
    have hlo := digit?_digitChar (b.toNat % 16) (by omega)
    have hblank := (digitChar_ascii (b.toNat / 16) (by omega)).2
    have hbyte : UInt8.ofNat (16 * (b.toNat / 16) + b.toNat % 16) = b := by
      rw [Nat.div_add_mod]
      exact UInt8.ofNat_toNat
    show decodeFrom i (digitChar (b.toNat / 16) :: digitChar (b.toNat % 16) :: encode bs) = _
    rw [decodeFrom, hblank, hhi, hlo]
    show (decodeFrom (i + 2) (encode bs)).map _ = _
    rw [decodeFrom_encode bs]
    exact congrArg (fun b => Except.ok (b :: bs)) hbyte

theorem decode_encode (bs : Bytes) : decode (encode bs) = .ok bs := by
  have hascii : (encode bs).findIdx? (fun c => 128 ≤ c.toNat) = none := by
    rw [List.findIdx?_eq_none_iff]
    intro c hc
    obtain ⟨b, -, hc⟩ := List.mem_flatMap.mp hc
    have hb : b.toNat < 256 := b.toNat_lt
    have hdigits : ∃ d < 16, c = digitChar d := by
      rcases List.mem_cons.mp hc with rfl | hc
      · exact ⟨b.toNat / 16, by omega, rfl⟩
      · exact ⟨b.toNat % 16, by omega, List.mem_singleton.mp hc⟩
    obtain ⟨d, hd, rfl⟩ := hdigits
    have := (digitChar_ascii d hd).1
    simpa using this
  rw [decode, hascii]
  exact decodeFrom_encode bs 0

end Hex

namespace Hasher

theorem tagOfValue_text (tag : Bytes) : tagOfValue (.text (Hex.text tag)) = .ok tag := by
  rw [tagOfValue, Hex.text, String.toList_ofList, Hex.decode_encode]
  rfl

theorem algorithmOfValue_name (a : Algorithm) : algorithmOfValue (.text a.name) = .ok a := by
  rw [algorithmOfValue, Algorithm.ofName?_name]

theorem ofDescription_describe (h : Hasher) :
    ofDescription (.object (h.describe.map fun (name, value) => (name, .text value))) = .ok h := by
  show ofValues (.text h.algorithm.name) (.text (Hex.text h.leafTag)) (.text (Hex.text h.nodeTag)) = .ok h
  rw [ofValues, tagOfValue_text, tagOfValue_text, algorithmOfValue_name]
  rfl

end Hasher
end Airdrop
