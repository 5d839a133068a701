import Airdrop.Bytes.Base64
import Airdrop.Proofs.Outcome
import Mathlib.Data.List.TakeWhile

/-!
# Base64 text and back

* `digit?_digitChar`, `digitChar_ne_filling` : the characters of digits; none of them is the filling.
* `exists_digits` : the text of a byte string is digits and then filling, from which the bytes are regained, three bytes
  from four digits.
* `ofText?_text` : a byte string is read back from its text.
-/

namespace Airdrop.Base64

/-! ## Digits -/

theorem digit?_digitChar : ∀ d < 64, digit? (digitChar d) = some d := by decide +kernel

theorem digitChar_ne_filling : ∀ d < 64, digitChar d ≠ '=' := by decide +kernel

/-! ## Groups -/

theorem byte_eq {n : Nat} {b : UInt8} (h : n = b.toNat) : UInt8.ofNat n = b := by
  rw [h]
  exact UInt8.ofNat_toNat

/-- What a text consists of: digits, from which the bytes are regained, and filling. -/
theorem exists_digits : ∀ bs : Bytes, ∃ (ds : List Nat) (filling : Nat), (∀ d ∈ ds, d < 64) ∧ (ds = [] → filling = 0) ∧
    encode bs = ds.map digitChar ++ List.replicate filling '=' ∧ decodeDigits ds filling = some bs
  | [] => ⟨[], 0, by simp, by simp, rfl, rfl⟩
  | [a] => by
    have ha : a.toNat < 256 := a.toNat_lt
    refine ⟨[a.toNat * 65536 / 262144, a.toNat * 65536 / 4096 % 64], 2, ?_, by simp, rfl, ?_⟩
    · simp only [List.forall_mem_cons, List.not_mem_nil, false_implies, implies_true, and_true]
      omega
    · rw [decodeDigits, if_pos rfl, byte_eq (b := a) (by omega)]
  | [a, b] => by
    have ha : a.toNat < 256 := a.toNat_lt
    have hb : b.toNat < 256 := b.toNat_lt
    refine ⟨[(a.toNat * 65536 + b.toNat * 256) / 262144, (a.toNat * 65536 + b.toNat * 256) / 4096 % 64,
      (a.toNat * 65536 + b.toNat * 256) / 64 % 64], 1, ?_, by simp, rfl, ?_⟩
    · simp only [List.forall_mem_cons, List.not_mem_nil, false_implies, implies_true, and_true]
      omega
    · rw [decodeDigits, if_pos rfl, byte_eq (b := a) (by omega), byte_eq (b := b) (by omega)]
  | a :: b :: c :: rest => by
    have ha : a.toNat < 256 := a.toNat_lt
    have hb : b.toNat < 256 := b.toNat_lt
    have hc : c.toNat < 256 := c.toNat_lt
    obtain ⟨ds, filling, hlt, hempty, hencode, hdecode⟩ := exists_digits rest
    let n := a.toNat * 65536 + b.toNat * 256 + c.toNat
    refine ⟨n / 262144 :: n / 4096 % 64 :: n / 64 % 64 :: n % 64 :: ds, filling, ?_, by simp, ?_, ?_⟩
    · simp only [List.forall_mem_cons]
      exact ⟨by omega, by omega, by omega, by omega, hlt⟩
    · rw [encode, hencode]
      rfl
    · rw [decodeDigits, hdecode, byte_eq (b := a) (by omega), byte_eq (b := b) (by omega), byte_eq (b := c) (by omega)]
      rfl

/-! ## Texts -/

theorem decode?_encode (bs : Bytes) : decode? (encode bs) = some bs := by
  obtain ⟨ds, filling, hlt, hempty, hencode, hdecode⟩ := exists_digits bs
  have hdata : ∀ c ∈ ds.map digitChar, (c != '=') = true := by
    intro c hc
    obtain ⟨d, hd, rfl⟩ := List.mem_map.mp hc
    simpa using digitChar_ne_filling d (hlt d hd)
  have htake : (encode bs).takeWhile (· != '=') = ds.map digitChar := by
    rw [hencode, List.takeWhile_append_of_pos hdata]
    cases filling <;> simp [List.replicate_succ]
  have hdrop : (encode bs).dropWhile (· != '=') = List.replicate filling '=' := by
    rw [hencode, List.dropWhile_append_of_pos hdata]
    cases filling <;> simp [List.replicate_succ]
  -- Filling stands behind digits only, as the reader demands.
  have hgroup : ((ds.map digitChar).isEmpty && !(List.replicate filling '=').isEmpty) = false := by
    cases ds with
    | nil => simp [hempty rfl]
    | cons d ds => rfl
  have hfilling : (List.replicate filling '=').any (· != '=') = false := by simp
  have hdigits : (ds.map digitChar).mapM digit? = some ds :=
    Outcome.mapM_map_eq_some ds fun d hd => digit?_digitChar d (hlt d hd)
  unfold decode?
  rw [htake, hdrop]
  simp only [hgroup, hfilling, hdigits, Option.bind_some, List.length_replicate, hdecode, Bool.false_eq_true,
    if_false]

/-- A byte string is read back from its Base64 text. -/
theorem ofText?_text (bs : Bytes) : ofText? (text bs) = some bs := by
  unfold ofText? text
  rw [String.toList_ofList, decode?_encode]

end Airdrop.Base64
