import Airdrop.Proofs.Outcome
import Airdrop.Text.Utf8

/-!
# UTF-8 and back

* `lead?_two`, `lead?_three`, `lead?_four` : what the lead byte of a longer form promises fits the byte that follows.
* `next_encodeChar` : a character is read back from its bytes, one case for each number of them.
* `decode?_encode` : a text is read back from its bytes, so texts with the same bytes are the same (`ofText_inj`).
-/

namespace Airdrop.Utf8

/-! ## Single bytes -/

theorem toNat_ofNat {n : Nat} (hn : n < 256) : (UInt8.ofNat n).toNat = n := by
  rw [UInt8.toNat_ofNat']
  omega

theorem lead?_one {n : Nat} (hn : n < 0x80) : lead? (UInt8.ofNat n) = some (0, n, 0, 0) := by
  rw [lead?, toNat_ofNat (by omega)]
  exact if_pos hn

theorem lead?_two {n : Nat} (hlow : 0x80 ≤ n) (hhigh : n < 0x800) :
    lead? (UInt8.ofNat (0xC0 + n / 64)) = some (1, n / 64, 0x80, 0xBF) := by
  rw [lead?, toNat_ofNat (by omega)]
  rw [if_neg (by omega), if_neg (by omega), if_pos (by omega), Nat.add_sub_cancel_left]

/-- Overlong forms and surrogates lie outside the range of the second byte. -/
theorem lead?_three {n : Nat} (hlow : 0x800 ≤ n) (hhigh : n < 0x10000) (hvalid : n < 0xD800 ∨ 0xDFFF < n) :
    ∃ low high, lead? (UInt8.ofNat (0xE0 + n / 4096)) = some (2, n / 4096, low, high) ∧
      low ≤ 0x80 + n / 64 % 64 ∧ 0x80 + n / 64 % 64 ≤ high := by
  rw [lead?, toNat_ofNat (by omega)]
  simp only [show ¬ 0xE0 + n / 4096 < 0x80 by omega, show ¬ 0xE0 + n / 4096 < 0xC2 by omega,
    show ¬ 0xE0 + n / 4096 < 0xE0 by omega, if_false]
  by_cases hfirst : n / 4096 = 0
  · rw [if_pos (by omega), hfirst]
    exact ⟨_, _, rfl, by omega, by omega⟩
  · rw [if_neg (by omega)]
    by_cases hsurrogates : n / 4096 = 13
    · rw [if_pos (by omega), hsurrogates]
      exact ⟨_, _, rfl, by omega, by omega⟩
    · rw [if_neg (by omega), if_pos (by omega), Nat.add_sub_cancel_left]
      exact ⟨_, _, rfl, by omega, by omega⟩

/-- Overlong forms and numbers beyond the last character lie outside the range of the second byte. -/
theorem lead?_four {n : Nat} (hlow : 0x10000 ≤ n) (hhigh : n < 0x110000) :
    ∃ low high, lead? (UInt8.ofNat (0xF0 + n / 262144)) = some (3, n / 262144, low, high) ∧
      low ≤ 0x80 + n / 4096 % 64 ∧ 0x80 + n / 4096 % 64 ≤ high := by
  rw [lead?, toNat_ofNat (by omega)]
  simp only [show ¬ 0xF0 + n / 262144 < 0x80 by omega, show ¬ 0xF0 + n / 262144 < 0xC2 by omega,
    show ¬ 0xF0 + n / 262144 < 0xE0 by omega, show ¬ 0xF0 + n / 262144 = 0xE0 by omega,
    show ¬ 0xF0 + n / 262144 = 0xED by omega, show ¬ 0xF0 + n / 262144 < 0xF0 by omega, if_false]
  by_cases hfirst : n / 262144 = 0
  · rw [if_pos (by omega), hfirst]
    exact ⟨_, _, rfl, by omega, by omega⟩
  · rw [if_neg (by omega)]
    by_cases hlast : n / 262144 = 4
    · rw [if_neg (by omega), if_pos (by omega), hlast]
      exact ⟨_, _, rfl, by omega, by omega⟩
    · rw [if_pos (by omega), Nat.add_sub_cancel_left]
      exact ⟨_, _, rfl, by omega, by omega⟩

/-- A byte that continues a character carries six bits of its number. -/
theorem follow_succ {count low high value n : Nat} {bs : Bytes} (hn : n < 64) (hlow : low ≤ 0x80 + n)
    (hhigh : 0x80 + n ≤ high) :
    follow (count + 1) low high value (UInt8.ofNat (0x80 + n) :: bs) = follow count 0x80 0xBF (value * 64 + n) bs := by
  rw [follow, toNat_ofNat (by omega), if_pos ⟨hlow, hhigh⟩, Nat.add_sub_cancel_left]

/-! ## Characters and texts -/

theorem next_eq_ok {c : Char} {b : UInt8} {bs rest : Bytes} {count value low high n : Nat}
    (hlead : lead? b = some (count, value, low, high)) (hfollow : follow count low high value bs = .ok (n, rest))
    (hc : c.toNat = n) : next b bs = .ok (c, rest) := by
  unfold next
  simp only [hlead, hfollow]
  rw [← hc]
  exact congrArg (fun d => Except.ok (d, rest)) (Char.ofNat_toNat c)

/-- A character is read back from its bytes, whatever follows them. -/
theorem next_encodeChar (c : Char) (rest : Bytes) :
    ∃ b bs, encodeChar c = b :: bs ∧ next b (bs ++ rest) = .ok (c, rest) := by
  have hvalid : c.toNat < 0xD800 ∨ 0xDFFF < c.toNat ∧ c.toNat < 0x110000 := c.valid
  generalize hc : c.toNat = n at hvalid
  have hlast : n % 64 < 64 := Nat.mod_lt _ (by decide)
  have hsecond : n / 64 % 64 < 64 := Nat.mod_lt _ (by decide)
  have hthird : n / 4096 % 64 < 64 := Nat.mod_lt _ (by decide)
  unfold encodeChar
  simp only [hc]
  by_cases hone : n < 0x80
  · rw [if_pos hone]
    exact ⟨_, _, rfl, next_eq_ok (lead?_one hone) rfl hc⟩
  rw [if_neg hone]
  by_cases htwo : n < 0x800
  · rw [if_pos htwo]
    refine ⟨_, _, rfl, next_eq_ok (lead?_two (by omega) htwo) ?_ hc⟩
    rw [List.singleton_append, follow_succ hlast (by omega) (by omega), follow]
    exact congrArg (fun m => Except.ok (m, rest)) (by omega)
  rw [if_neg htwo]
  by_cases hthree : n < 0x10000
  · rw [if_pos hthree]
    obtain ⟨low, high, hlead, hlow, hhigh⟩ := lead?_three (Nat.not_lt.mp htwo) hthree (hvalid.imp_right And.left)
    refine ⟨_, _, rfl, next_eq_ok hlead ?_ hc⟩
    rw [List.cons_append, List.singleton_append, follow_succ hsecond hlow hhigh,
      follow_succ hlast (by omega) (by omega), follow]
    exact congrArg (fun m => Except.ok (m, rest)) (by omega)
  · rw [if_neg hthree]
    obtain ⟨low, high, hlead, hlow, hhigh⟩ := lead?_four (Nat.not_lt.mp hthree) (by omega)
    refine ⟨_, _, rfl, next_eq_ok hlead ?_ hc⟩
    rw [List.cons_append, List.cons_append, List.singleton_append, follow_succ hthird hlow hhigh,
      follow_succ hsecond (by omega) (by omega), follow_succ hlast (by omega) (by omega), follow]
    exact congrArg (fun m => Except.ok (m, rest)) (by omega)

theorem read_encode : ∀ (cs : List Char) (fuel : Nat), (encode cs).length ≤ fuel →
    read fuel (encode cs) = cs.map some
  | [], 0, _ | [], _ + 1, _ => rfl
  | c :: cs, fuel, hfuel => by
    obtain ⟨b, bs, hbytes, hnext⟩ := next_encodeChar c (encode cs)
    have hall : encode (c :: cs) = b :: (bs ++ encode cs) := by
      rw [encode, List.flatMap_cons, hbytes]
      rfl
    rw [hall, List.length_cons, List.length_append] at hfuel
    obtain ⟨fuel, rfl⟩ : ∃ n, fuel = n + 1 := ⟨fuel - 1, by omega⟩
    rw [hall, read, hnext, List.map_cons]
    exact congrArg (some c :: ·) (read_encode cs fuel (by omega))

/-- A text is read back from its bytes. -/
theorem decode?_encode (cs : List Char) : decode? (encode cs) = some cs := by
  rw [decode?, read_encode cs _ (Nat.le_refl _)]
  exact Outcome.mapM_map_eq_some cs fun _ _ => rfl

theorem ofText_inj {s t : String} (h : ofText s = ofText t) : s = t := by
  have hchars : some s.toList = some t.toList := by
    rw [← decode?_encode, ← decode?_encode]
    exact congrArg decode? h
  exact String.toList_inj.mp (Option.some.inj hchars)

end Airdrop.Utf8
