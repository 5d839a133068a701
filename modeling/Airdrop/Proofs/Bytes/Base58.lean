import Airdrop.Bytes.Base58
import Airdrop.Proofs.Number.Radix
import Airdrop.Proofs.Outcome
import Airdrop.Proofs.Text.Blank

/-!
# Base58 text and back

* `digit?_digitChar`, `digitChar_of_digit?` : the characters of digits; none of them is blank, and only that of zero is
  `1`.
* `minimalBytes_toNatBE` : the bytes of a string's number are the string without its leading zeros.
* `toNatBE_minimalBytes` : the number of the bytes of a number is that number, and zeros in front do not change it.
* `ofText?_text` : a byte string is read back from its text.
* `encode_of_ofDigits?` : digits that are read are those that are written. `ofText?_eq_some_iff` : so a text is read as
  a byte string just if it is the text of that byte string, apart from blanks at its end.
-/

namespace Airdrop

theorem Bytes.toNatLE_eq : ∀ bs : Bytes, toNatLE bs = Nat.ofDigits 256 (bs.map UInt8.toNat)
  | [] => rfl
  | b :: bs => by
    rw [toNatLE, toNatLE_eq bs, List.map_cons, Nat.ofDigits_cons]

theorem Bytes.toNatBE_eq (bs : Bytes) : toNatBE bs = Radix.value 256 (bs.map UInt8.toNat) := by
  rw [toNatBE, toNatLE_eq, Radix.value_eq, List.map_reverse]

theorem Bytes.toNatBE_zero_cons (bs : Bytes) : toNatBE (0 :: bs) = toNatBE bs := by
  rw [toNatBE_eq, toNatBE_eq, List.map_cons, Radix.value_eq, Radix.value_eq, UInt8.toNat_zero,
    List.reverse_cons, Nat.ofDigits_append_zero]

/-- Zeros in front do not change a number, however many there are. -/
theorem Bytes.toNatBE_zeros_append {α : Type} (xs : List α) (bs : Bytes) :
    toNatBE (xs.map (fun _ => 0) ++ bs) = toNatBE bs := by
  induction xs with
  | nil => rfl
  | cons x xs ih => rw [List.map_cons, List.cons_append, toNatBE_zero_cons, ih]

namespace Base58

/-! ## Digits -/

theorem digit?_digitChar : ∀ d < 58, digit? (digitChar d) = some d := by decide

theorem isBlank_digitChar : ∀ d < 58, Text.isBlank (digitChar d) = false := by decide +kernel

theorem digitChar_eq_one_iff : ∀ d < 58, digitChar d = '1' ↔ d = 0 := by decide

theorem digitChar_of_digit? {c : Char} {d : Nat} (h : digit? c = some d) : d < 58 ∧ digitChar d = c := by
  obtain ⟨hd, hc, -⟩ := List.findIdx?_eq_some_iff_getElem.mp h
  refine ⟨hd, ?_⟩
  rw [digitChar, List.getD_eq_getElem?_getD, List.getElem?_eq_getElem hd]
  exact beq_iff_eq.mp hc

/-- Characters that all stand for digits are the characters of these digits. -/
theorem map_digitChar_of_mapM : ∀ (cs : List Char) {ds : List Nat}, cs.mapM digit? = some ds →
    (∀ d ∈ ds, d < 58) ∧ ds.map digitChar = cs
  | [], ds, h => by
    rw [List.mapM_nil] at h
    obtain rfl := Option.some.inj h
    simp
  | c :: cs, ds, h => by
    simp only [List.mapM_cons, Option.bind_eq_bind, Option.bind_eq_some_iff] at h
    obtain ⟨d, hd, more, hmore, heq⟩ := h
    obtain rfl := Option.some.inj heq
    obtain ⟨hlt, hchar⟩ := digitChar_of_digit? hd
    obtain ⟨hall, hchars⟩ := map_digitChar_of_mapM cs hmore
    rw [List.forall_mem_cons, List.map_cons, hchar, hchars]
    exact ⟨⟨hlt, hall⟩, rfl⟩

/-- Digits without a leading zero do not begin with `1`. -/
theorem strip_map_digitChar {ds : List Nat} (hlt : ∀ d ∈ ds, d < 58) (hhead : ∀ d ∈ ds.head?, d ≠ 0) :
    (ds.map digitChar).takeWhile (· == '1') = [] ∧
      (ds.map digitChar).dropWhile (· == '1') = ds.map digitChar := by
  cases ds with
  | nil => exact ⟨rfl, rfl⟩
  | cons d ds =>
    have hne : ¬ (digitChar d == '1') = true := by
      rw [beq_iff_eq, digitChar_eq_one_iff d (hlt d List.mem_cons_self)]
      exact hhead d rfl
    rw [List.map_cons]
    exact ⟨List.takeWhile_cons_of_neg hne, List.dropWhile_cons_of_neg hne⟩

/-! ## Numbers -/

/-- A run of one element is this element as often as the run is long. -/
theorem map_takeWhile {α : Type} [BEq α] [LawfulBEq α] (a : α) (xs : List α) :
    (xs.takeWhile (· == a)).map (fun _ => a) = xs.takeWhile (· == a) := by
  refine (List.map_congr_left fun x hx => ?_).trans (List.map_id _)
  exact (beq_iff_eq.mp (List.mem_takeWhile_imp (p := (· == a)) hx)).symm

/-- The bytes of a string's number are the string without its leading zeros. -/
theorem minimalBytes_toNatBE : ∀ bs : Bytes, minimalBytes (Bytes.toNatBE bs) = bs.dropWhile (· == 0)
  | [] => by decide
  | b :: bs => by
    by_cases hb : b = 0
    · subst hb
      rw [Bytes.toNatBE_zero_cons, minimalBytes_toNatBE bs]
      rfl
    · have hdigits : (Radix.digits 256 (Bytes.toNatBE (b :: bs))).reverse = (b :: bs).map UInt8.toNat := by
        rw [Bytes.toNatBE_eq]
        refine Radix.digits_value (by decide) ?_ ?_
        · intro d hd
          obtain ⟨c, -, rfl⟩ := List.mem_map.mp hd
          exact c.toNat_lt
        · intro d hd
          obtain rfl := Option.some.inj hd
          exact fun h0 => hb (UInt8.toNat_inj.mp h0)
      rw [minimalBytes, hdigits, List.map_map, List.dropWhile_cons_of_neg (by simpa using hb)]
      exact List.map_id'' (fun c => UInt8.ofNat_toNat) _

theorem map_toNat_minimalBytes (n : Nat) : (minimalBytes n).map UInt8.toNat = (Radix.digits 256 n).reverse := by
  rw [minimalBytes, List.map_map]
  refine (List.map_congr_left fun d hd => ?_).trans (List.map_id _)
  have hlt : d < 256 := Radix.lt_of_mem_digits (by decide) (List.mem_reverse.mp hd)
  simp only [Function.comp_apply, UInt8.toNat_ofNat', id_eq]
  omega

theorem toNatBE_minimalBytes (n : Nat) : Bytes.toNatBE (minimalBytes n) = n := by
  rw [Bytes.toNatBE_eq, map_toNat_minimalBytes, Radix.value_digits (by decide)]

/-- The bytes of a number have no zero in front. -/
theorem takeWhile_minimalBytes (n : Nat) : (minimalBytes n).takeWhile (· == 0) = [] := by
  have hhead : ∀ d ∈ (Radix.digits 256 n).reverse.head?, d ≠ 0 := Radix.head_reverse_digits_ne_zero (by decide) n
  rw [← map_toNat_minimalBytes, List.head?_map] at hhead
  cases hbytes : minimalBytes n with
  | nil => rfl
  | cons b bs =>
    rw [hbytes] at hhead
    apply List.takeWhile_cons_of_neg
    intro hb
    apply hhead b.toNat rfl
    rw [beq_iff_eq.mp hb, UInt8.toNat_zero]

/-! ## Texts -/

theorem encode_eq (bs : Bytes) : ∃ ds : List Nat, (∀ d ∈ ds, d < 58) ∧ (∀ d ∈ ds.head?, d ≠ 0) ∧
    Radix.value 58 ds = Bytes.toNatBE bs ∧
    encode bs = (bs.takeWhile (· == 0)).map (fun _ => '1') ++ ds.map digitChar :=
  ⟨_, fun _ hd => Radix.lt_of_mem_digits (by decide) (List.mem_reverse.mp hd),
    Radix.head_reverse_digits_ne_zero (by decide) _, Radix.value_digits (by decide) _, rfl⟩

theorem mem_alphabet (bs : Bytes) : ∀ c ∈ encode bs, c ∈ alphabet := by
  have hdigit : ∀ d < 58, digitChar d ∈ alphabet := by decide
  obtain ⟨ds, hlt, -, -, henc⟩ := encode_eq bs
  intro c hc
  rw [henc] at hc
  rcases List.mem_append.mp hc with hc | hc
  · obtain ⟨-, -, rfl⟩ := List.mem_map.mp hc
    decide
  · obtain ⟨d, hd, rfl⟩ := List.mem_map.mp hc
    exact hdigit d (hlt d hd)

theorem ofDigits?_encode (bs : Bytes) : ofDigits? (encode bs) = some bs := by
  obtain ⟨ds, hlt, hhead, hvalue, henc⟩ := encode_eq bs
  have hones : ∀ c ∈ (bs.takeWhile (· == 0)).map (fun _ => '1'), (c == '1') = true := by simp
  obtain ⟨hfirst, hrest⟩ := strip_map_digitChar hlt hhead
  have hdigits : (ds.map digitChar).mapM digit? = some ds :=
    Outcome.mapM_map_eq_some ds fun d hd => digit?_digitChar d (hlt d hd)
  unfold ofDigits?
  rw [henc, List.takeWhile_append_of_pos hones, List.dropWhile_append_of_pos hones, hfirst, hrest,
    hdigits, Option.map_some, hvalue, minimalBytes_toNatBE, List.append_nil, List.map_map]
  exact congrArg some ((congrArg (· ++ _) (map_takeWhile 0 bs)).trans List.takeWhile_append_dropWhile)

/-- A byte string is read back from its Base58 text. -/
theorem ofText?_text (bs : Bytes) : ofText? (text bs) = some bs := by
  obtain ⟨ds, hlt, -, -, henc⟩ := encode_eq bs
  have hblank : ∀ c ∈ encode bs, Text.isBlank c = false := by
    rw [henc]
    intro c hc
    rcases List.mem_append.mp hc with hc | hc
    · obtain ⟨-, -, rfl⟩ := List.mem_map.mp hc
      decide
    · obtain ⟨d, hd, rfl⟩ := List.mem_map.mp hc
      exact isBlank_digitChar d (hlt d hd)
  rw [ofText?, text, decode?, String.toList_ofList, Text.trimRight_of_forall hblank, ofDigits?_encode]

/-! ## Texts that are read -/

/-- What follows the ones of a text begins with a digit that is not zero. -/
theorem head_ne_zero_of_mapM {cs : List Char} {ds : List Nat} (h : (cs.dropWhile (· == '1')).mapM digit? = some ds) :
    ∀ d ∈ ds.head?, d ≠ 0 := by
  obtain ⟨hlt, hchars⟩ := map_digitChar_of_mapM _ h
  rintro d hd rfl
  have hone : (cs.dropWhile (· == '1')).head? = some '1' := by
    rw [← hchars, List.head?_map, Option.mem_def.mp hd]
    rfl
  have hnot := List.head?_dropWhile_not (· == '1') cs
  rw [hone] at hnot
  exact absurd hnot (by decide)

/-- Digits that are read are those that are written. -/
theorem encode_of_ofDigits? {cs : List Char} {bs : Bytes} (h : ofDigits? cs = some bs) : encode bs = cs := by
  obtain ⟨ds, hds, rfl⟩ := Option.map_eq_some_iff.mp h
  obtain ⟨hlt, hchars⟩ := map_digitChar_of_mapM _ hds
  have hzeros : ∀ b ∈ (cs.takeWhile (· == '1')).map (fun _ => (0 : UInt8)), (b == 0) = true := by simp
  -- The ones in front are the zeros in front, and the other digits have the value of the other bytes.
  have hones : ((cs.takeWhile (· == '1')).map (fun _ => (0 : UInt8)) ++ minimalBytes (Radix.value 58 ds)).takeWhile
      (· == 0) = (cs.takeWhile (· == '1')).map fun _ => 0 := by
    rw [List.takeWhile_append_of_pos hzeros, takeWhile_minimalBytes, List.append_nil]
  have hdigits : (Radix.digits 58 (Radix.value 58 ds)).reverse = ds :=
    Radix.digits_value (by decide) hlt (head_ne_zero_of_mapM hds)
  rw [encode, hones, Bytes.toNatBE_zeros_append, toNatBE_minimalBytes, hdigits, hchars, List.map_map]
  exact (congrArg (· ++ _) (map_takeWhile '1' cs)).trans List.takeWhile_append_dropWhile

/-- A text without the blanks at its end, which reading ignores. -/
def bare (s : String) : String := String.ofList (Text.trimRight Text.isBlank s.toList)

/-- Each byte string has one text, apart from blanks at the end. -/
theorem ofText?_eq_some_iff {s : String} {bs : Bytes} : ofText? s = some bs ↔ bare s = text bs := by
  unfold ofText? decode? bare text
  rw [String.ofList_inj]
  constructor
  · intro h
    exact (encode_of_ofDigits? h).symm
  · intro h
    rw [h, ofDigits?_encode]

theorem text_inj {bs bs' : Bytes} (h : text bs = text bs') : bs = bs' := by
  have hread := ofText?_text bs
  rw [h, ofText?_text] at hread
  exact (Option.some.inj hread).symm

end Base58
end Airdrop
