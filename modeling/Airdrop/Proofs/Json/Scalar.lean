import Airdrop.Json.Reader
import Airdrop.Json.Writer
import Airdrop.Proofs.Bytes.Hex
import Airdrop.Proofs.Number.Radix

/-!
# JSON strings and integers and back

* `stringBody_asciiChar` : one character of an ASCII string, with a short escape, as it stands, or by its UTF-16 units.
  `stringBody_asciiString` : the whole string.
* `Stops` : what may follow a number. `number_decimal` : the digits of a number are read up to there.
* `scalar_null`, `scalar_bool`, `scalar_text`, `scalar_int` : the values that are neither lists nor objects.
-/

namespace Airdrop.Json

/-! ## Strings -/

theorem unit?_hexDigits {n : Nat} (hn : n < 0x10000) :
    ∃ a b c d, Text.hexDigits 4 n = [a, b, c, d] ∧ unit? a b c d = some n := by
  refine ⟨_, _, _, _, rfl, ?_⟩
  have hdigit : ∀ m : Nat, Hex.digit? (Hex.digitChar (m % 16)) = some (m % 16) := fun m =>
    Hex.digit?_digitChar (m % 16) (Nat.mod_lt m (by decide))
  rw [unit?, hdigit, hdigit, hdigit, hdigit]
  show some _ = some n
  congr 1
  omega

theorem stringBody_unitEscape {n : Nat} (hn : n < 0x10000) (rest : List Char) :
    stringBody (unitEscape n ++ rest) = prepend (codeOfUnit n) (stringBody rest) := by
  obtain ⟨a, b, c, d, hdigits, hunit⟩ := unit?_hexDigits hn
  rw [unitEscape, hdigits]
  show stringBody ('\\' :: 'u' :: a :: b :: c :: d :: rest) = _
  rw [stringBody, hunit]

theorem stringBody_unit {n : Nat} (hn : n < 0xD800 ∨ 0xE000 ≤ n) (hmax : n < 0x10000) (rest : List Char) :
    stringBody (unitEscape n ++ rest) = prepend (.char (Char.ofNat n)) (stringBody rest) := by
  rw [stringBody_unitEscape hmax, codeOfUnit, if_pos hn]

/-- A second half joins nothing that comes after it. -/
theorem cons_low {n : Fin 2048} (hn : 1024 ≤ n.val) (codes : List CodePoint) :
    cons (.half n) codes = .half n :: codes := by
  rcases codes with _ | ⟨_ | m, codes⟩
  · rfl
  · rfl
  · exact if_neg fun hno => Nat.not_lt.mpr hn hno.1

/-- A first half and a second half are one character. -/
theorem prepend_pair {high low : Fin 2048} (hhigh : high.val < 1024) (hlow : 1024 ≤ low.val)
    (r : Option (List CodePoint × List Char)) : prepend (.half high) (prepend (.half low) r) =
      prepend (.char (Char.ofNat (0x10000 + high.val * 1024 + (low.val - 1024)))) r := by
  cases r with
  | none => rfl
  | some r =>
    show some (cons (.half high) (cons (.half low) r.1), r.2) = some _
    rw [cons_low hlow, cons, if_pos ⟨hhigh, hlow⟩]
    rfl

theorem stringBody_pair {n m : Nat} (hn : 0xD800 ≤ n) (hn' : n < 0xDC00) (hm : 0xDC00 ≤ m) (hm' : m < 0xE000)
    (rest : List Char) : stringBody (unitEscape n ++ (unitEscape m ++ rest)) =
      prepend (.char (Char.ofNat (0x10000 + (n - 0xD800) * 1024 + (m - 0xDC00)))) (stringBody rest) := by
  rw [stringBody_unitEscape (by omega), stringBody_unitEscape (by omega), codeOfUnit, codeOfUnit,
    if_neg (by omega), if_neg (by omega), CodePoint.ofHalf, CodePoint.ofHalf,
    prepend_pair (by simp only [Fin.val_ofNat]; omega) (by simp only [Fin.val_ofNat]; omega)]
  simp only [Fin.val_ofNat]
  rw [show (n - 0xD800) % 2048 = n - 0xD800 by omega, show (m - 0xD800) % 2048 - 1024 = m - 0xDC00 by omega]

theorem stringBody_plain {c : Char} (hquote : c ≠ '"') (hslash : c ≠ '\\') (hlow : 0x20 ≤ c.toNat) (rest : List Char) :
    stringBody (c :: rest) = prepend (.char c) (stringBody rest) := by
  rw [stringBody]
  · rw [if_neg]
    rintro (hlt | rfl)
    · omega
    · exact hslash rfl
  · exact fun hno => absurd hno hquote
  · exact fun _ _ _ _ _ hno => absurd hno hslash
  · exact fun _ _ hno => absurd hno hslash

theorem stringBody_shortEscape {c : Char} {e : List Char} (he : shortEscape? c = some e) (rest : List Char) :
    stringBody (e ++ rest) = prepend (.char c) (stringBody rest) := by
  unfold shortEscape? at he
  split_ifs at he with hc hc hc hc hc hc hc
  all_goals
    subst hc
    obtain rfl := Option.some.inj he
    rfl

theorem stringBody_units (c : Char) (rest : List Char) :
    stringBody ((Text.units16Char c).flatMap unitEscape ++ rest) = prepend (.char c) (stringBody rest) := by
  have hvalid : c.toNat < 0xD800 ∨ 0xDFFF < c.toNat ∧ c.toNat < 0x110000 := c.valid
  have hback : Char.ofNat c.toNat = c := Char.ofNat_toNat c
  unfold Text.units16Char
  by_cases hsmall : c.toNat < 0x10000
  · rw [if_pos hsmall, List.flatMap_singleton, stringBody_unit (by omega) hsmall, hback]
  · rw [if_neg hsmall, List.flatMap_cons, List.flatMap_singleton, List.append_assoc,
      stringBody_pair (by omega) (by omega) (by omega) (by omega)]
    rw [show 0x10000 + (0xD800 + (c.toNat - 0x10000) / 1024 - 0xD800) * 1024 +
      (0xDC00 + (c.toNat - 0x10000) % 1024 - 0xDC00) = c.toNat by omega, hback]

theorem stringBody_asciiChar (c : Char) (rest : List Char) :
    stringBody (asciiChar c ++ rest) = prepend (.char c) (stringBody rest) := by
  unfold asciiChar
  split
  · next e he => exact stringBody_shortEscape he rest
  · next hnone =>
    by_cases hprint : 0x20 ≤ c.toNat ∧ c.toNat < 0x7F
    · rw [if_pos hprint]
      refine stringBody_plain ?_ ?_ hprint.1 rest
      · rintro rfl
        exact nomatch hnone
      · rintro rfl
        exact nomatch hnone
    · rw [if_neg hprint]
      exact stringBody_units c rest

/-- A string is read back from its ASCII form. -/
theorem stringBody_asciiString (rest : List Char) : ∀ cs : List Char,
    stringBody (cs.flatMap asciiChar ++ '"' :: rest) = some (cs.map .char, rest)
  | [] => rfl
  | c :: cs => by
    rw [List.flatMap_cons, List.append_assoc, stringBody_asciiChar, stringBody_asciiString rest cs]
    rfl

/-- The name of a field is read back too. -/
theorem fieldName_asciiString (name : String) (rest : List Char) :
    fieldName (name.toList.flatMap asciiChar ++ '"' :: rest) = .ok (name, rest) := by
  simp only [fieldName, stringBody_asciiString, RawText.ofCodes_char, String.ofList_toList]

/-! ## Integers -/

/-- A number ends in front of a text that goes on with no digit, fraction or exponent. -/
def Stops (rest : List Char) : Prop :=
  ∀ c ∈ rest.head?, Text.isAsciiDigit c = false ∧ c ≠ '.' ∧ c ≠ 'e' ∧ c ≠ 'E'

theorem digit_char : ∀ d < 10, (Radix.digitChar d).toNat = 48 + d ∧ Text.isAsciiDigit (Radix.digitChar d) = true := by
  decide

theorem digits_append {rest : List Char} (hrest : Stops rest) : ∀ ds : List Nat, (∀ d ∈ ds, d < 10) →
    digits (ds.map Radix.digitChar ++ rest) = (ds, rest)
  | [], _ => by
    cases rest with
    | nil => rfl
    | cons c cs =>
      have hc := (hrest c rfl).1
      rw [List.map_nil, List.nil_append, digits, List.takeWhile_cons_of_neg (by simp [hc]),
        List.dropWhile_cons_of_neg (by simp [hc]), List.map_nil]
  | d :: ds, h => by
    obtain ⟨hnat, hdigit⟩ := digit_char d (h d List.mem_cons_self)
    have ih := digits_append hrest ds fun e he => h e (List.mem_cons_of_mem d he)
    obtain ⟨hds, hrest'⟩ := Prod.mk.inj ih
    rw [List.map_cons, List.cons_append, digits, List.takeWhile_cons_of_pos hdigit, List.dropWhile_cons_of_pos hdigit,
      List.map_cons, hds, hrest', hnat, Nat.add_sub_cancel_left]

theorem fraction_of_stops {rest : List Char} (hrest : Stops rest) : fraction rest = ([], rest) := by
  unfold fraction
  split
  · exact absurd rfl (hrest '.' rfl).2.1
  · rfl

theorem exponent_of_stops {rest : List Char} (hrest : Stops rest) : exponent rest = (none, rest) := by
  cases rest with
  | nil => rfl
  | cons c cs =>
    obtain ⟨-, -, he, hE⟩ := hrest c rfl
    exact if_neg (not_or.mpr ⟨he, hE⟩)

/-- Digits without a leading zero are read as one number, unless there are too many. -/
theorem number_digits {negative : Bool} {rest : List Char} (hrest : Stops rest) {ds : List Nat} (hne : ds ≠ [])
    (hds : ∀ d ∈ ds, d < 10) (hlead : ds.length > 1 → ds.head? ≠ some 0) (hshort : ds.length ≤ Radix.maxDigits) :
    number negative (ds.map Radix.digitChar ++ rest) =
      .ok (.int (if negative then -(Radix.value 10 ds : Int) else Radix.value 10 ds), rest) := by
  unfold number
  rw [digits_append hrest ds hds]
  cases ds with
  | nil => exact absurd rfl hne
  | cons d ds =>
    simp only
    rw [if_neg fun hno => hlead hno.1 hno.2, fraction_of_stops hrest]
    simp only [exponent_of_stops hrest]
    exact if_neg (Nat.not_lt.mpr hshort)

theorem number_decimal (negative : Bool) {rest : List Char} (hrest : Stops rest) {n : Nat}
    (hn : (Radix.decimal n).length ≤ Radix.maxDigits) :
    number negative (Radix.decimal n ++ rest) = .ok (.int (if negative then -(n : Int) else n), rest) := by
  obtain ⟨ds, hds, hne, hlt, hlead, hvalue⟩ := Radix.exists_digits n
  rw [hds, List.length_map] at hn
  rw [hds, number_digits hrest hne hlt hlead hn, hvalue]

theorem exists_cons_decimal (n : Nat) : ∃ c cs, Radix.decimal n = c :: cs ∧ Text.isAsciiDigit c = true := by
  obtain ⟨ds, hds, hne, hlt, -⟩ := Radix.exists_digits n
  cases ds with
  | nil => exact absurd rfl hne
  | cons d ds => exact ⟨_, _, hds, (digit_char d (hlt d List.mem_cons_self)).2⟩

/-! ## Scalars -/

variable {strict : Bool}

theorem scalar_null (rest : List Char) : scalar strict (scalarText .null ++ rest) = .ok (.null, rest) := rfl

theorem scalar_bool (b : Bool) (rest : List Char) :
    scalar strict (scalarText (.bool b) ++ rest) = .ok (.bool b, rest) := by
  cases b <;> rfl

theorem scalar_text (s : String) (rest : List Char) :
    scalar strict (scalarText (.text s) ++ rest) = .ok (.text s, rest) := by
  show string strict ((s.toList.flatMap asciiChar ++ ['"']) ++ rest) = _
  rw [List.append_assoc, List.singleton_append, string, stringBody_asciiString]
  simp only [RawText.ofCodes_char, String.ofList_toList]

/-- None of the letters that announce other values is a digit. -/
theorem scalar_int {rest : List Char} (hrest : Stops rest) {n : Int} (hn : Radix.isLong n = false) :
    scalar strict (scalarText (.int n) ++ rest) = .ok (.int n, rest) := by
  have hshort : (Radix.decimal n.natAbs).length ≤ Radix.maxDigits := Nat.not_lt.mp (of_decide_eq_false hn)
  cases n with
  | ofNat n =>
    have hnumber := number_decimal false hrest hshort
    obtain ⟨c, cs, hdecimal, hc⟩ := exists_cons_decimal n
    have hother : ∀ x : Char, Text.isAsciiDigit x = false → c ≠ x := by
      rintro x hx rfl
      exact Bool.false_ne_true (hx.symm.trans hc)
    show scalar strict (Radix.decimal n ++ rest) = _
    rw [Int.natAbs_ofNat'] at hnumber
    rw [hdecimal, List.cons_append] at hnumber ⊢
    rw [scalar]
    · exact hnumber
    all_goals exact fun _ hno => hother _ (by decide) (List.cons.inj hno).1
  | negSucc n =>
    have hnumber := number_decimal true hrest hshort
    obtain ⟨c, cs, hdecimal, hc⟩ := exists_cons_decimal (n + 1)
    show scalar strict ('-' :: (Radix.decimal (n + 1) ++ rest)) = _
    rw [Int.natAbs_negSucc] at hnumber
    rw [hdecimal, List.cons_append] at hnumber ⊢
    rw [scalar]
    · exact hnumber
    · rintro _ hno
      rw [(List.cons.inj hno).1] at hc
      exact absurd hc (by decide)

end Airdrop.Json
