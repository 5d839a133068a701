import Airdrop.Proofs.Text.Split
import Airdrop.Proofs.Text.Utf8
import Airdrop.Url.Query

/-!
# Queries are read back

* `isWritten` : the characters that names and values are written with; no separator of a link is among them
  (`not_mem_encode`, `not_mem_render`).
* `bytes_encode` : a written text stands for its UTF-8 bytes, one character after the other. `decode_encode` : so it is
  read back.
* `pairs_render` : names and values are read back from their query.
-/

namespace Airdrop

theorem Utf8.decodeLossy_encode (cs : List Char) : decodeLossy (encode cs) = cs := by
  unfold decodeLossy
  rw [read_encode cs _ (Nat.le_refl _), List.map_map]
  exact List.map_id cs

namespace Query

/-! ## The characters of a query -/

/-- A character that names and values are written with. -/
def isWritten (c : Char) : Bool := isPlain c || c == '+' || c == '%'

theorem isPlain_upperDigit : ∀ n < 16, isPlain (upperDigit n) = true := by decide

theorem digit?_upperDigit : ∀ n < 16, Hex.digit? (upperDigit n) = some n := by decide

theorem isWritten_of_mem_escapeByte (b : UInt8) : ∀ c ∈ escapeByte b, isWritten c = true := by
  have hb : b.toNat < 256 := b.toNat_lt
  have hhi := isPlain_upperDigit (b.toNat / 16) (by omega)
  have hlo := isPlain_upperDigit (b.toNat % 16) (by omega)
  intro c hc
  simp only [escapeByte, List.mem_cons, List.not_mem_nil, or_false] at hc
  rcases hc with rfl | rfl | rfl
  · decide
  · simp [isWritten, hhi]
  · simp [isWritten, hlo]

theorem isWritten_of_mem_encode (cs : List Char) : ∀ c ∈ encode cs, isWritten c = true := by
  intro c hc
  obtain ⟨d, -, hd⟩ := List.mem_flatMap.mp hc
  unfold encodeChar at hd
  split at hd
  · next hplain =>
    obtain rfl := List.mem_singleton.mp hd
    simp [isWritten, hplain]
  · split at hd
    · obtain rfl := List.mem_singleton.mp hd
      decide
    · obtain ⟨b, -, hb⟩ := List.mem_flatMap.mp hd
      exact isWritten_of_mem_escapeByte b c hb

theorem toNat_lt_of_isWritten {c : Char} (h : isWritten c = true) : c.toNat < 128 := by
  unfold isWritten isPlain isLetter Text.isAsciiDigit at h
  simp only [Bool.or_eq_true, Bool.and_eq_true, decide_eq_true_eq, beq_iff_eq, List.contains_iff_mem, Char.le_def,
    UInt32.le_iff_toNat_le] at h
  rcases h with ((((⟨-, h⟩ | ⟨-, h⟩) | ⟨-, h⟩) | h) | rfl) | rfl
  · exact Nat.lt_of_le_of_lt h (by decide)
  · exact Nat.lt_of_le_of_lt h (by decide)
  · exact Nat.lt_of_le_of_lt h (by decide)
  · have hall : ("_.-~".toList.all fun c => c.toNat < 128) = true := by decide
    exact of_decide_eq_true (List.all_eq_true.mp hall c h)
  · decide
  · decide

theorem not_mem_encode {x : Char} (hx : isWritten x = false) (cs : List Char) : x ∉ encode cs := by
  intro hmem
  have hwritten := isWritten_of_mem_encode cs x hmem
  rw [hx] at hwritten
  exact Bool.false_ne_true hwritten

theorem not_mem_render {x : Char} (hx : isWritten x = false) (hand : x ≠ '&') (hequals : x ≠ '=') :
    ∀ ps : List (List Char × List Char), x ∉ render ps := by
  have hpair (p : List Char × List Char) : x ∉ encode p.1 ++ '=' :: encode p.2 := by
    have hname := not_mem_encode hx p.1
    have hvalue := not_mem_encode hx p.2
    simp [hname, hvalue, hequals]
  intro ps
  induction ps with
  | nil => exact List.not_mem_nil
  | cons p ps ih =>
    cases ps with
    | nil => exact hpair p
    | cons q ps =>
      intro hmem
      rcases List.mem_append.mp hmem with hfirst | hrest
      · rcases List.mem_append.mp hfirst with hown | hsep
        · exact hpair p hown
        · exact hand (List.mem_singleton.mp hsep)
      · exact ih hrest

/-! ## Texts -/

theorem bytes_plain {c : Char} (hc : isPlain c = true) (rest : List Char) :
    bytes (c :: rest) = Utf8.encodeChar c ++ bytes rest := by
  have hpercent : c ≠ '%' := by
    rintro rfl
    exact absurd hc (by decide)
  have hplus : c ≠ '+' := by
    rintro rfl
    exact absurd hc (by decide)
  -- The last case of `bytes` is left, once the character is neither of the two that are read otherwise.
  rw [bytes]
  · exact fun _ _ _ hno => absurd hno hpercent
  · exact hplus

theorem bytes_escapeByte (b : UInt8) (rest : List Char) : bytes (escapeByte b ++ rest) = b :: bytes rest := by
  have hb : b.toNat < 256 := b.toNat_lt
  have hhi := digit?_upperDigit (b.toNat / 16) (by omega)
  have hlo := digit?_upperDigit (b.toNat % 16) (by omega)
  have hbyte : UInt8.ofNat (16 * (b.toNat / 16) + b.toNat % 16) = b := by
    rw [Nat.div_add_mod]
    exact UInt8.ofNat_toNat
  show bytes ('%' :: upperDigit (b.toNat / 16) :: upperDigit (b.toNat % 16) :: rest) = _
  rw [bytes, hhi, hlo]
  exact congrArg (· :: bytes rest) hbyte

theorem bytes_escapeBytes (bs : Bytes) (rest : List Char) :
    bytes (bs.flatMap escapeByte ++ rest) = bs ++ bytes rest := by
  induction bs with
  | nil => rfl
  | cons b bs ih => rw [List.flatMap_cons, List.append_assoc, bytes_escapeByte, ih, List.cons_append]

/-- A written character stands for its UTF-8 bytes. -/
theorem bytes_encodeChar (c : Char) (rest : List Char) :
    bytes (encodeChar c ++ rest) = Utf8.encodeChar c ++ bytes rest := by
  unfold encodeChar
  split
  · next hplain => exact bytes_plain hplain rest
  · split
    · next hspace =>
      subst hspace
      rfl
    · exact bytes_escapeBytes _ rest

theorem bytes_encode (cs : List Char) : bytes (encode cs) = Utf8.encode cs := by
  induction cs with
  | nil => rfl
  | cons c cs ih =>
    show bytes (encodeChar c ++ encode cs) = Utf8.encodeChar c ++ Utf8.encode cs
    rw [bytes_encodeChar, ih]

/-- A text is read back from its written form. -/
theorem decode_encode (cs : List Char) : decode (encode cs) = cs := by
  unfold decode
  rw [bytes_encode, Utf8.decodeLossy_encode]

theorem encode_ne_nil {cs : List Char} (hcs : cs ≠ []) : encode cs ≠ [] := by
  intro hno
  have hread := decode_encode cs
  rw [hno] at hread
  exact hcs hread.symm

/-! ## Names and values -/

theorem pair_encode (name value : List Char) : pair (encode name ++ '=' :: encode value) = (name, value) := by
  unfold pair
  rw [Text.cut?_append (not_mem_encode (by decide) name)]
  simp only [decode_encode]

/-- Names and values are read back from their query, in their order. -/
theorem pairs_render (ps : List (List Char × List Char)) : pairs (render ps) = ps := by
  by_cases hnil : ps = []
  · subst hnil
    rfl
  let piece (p : List Char × List Char) : List Char := encode p.1 ++ '=' :: encode p.2
  have hsplit : Text.split '&' (render ps) = ps.map piece := by
    refine Text.split_join (by simpa using hnil) fun x hx => ?_
    obtain ⟨p, -, rfl⟩ := List.mem_map.mp hx
    have hname := not_mem_encode (x := '&') (by decide) p.1
    have hvalue := not_mem_encode (x := '&') (by decide) p.2
    simp [hname, hvalue]
  -- The equals sign stands in every piece, so none is skipped as empty.
  have hkeep : (ps.map piece).filter (fun x => !x.isEmpty) = ps.map piece := by
    rw [List.filter_eq_self]
    intro x hx
    obtain ⟨p, -, rfl⟩ := List.mem_map.mp hx
    simp [piece]
  have hpair : pair ∘ piece = id := funext fun p => pair_encode p.1 p.2
  unfold pairs
  rw [hsplit, hkeep, List.map_map, hpair, List.map_id]

end Query
end Airdrop
