import Airdrop.Proofs.Outcome
import Airdrop.Url

/-!
# Which authorities are accepted

* `Url.authority`, `Url.queryText` : the two parts of a link that are looked at, cut out whether or not the authority is
  accepted.
* `WellFormed` : both brackets or none, a numeric host between them, and no character that folds to a delimiter.
  `checkAuthority_eq_ok_iff` : these are the authorities that are accepted.
* `query_eq_ok_iff`, `query_eq_error_iff` : the query of a link is given exactly if its authority is well-formed.
-/

namespace Airdrop.Url

open Outcome

variable {cs host : List Char}

/-- The authority of a link; empty if it has none. -/
def authority (cs : List Char) : List Char := (splitAuthority (afterScheme (clean cs))).1

/-- What follows the question mark of a link, without the fragment; empty if there is no question mark. -/
def queryText (cs : List Char) : List Char :=
  ((Text.cut? '?' (Text.before '#' (splitAuthority (afterScheme (clean cs))).2)).map (·.2)).getD []

/-- A host that may stand in brackets: one that begins like a future form is one, and any other is an IPv6 address. -/
inductive IsLiteral (host : List Char) : Prop
  | future (hletter : host.head? = some 'v') (hform : isFutureForm host = true)
  | numeric (hletter : host.head? ≠ some 'v') (hfour : isIPv4 host = false) (hsix : isIPv6 host = true)

/-- An authority that a link may have. -/
structure WellFormed (authority : List Char) : Prop where
  brackets : '[' ∈ authority ↔ ']' ∈ authority
  host : '[' ∈ authority → IsLiteral (bracketed authority)
  plain : ∀ c ∈ authority, c.toNat ∉ delimiterForms

theorem checkBracketed_eq_ok_iff : checkBracketed host = .ok () ↔ IsLiteral host := by
  unfold checkBracketed
  constructor
  · intro h
    split at h
    · next hletter =>
      split at h
      · next hform => exact .future hletter hform
      · exact nomatch h
    · next hletter =>
      rw [ite_error_eq_ok] at h
      obtain ⟨hfour, h⟩ := h
      split at h
      · next hsix => exact .numeric hletter (by simpa using hfour) hsix
      · exact nomatch h
  · rintro (⟨hletter, hform⟩ | ⟨hletter, hfour, hsix⟩)
    · rw [if_pos hletter, if_pos hform]
    · rw [if_neg hletter, hfour, hsix]
      rfl

theorem checkBrackets_eq_ok_iff :
    checkBrackets cs = .ok () ↔ ('[' ∈ cs ↔ ']' ∈ cs) ∧ ('[' ∈ cs → IsLiteral (bracketed cs)) := by
  unfold checkBrackets
  rw [List.contains_eq_mem, List.contains_eq_mem]
  by_cases hopen : '[' ∈ cs <;> by_cases hclose : ']' ∈ cs <;> simp [hopen, hclose, checkBracketed_eq_ok_iff]

/-- The authorities that are accepted are the well-formed ones. -/
theorem checkAuthority_eq_ok_iff : checkAuthority cs = .ok () ↔ WellFormed cs := by
  have hany : (cs.any fun c => delimiterForms.contains c.toNat) = true ↔ ¬∀ c ∈ cs, c.toNat ∉ delimiterForms := by
    simp
  unfold checkAuthority
  rw [bind_eq_ok]
  constructor
  · rintro ⟨⟨⟩, hbrackets, hplain⟩
    obtain ⟨hboth, hhost⟩ := checkBrackets_eq_ok_iff.mp hbrackets
    refine ⟨hboth, hhost, not_not.mp fun hno => ?_⟩
    rw [if_pos (hany.mpr hno)] at hplain
    exact nomatch hplain
  · rintro ⟨hboth, hhost, hplain⟩
    refine ⟨(), checkBrackets_eq_ok_iff.mpr ⟨hboth, hhost⟩, ?_⟩
    rw [if_neg fun hno => hany.mp hno hplain]
    rfl

theorem query_eq (cs : List Char) : query cs = (checkAuthority (authority cs)).map fun _ => queryText cs := by
  unfold query authority queryText
  obtain ⟨front, rest⟩ := splitAuthority (afterScheme (clean cs))
  dsimp only
  rcases checkAuthority front with fault | ⟨⟩
  · rfl
  · rcases Text.cut? '?' (Text.before '#' rest) with _ | ⟨_, q⟩ <;> rfl

theorem query_eq_ok_iff {q : List Char} : query cs = .ok q ↔ WellFormed (authority cs) ∧ queryText cs = q := by
  rw [query_eq, map_eq_ok, ← checkAuthority_eq_ok_iff]
  exact ⟨fun ⟨⟨⟩, h⟩ => h, fun h => ⟨(), h⟩⟩

theorem query_eq_error_iff : (∃ fault, query cs = .error fault) ↔ ¬WellFormed (authority cs) := by
  rw [← checkAuthority_eq_ok_iff, query_eq]
  rcases checkAuthority (authority cs) with fault | ⟨⟩ <;> simp [Except.map]

end Airdrop.Url
