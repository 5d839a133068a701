import Airdrop.Proofs.Log.Link

/-!
# What a redacted text shows

Each of the two substitutions leaves no secret of its own kind, and the second one uncovers none of the first. What is
found in a text after a substitution stands there in characters that were kept, so it was found before it; and it was
replaced then.

* `Announces.noneStarts_credentials`, `noneStarts_parameter` : no secret starts within the words of another one.
* `MaskedCredentials`, `MaskedParameter` : a secret of a kind at the front of a text shows nothing.
* `everywhere_maskCredentials`, `everywhere_maskParameters` : each substitution masks all secrets of its kind.
* `redacted_complete` : what is left of secrets in a redacted message, and when redaction changes nothing.
-/

namespace Airdrop.Redaction

variable {passage? : Option Char → List Char → Option Passage} {c : Char}
  {cs out name value word colon gap token rest text replacement : List Char} {previous : Option Char} {length : Nat}

/-! ## Words and separators -/

/-- What stands behind a cut through letters and a separator: some of the letters with the separator, or a part of the
separator. -/
theorem cut_cases {letters separator before here : List Char} (h : before ++ here = letters ++ separator)
    (hne : here ≠ []) : (∃ more, letters = before ++ more ∧ here = more ++ separator) ∨
      ∃ x more, x ∈ separator ∧ here = x :: more := by
  rcases List.append_eq_append_iff.mp h with ⟨more, hletters, hhere⟩ | ⟨more, -, hseparator⟩
  · exact .inl ⟨more, hletters, hhere⟩
  · obtain ⟨x, here, rfl⟩ := List.exists_cons_of_ne_nil hne
    exact .inr ⟨x, here, hseparator ▸ List.mem_append_right _ List.mem_cons_self, rfl⟩

/-- A word of letters does not begin with fewer letters and another character. -/
theorem word_ne {more : List Char} {x : Char} (hword : ∀ c ∈ word, isLetter c = true) (front : List Char)
    (hfront : front.length < word.length) (hx : isLetter x = false) : word ++ more ≠ front ++ x :: rest := by
  intro heq
  have hat := congrArg (·[front.length]?) heq
  rw [List.getElem?_append_left hfront, List.getElem?_append_right (Nat.le_refl _), Nat.sub_self] at hat
  rw [hword x (List.mem_of_getElem? hat)] at hx
  exact nomatch hx

/-- No announcement starts in a few letters and a separator. -/
theorem announcement_ne {letters separator before here more : List Char} (hannounces : Announces word colon gap)
    (hletters : letters.length < 13) (hseparator : ∀ x ∈ separator, isLetter x = false) (hne : separator ≠ [])
    (h : before ++ here = letters ++ separator) (hhere : here ≠ []) : word ++ more ≠ here ++ out := by
  have hword := hannounces.length_word
  rcases cut_cases h hhere with ⟨front, rfl, rfl⟩ | ⟨x, tail, hx, rfl⟩
  · obtain ⟨x, separator, rfl⟩ := List.exists_cons_of_ne_nil hne
    rw [List.append_assoc]
    refine word_ne hannounces.letters front ?_ (hseparator x List.mem_cons_self)
    rw [List.length_append] at hletters
    omega
  · exact word_ne hannounces.letters [] (by rw [hword]; decide) (hseparator x hx)

theorem forall_mem_mask {p : Char → Prop} (h : p '*') : ∀ c ∈ mask, p c := by
  intro c hc
  rw [List.eq_of_mem_replicate (show c ∈ List.replicate 3 '*' from hc)]
  exact h

theorem not_isLetter_of_gap (h : isGap c = true) : isLetter c = false := by
  cases hletter : isLetter c with
  | false => rfl
  | true => exact absurd h (ne_true_of_eq_false (of_isLetter hletter).2.2.1)

theorem Announces.not_isLetter_of_colon (h : Announces word colon gap) : ∀ x ∈ colon, isLetter x = false := by
  rcases h.isColon with rfl | rfl
  · exact fun x hx => nomatch hx
  · exact List.forall_mem_singleton.mpr rfl

/-- What stands between an announcing word and a token are no letters. -/
theorem Announces.not_isLetter (h : Announces word colon gap) : ∀ x ∈ colon ++ gap, isLetter x = false := by
  intro x hx
  rcases List.mem_append.mp hx with hx | hx
  · exact h.not_isLetter_of_colon x hx
  · exact not_isLetter_of_gap (h.isGap x hx)

theorem not_isLetter_cons_mask (hc : isLetter c = false) : ∀ x ∈ c :: mask, isLetter x = false :=
  List.forall_mem_cons.mpr ⟨hc, forall_mem_mask rfl⟩

/-! ## Masked secrets -/

/-- Credentials at the front of a text show nothing. -/
def MaskedCredentials (cs : List Char) : Prop :=
  ∀ word colon gap token rest, Credentials cs word colon gap token rest → gap = [' '] ∧ token = mask

def MaskedParameter (previous : Option Char) (cs : List Char) : Prop :=
  previous.any Text.isWord = false → ∀ name value rest, Parameter cs name value rest → value = mask

theorem MaskedCredentials.replacement_eq (hmasked : MaskedCredentials cs)
    (h : credentials? cs = some (replacement, length)) : replacement = cs.take length := by
  obtain ⟨word, colon, gap, token, rest, tail, hcredentials, -, -, rfl, rfl, htail⟩ := credentials?_eq_some h
  obtain ⟨rfl, rfl⟩ := hmasked _ _ _ _ _ hcredentials
  obtain rfl := htail rfl
  have heq : cs = word ++ (colon ++ ' ' :: mask) ++ tail := by
    rw [hcredentials.eq]
    simp
  rw [heq, List.length_append, Nat.add_sub_cancel, List.take_left]

theorem MaskedParameter.replacement_eq (hmasked : MaskedParameter previous cs)
    (h : parameter? previous cs = some (replacement, length)) : replacement = cs.take length := by
  obtain ⟨hprevious, name, value, rest, hparameter, rfl, rfl⟩ := parameter?_eq_some_iff.mp h
  obtain rfl := hmasked hprevious _ _ _ hparameter
  have heq : cs = name ++ '=' :: mask ++ rest := by
    rw [hparameter.eq, List.append_assoc]
    rfl
  rw [heq, List.length_append, Nat.add_sub_cancel, List.take_left]

/-! ## Nothing is left of credentials -/

/-- Credentials in a text after a substitution that starts nowhere in their announcement were there before, with the
token that they had then. -/
theorem Credentials.exists_before {first : Char} (hfinder : Finder passage?)
    (h : Credentials (first :: substitute passage? 0 (some first) cs) word colon gap token rest)
    (hno : ∀ letters, Announces (first :: letters) colon gap →
      NoneStarts passage? (some first) (letters ++ (colon ++ gap)) (token ++ rest)) :
    ∃ token' rest' previous, Credentials (first :: cs) word colon gap token' rest' ∧
      substitute passage? 0 previous (token' ++ rest') = token ++ rest := by
  obtain ⟨c, token, rfl⟩ := List.exists_cons_of_ne_nil h.token_ne
  obtain ⟨first', letters, rfl, -⟩ := h.exists_letters
  have heq := h.eq
  obtain ⟨rfl, -⟩ := List.cons.inj heq
  rw [← List.append_assoc colon] at heq
  obtain ⟨behind, previous, hbefore, hbehind⟩ :=
    Redaction.exists_before hfinder letters _ heq (hno letters h.toAnnounces)
  obtain ⟨token', rest', hcredentials, htoken⟩ :=
    h.toAnnounces.exists_credentials (h.isToken c List.mem_cons_self) behind
  refine ⟨token', rest', previous, ?_, htoken ▸ hbehind⟩
  rw [hbefore, List.append_assoc]
  exact hcredentials

/-- What replaces credentials are masked credentials. -/
theorem maskedCredentials_replacement (h : Announces word colon gap) (hends : Ends isTokenChar out) :
    MaskedCredentials (word ++ (colon ++ ' ' :: mask) ++ out) := by
  intro word' colon' gap' token' rest' h'
  have hmasked : Credentials (word ++ (colon ++ ' ' :: mask) ++ out) word colon [' '] mask out := by
    refine ⟨⟨h.isWord, h.isColon, List.cons_ne_nil _ _, List.forall_mem_singleton.mpr rfl⟩, ?_, List.cons_ne_nil _ _,
      forall_mem_mask rfl, hends⟩
    rw [List.append_assoc, List.append_assoc]
    rfl
  obtain ⟨-, -, rfl, rfl, -⟩ := hmasked.unique h'
  exact ⟨rfl, rfl⟩

/-- No credentials start in a few letters and a separator. -/
theorem maskedCredentials_of_cut {letters separator before here : List Char} (hletters : letters.length < 13)
    (hseparator : ∀ x ∈ separator, isLetter x = false) (hne : separator ≠ [])
    (h : before ++ here = letters ++ separator) (hhere : here ≠ []) : MaskedCredentials (here ++ out) :=
  fun _ _ _ _ _ hcredentials =>
    absurd hcredentials.eq.symm (announcement_ne hcredentials.toAnnounces hletters hseparator hne h hhere)

/-- No credentials start in an announcement behind its first letter. -/
theorem Announces.noneStarts_credentials {first : Char} {letters : List Char}
    (h : Announces (first :: letters) colon gap) :
    NoneStarts (fun _ => credentials?) previous (letters ++ (colon ++ gap)) out := by
  intro before here hcut hhere found replacement length more hfound
  obtain ⟨word, colon', gap', token, rest, tail, hcredentials, -, -, rfl, -⟩ := credentials?_eq_some hfound
  have hletters : letters.length < 13 := Nat.lt_of_succ_le (Nat.le_of_eq h.length_word)
  have hne : colon ++ gap ≠ [] := List.append_ne_nil_of_right_ne_nil _ h.gap_ne
  rw [List.append_assoc]
  exact announcement_ne hcredentials.toAnnounces hletters h.not_isLetter hne hcut hhere

/-- Credentials at a character that is kept would have been found there. -/
theorem maskedCredentials_of_none {first : Char} (hnone : credentials? (first :: cs) = none) :
    MaskedCredentials (first :: substitute (fun _ => credentials?) 0 (some first) cs) := by
  intro word colon gap token rest hcredentials
  obtain ⟨token', rest', -, hbefore, -⟩ :=
    hcredentials.exists_before finder_credentials fun _ => Announces.noneStarts_credentials
  obtain ⟨tail, -, -, hfound, -⟩ := credentials?_of hbefore
  exact nomatch hnone.symm.trans hfound

theorem maskedCredentials_of_some {before here : List Char} (hfound : credentials? cs = some (replacement, length))
    (hcut : replacement = before ++ here) (hhere : here ≠ []) (previous : Option Char) :
    MaskedCredentials (here ++ substitute (fun _ => credentials?) 0 previous (cs.drop length)) := by
  obtain ⟨word, colon, gap, token, rest, tail, hcredentials, hsuffix, hends, rfl, rfl, -⟩ := credentials?_eq_some hfound
  rw [← List.suffix_iff_eq_drop.mp (hsuffix.trans hcredentials.suffix)]
  cases before with
  | nil =>
    obtain rfl := hcut
    exact maskedCredentials_replacement hcredentials.toAnnounces
      (hends.of_head? (head?_substitute finder_credentials _ _))
  | cons d before =>
    -- the word has lost its first letter, and what is left of it announces nothing
    obtain ⟨first, letters, rfl, hletters, -⟩ := hcredentials.exists_letters
    obtain ⟨rfl, htail⟩ := List.cons.inj hcut
    refine maskedCredentials_of_cut hletters ?_ (List.append_ne_nil_of_right_ne_nil _ (List.cons_ne_nil _ _))
      htail.symm hhere
    intro x hx
    rcases List.mem_append.mp hx with hx | hx
    · exact hcredentials.not_isLetter_of_colon x hx
    · exact not_isLetter_cons_mask (c := ' ') rfl x hx

/-- After the first substitution all credentials are masked. -/
theorem everywhere_maskCredentials (cs : List Char) :
    Everywhere (fun _ => MaskedCredentials) none (maskCredentials cs) := by
  refine everywhere_substitute (P := fun _ _ => True) finder_credentials ?_ ?_ (fun _ _ _ _ _ _ _ _ h => h) none cs
    (everywhere_iff.mpr fun _ _ _ _ => trivial)
  · exact fun _ _ _ _ => maskedCredentials_of_none
  · exact fun _ _ _ _ hfound _ _ hcut hhere => maskedCredentials_of_some hfound hcut hhere _

/-- No secret parameter starts in a word behind its first letter, or in a separator behind the word. -/
theorem secretName_ne {first : Char} {letters separator before here more : List Char} (hname : IsSecretName name)
    (hfirst : isLetter first = true) (hletters : ∀ d ∈ letters, isLetter d = true)
    (hseparator : ∀ x ∈ separator, isLetter x = false) (h : before ++ here = letters ++ separator) (hhere : here ≠ [])
    (hprevious : (preceding (some first) before).any Text.isWord = false) : name ++ more ≠ here ++ out := by
  rcases cut_cases h hhere with ⟨front, rfl, rfl⟩ | ⟨x, tail, hx, rfl⟩
  · have hword := any_preceding (of_isLetter hfirst).1 fun d hd =>
      (of_isLetter (hletters d (List.mem_append_left _ hd))).1
    exact absurd hword (ne_true_of_eq_false hprevious)
  · exact word_ne hname.letters [] hname.length_bounds.1 (hseparator x hx)

theorem noneStarts_parameter {first : Char} {letters separator : List Char} (hfirst : isLetter first = true)
    (hletters : ∀ d ∈ letters, isLetter d = true) (hseparator : ∀ x ∈ separator, isLetter x = false) :
    NoneStarts parameter? (some first) (letters ++ separator) out := by
  intro before here hcut hhere found replacement length more hfound
  obtain ⟨hprevious, name, value, rest, hparameter, rfl, -⟩ := parameter?_eq_some_iff.mp hfound
  rw [List.append_assoc]
  exact secretName_ne hparameter.isName hfirst hletters hseparator hcut hhere hprevious

theorem Announces.noneStarts_parameter {first : Char} {letters : List Char}
    (h : Announces (first :: letters) colon gap) :
    NoneStarts parameter? (some first) (letters ++ (colon ++ gap)) out := by
  obtain ⟨hfirst, hletters⟩ := List.forall_mem_cons.mp h.letters
  exact Redaction.noneStarts_parameter hfirst hletters h.not_isLetter

theorem parameter?_mask (previous : Option Char) (cs : List Char) : parameter? previous ('*' :: cs) = none := by
  unfold parameter?
  split
  · rfl
  · rfl

/-- No parameter starts in a mask. -/
theorem substitute_mask (previous : Option Char) (cs : List Char) :
    substitute parameter? 0 previous (mask ++ cs) = mask ++ substitute parameter? 0 (some '*') cs := by
  show substitute parameter? 0 previous ('*' :: '*' :: '*' :: cs) = _
  rw [substitute_of_none (parameter?_mask _ _), substitute_of_none (parameter?_mask _ _),
    substitute_of_none (parameter?_mask _ _)]
  rfl

/-- Credentials that parameters are replaced around were there before, so their token was the mask, and the mask is
kept. -/
theorem MaskedCredentials.of_kept {first : Char} (h : MaskedCredentials (first :: cs)) :
    MaskedCredentials (first :: substitute parameter? 0 (some first) cs) := by
  intro word colon gap token rest hcredentials
  obtain ⟨token', rest', previous, hbefore, hbehind⟩ :=
    hcredentials.exists_before finder_parameter fun _ => Announces.noneStarts_parameter
  obtain ⟨rfl, rfl⟩ := h _ _ _ _ _ hbefore
  rw [substitute_mask] at hbehind
  have hends := hbefore.ends.of_head? (head?_substitute finder_parameter (some '*') _)
  exact ⟨rfl, (run_unique hbefore.isToken hcredentials.isToken hends hcredentials.ends hbehind).1.symm⟩

/-- The second substitution leaves credentials masked. -/
theorem everywhere_maskParameters_of_credentials (h : Everywhere (fun _ => MaskedCredentials) none cs) :
    Everywhere (fun _ => MaskedCredentials) none (maskParameters cs) := by
  refine everywhere_substitute finder_parameter ?_ ?_ (fun _ _ _ _ _ _ _ _ h => h) none cs h
  · exact fun _ _ _ hmasked _ => hmasked.of_kept
  · intro previous cs replacement length hfound before here hcut hhere
    obtain ⟨-, name, value, rest, hparameter, rfl, -⟩ := parameter?_eq_some_iff.mp hfound
    have hlength := hparameter.isName.length_bounds
    exact maskedCredentials_of_cut (by omega) (not_isLetter_cons_mask rfl) (List.cons_ne_nil _ _) hcut.symm hhere

/-! ## Nothing is left of parameters -/

/-- What replaces a parameter is a masked parameter. -/
theorem maskedParameter_replacement (hname : IsSecretName name) (hends : Ends isValueChar out) :
    MaskedParameter previous (name ++ '=' :: mask ++ out) := by
  intro _ name' value' rest' h'
  have hmasked : Parameter (name ++ '=' :: mask ++ out) name mask out :=
    ⟨List.append_assoc _ _ _, hname, List.cons_ne_nil _ _, forall_mem_mask rfl, hends⟩
  exact (hmasked.unique h').2.1.symm

/-- No parameter starts where a value ended. -/
theorem maskedParameter_of_ends (hends : Ends isValueChar cs) : MaskedParameter previous cs := by
  intro _ name value rest h
  obtain ⟨c, letters, rfl, hc, -⟩ := h.isName.exists_letters
  rw [h.eq] at hends
  exact absurd (of_isLetter hc).2.1 (ne_true_of_eq_false hends)

/-- A parameter at a character that is kept would have been found there. -/
theorem maskedParameter_of_none {first : Char} (hnone : parameter? previous (first :: cs) = none) :
    MaskedParameter previous (first :: substitute parameter? 0 (some first) cs) := by
  intro hprevious name value rest hparameter
  obtain ⟨c, value, rfl⟩ := List.exists_cons_of_ne_nil hparameter.value_ne
  obtain ⟨first', letters, rfl, hfirst, hletters⟩ := hparameter.isName.exists_letters
  have heq := hparameter.eq
  obtain ⟨rfl, -⟩ := List.cons.inj heq
  obtain ⟨behind, -, hbefore, -⟩ := exists_before finder_parameter letters ['='] heq
    (noneStarts_parameter hfirst hletters (List.forall_mem_singleton.mpr rfl))
  obtain ⟨value', rest', hfound⟩ := exists_parameter hparameter.isName (hparameter.isValue c List.mem_cons_self) behind
  have hsome := parameter?_eq_some_iff.mpr ⟨hprevious, _, _, _, hfound, rfl, rfl⟩
  rw [hbefore] at hnone
  exact nomatch hnone.symm.trans hsome

theorem maskedParameter_of_some {before here : List Char}
    (hfound : parameter? previous cs = some (replacement, length)) (hcut : replacement = before ++ here)
    (hhere : here ≠ []) (next : Option Char) :
    MaskedParameter (preceding previous before) (here ++ substitute parameter? 0 next (cs.drop length)) := by
  obtain ⟨-, name, value, rest, hparameter, rfl, rfl⟩ := parameter?_eq_some_iff.mp hfound
  rw [← List.suffix_iff_eq_drop.mp hparameter.suffix]
  cases before with
  | nil =>
    obtain rfl := hcut
    exact maskedParameter_replacement hparameter.isName
      (hparameter.ends.of_head? (head?_substitute finder_parameter _ _))
  | cons d before =>
    obtain ⟨first, letters, rfl, hfirst, hletters⟩ := hparameter.isName.exists_letters
    obtain ⟨rfl, htail⟩ := List.cons.inj hcut
    intro hprevious name' value' rest' hother
    refine absurd hother.eq.symm ?_
    exact secretName_ne hother.isName hfirst hletters (not_isLetter_cons_mask rfl) htail.symm hhere hprevious

/-- No parameter starts behind a replacement. -/
theorem maskedParameter_behind (hfound : parameter? previous cs = some (replacement, length))
    (next next' : Option Char) :
    MaskedParameter next' (substitute parameter? 0 next (cs.drop length)) := by
  obtain ⟨-, name, value, rest, hparameter, -, rfl⟩ := parameter?_eq_some_iff.mp hfound
  rw [← List.suffix_iff_eq_drop.mp hparameter.suffix]
  exact maskedParameter_of_ends (hparameter.ends.of_head? (head?_substitute finder_parameter _ _))

/-- After the second substitution all parameters are masked. -/
theorem everywhere_maskParameters (cs : List Char) : Everywhere MaskedParameter none (maskParameters cs) := by
  refine everywhere_substitute (P := fun _ _ => True) finder_parameter ?_ ?_ ?_ none cs
    (everywhere_iff.mpr fun _ _ _ _ => trivial)
  · exact fun _ _ _ _ => maskedParameter_of_none
  · exact fun _ _ _ _ hfound _ _ hcut hhere => maskedParameter_of_some hfound hcut hhere _
  · intro previous cs replacement length hfound c out hout _
    rw [← hout]
    exact maskedParameter_behind hfound _ _

/-! ## Redaction -/

/-- A text without unmasked secrets stays as it is. -/
theorem redact_eq_self (hcredentials : Everywhere (fun _ => MaskedCredentials) none cs)
    (hparameters : Everywhere MaskedParameter none cs) : redact cs = cs := by
  have hfirst : maskCredentials cs = cs := by
    refine substitute_eq_self finder_credentials none cs (everywhere_iff.mpr fun before here heq hne => ?_)
    exact fun _ _ => (everywhere_iff.mp hcredentials before here heq hne).replacement_eq
  have hsecond : maskParameters cs = cs := by
    refine substitute_eq_self finder_parameter none cs (everywhere_iff.mpr fun before here heq hne => ?_)
    exact fun _ _ => (everywhere_iff.mp hparameters before here heq hne).replacement_eq
  rw [redact, hfirst, hsecond]

theorem everywhere_redact_credentials (cs : List Char) : Everywhere (fun _ => MaskedCredentials) none (redact cs) :=
  everywhere_maskParameters_of_credentials (everywhere_maskCredentials cs)

theorem everywhere_redact_parameter (cs : List Char) : Everywhere MaskedParameter none (redact cs) :=
  everywhere_maskParameters (maskCredentials cs)

theorem redact_redact (cs : List Char) : redact (redact cs) = redact cs :=
  redact_eq_self (everywhere_redact_credentials cs) (everywhere_redact_parameter cs)

/-- A secret parameter in a text, where no word goes on into its name. -/
def ParameterIn (cs name value : List Char) : Prop :=
  ∃ front here rest, cs = front ++ here ∧ front.getLast?.any Text.isWord = false ∧ Parameter here name value rest

/-- Credentials in a text: the blanks between their announcement and their first token, and the token. -/
def CredentialsIn (cs gap token : List Char) : Prop :=
  ∃ front here word colon rest, cs = front ++ here ∧ Credentials here word colon gap token rest

theorem Parameter.ne_nil (h : Parameter cs name value rest) : cs ≠ [] := by
  rw [h.eq]
  exact List.append_ne_nil_of_right_ne_nil _ (List.cons_ne_nil _ _)

theorem Credentials.ne_nil (h : Credentials cs word colon gap token rest) : cs ≠ [] := by
  obtain ⟨c, letters, rfl, -⟩ := h.exists_letters
  rw [h.eq]
  exact List.cons_ne_nil _ _

theorem everywhere_parameter_iff :
    Everywhere MaskedParameter none cs ↔ ∀ name value, ParameterIn cs name value → value = mask := by
  rw [everywhere_iff]
  constructor
  · rintro h name value ⟨front, here, rest, heq, hfront, hparameter⟩
    refine h front here heq hparameter.ne_nil ?_ name value rest hparameter
    rwa [preceding_eq_getLast?, Option.or_none]
  · intro h before here heq _ hbefore name value rest hparameter
    rw [preceding_eq_getLast?, Option.or_none] at hbefore
    exact h name value ⟨before, here, rest, heq, hbefore, hparameter⟩

theorem everywhere_credentials_iff : Everywhere (fun _ => MaskedCredentials) none cs ↔
    ∀ gap token, CredentialsIn cs gap token → gap = [' '] ∧ token = mask := by
  rw [everywhere_iff]
  constructor
  · rintro h gap token ⟨front, here, word, colon, rest, heq, hcredentials⟩
    exact h front here heq hcredentials.ne_nil word colon gap token rest hcredentials
  · intro h before here heq _ word colon gap token rest hcredentials
    exact h gap token ⟨before, here, word, colon, rest, heq, hcredentials⟩

end Redaction

namespace Message

open Redaction

/-- **Redaction is complete.** A message that can be filled in is redacted to one with a text in which all secret
parameters and all credentials are masked. Redacting it again changes nothing, and a text without secrets stays as it
is. -/
theorem redacted_complete {m : Message} {cs : List Char} (h : m.text? = some cs) :
    ∃ out, m.redacted.text? = some out ∧
      (∀ name value, ParameterIn out name value → value = mask) ∧
      (∀ gap token, CredentialsIn out gap token → gap = [' '] ∧ token = mask) ∧
      m.redacted.redacted = m.redacted ∧
      ((¬ ∃ name value, ParameterIn cs name value) → (¬ ∃ gap token, CredentialsIn cs gap token) → out = cs) := by
  have hredacted := redacted_of_text? h
  have htext : m.redacted.text? = some (redact cs) := by
    rw [hredacted]
    rfl
  refine ⟨redact cs, htext, ?_, ?_, ?_, ?_⟩
  · exact everywhere_parameter_iff.mp (everywhere_redact_parameter cs)
  · exact everywhere_credentials_iff.mp (everywhere_redact_credentials cs)
  · rw [redacted_of_text? htext, redact_redact, hredacted]
  · intro hparameters hcredentials
    refine redact_eq_self (everywhere_credentials_iff.mpr fun gap token hin => ?_)
      (everywhere_parameter_iff.mpr fun name value hin => ?_)
    · exact absurd ⟨gap, token, hin⟩ hcredentials
    · exact absurd ⟨name, value, hin⟩ hparameters

/-- A message with credentials whose token announces others and a parameter whose value names another one, and a message
with words that are no secrets. -/
theorem redacted_complete_nested :
    (∃ out, ({ template := "authorization:\t Basic AUTHORIZATION PIN=key=%d,token=3".toList
               arguments := .positional [.int 4242] } : Message).redacted.text? = some out ∧
      out = "authorization: *** PIN=***,token=***".toList ∧
      (∀ name value, ParameterIn out name value → value = mask) ∧
      ∀ gap token, CredentialsIn out gap token → gap = [' '] ∧ token = mask) ∧
    ∃ out, ({ template := "pin:token,Authorization".toList } : Message).redacted.text? = some out ∧
      out = "pin:token,Authorization".toList := by
  constructor
  · have htext : ({ template := "authorization:\t Basic AUTHORIZATION PIN=key=%d,token=3".toList
                    arguments := .positional [.int 4242] } : Message).text? =
        some "authorization:\t Basic AUTHORIZATION PIN=key=4242,token=3".toList := by decide +kernel
    obtain ⟨out, hout, hparameters, hcredentials, -, -⟩ := redacted_complete htext
    refine ⟨out, hout, ?_, hparameters, hcredentials⟩
    rw [redacted_of_text? htext] at hout
    exact (Option.some.inj hout).symm.trans (by decide +kernel)
  · have htext : ({ template := "pin:token,Authorization".toList } : Message).text? =
        some "pin:token,Authorization".toList := rfl
    obtain ⟨out, hout, -, -, -, hplain⟩ := redacted_complete htext
    refine ⟨out, hout, hplain ?_ ?_⟩
    · rintro ⟨name, value, front, here, rest, heq, -, hparameter⟩
      have hequals : '=' ∈ "pin:token,Authorization".toList := by
        rw [heq, hparameter.eq]
        simp
      exact absurd hequals (by decide)
    · rintro ⟨gap, token, front, here, word, colon, rest, heq, hcredentials⟩
      obtain ⟨c, gap, rfl⟩ := List.exists_cons_of_ne_nil hcredentials.gap_ne
      have hblank : c ∈ "pin:token,Authorization".toList := by
        rw [heq, hcredentials.eq]
        simp
      have hany := List.any_eq_true.mpr ⟨c, hblank, hcredentials.isGap c List.mem_cons_self⟩
      exact absurd hany (by decide)

end Message
end Airdrop
