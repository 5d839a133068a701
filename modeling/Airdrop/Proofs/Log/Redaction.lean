import Airdrop.Proofs.Log.Passage
import Airdrop.Proofs.Text.Split

/-!
# Redaction around separators

An ampersand belongs to no word that is looked for and is no blank, so what is read before it does not depend on what
stands behind it.

* `maskParameters_append` : the two sides of an ampersand are masked apart from each other.
* `maskCredentials_append` : what stands before an ampersand has one masked form, whatever stands behind; then either
  the ampersand stays and the text behind it is masked apart, or the run that it stands in is part of credentials.
* `redact_secret` : between ampersands the value of a secret parameter does not show.
-/

namespace Airdrop.Redaction

open Text (dropWhile_front)

variable {c : Char} {cs front rest word replacement : List Char} {previous : Option Char} {length skip : Nat}

/-! ## Reading up to a separator -/

theorem after?_append (hc : fold c ∉ word) (front rest : List Char) :
    after? word (front ++ c :: rest) = (after? word front).map (· ++ c :: rest) := by
  induction word generalizing front with
  | nil => rfl
  | cons w word ih =>
    rw [List.mem_cons, not_or] at hc
    cases front with
    | nil => exact if_neg hc.1
    | cons d front =>
      rw [List.cons_append, after?, after?]
      by_cases hd : fold d = w
      · rw [if_pos hd, if_pos hd, ih hc.2]
      · rw [if_neg hd, if_neg hd]
        rfl

theorem afterGap?_append (hc : isGap c = false) (front rest : List Char) :
    afterGap? (front ++ c :: rest) =
      (if front.head?.any isGap then some (front.dropWhile isGap) else none).map (· ++ c :: rest) := by
  unfold afterGap?
  rw [dropWhile_front hc]
  cases front with
  | nil => simp [hc]
  | cons d front =>
    by_cases hd : isGap d <;> cases hfront : (d :: front).dropWhile isGap <;> simp [hd]

theorem afterToken_append (hc : isGap c = false) (front rest : List Char) :
    afterToken (front ++ c :: rest) =
      if (afterToken front).isEmpty then afterToken rest else afterToken front ++ c :: rest := by
  unfold afterToken
  rw [List.dropWhile_append, List.dropWhile_cons_of_pos (by simp [hc])]

/-! ## Credentials before an ampersand -/

theorem afterAnnouncement?_append (front rest : List Char) :
    afterAnnouncement? (front ++ '&' :: rest) = (afterAnnouncement? front).map (· ++ '&' :: rest) := by
  unfold afterAnnouncement?
  rw [after?_append (by decide), Option.map_map, Option.map_map]
  refine congrArg (Option.map · _) (funext fun named => ?_)
  cases named with
  | nil => rfl
  | cons d named =>
    by_cases hd : d = ':'
    · subst hd
      rfl
    · simp [hd]

theorem afterScheme?_append (front : List Char) :
    ∃ own : Option (List Char), ∀ rest, afterScheme? (front ++ '&' :: rest) = own.map (· ++ '&' :: rest) := by
  have hgap (named : List Char) : ∃ own : Option (List Char),
      ∀ rest, afterGap? (named ++ '&' :: rest) = own.map (· ++ '&' :: rest) := ⟨_, afterGap?_append (by decide) named⟩
  have hbearer (rest : List Char) : after? "bearer".toList (front ++ '&' :: rest) = _ :=
    after?_append (by decide) front rest
  have hbasic (rest : List Char) : after? "basic".toList (front ++ '&' :: rest) = _ :=
    after?_append (by decide) front rest
  unfold afterScheme?
  simp only [hbearer, hbasic]
  cases after? "bearer".toList front with
  | some named => exact hgap named
  | none =>
    cases after? "basic".toList front with
    | some named => exact hgap named
    | none => exact ⟨none, fun _ => rfl⟩

/-- Whether credentials start at the front, what is kept of them and where their token starts is settled before an
ampersand. -/
theorem credentials?_start (front : List Char) :
    (∀ rest, credentials? (front ++ '&' :: rest) = none) ∨
    ∃ kept token, ∀ rest, credentials? (front ++ '&' :: rest) =
      some (passage (front ++ '&' :: rest) kept (afterToken (token ++ '&' :: rest))) := by
  unfold credentials?
  simp only [afterAnnouncement?_append front]
  cases afterAnnouncement? front with
  | none => exact Or.inl fun _ => rfl
  | some announced =>
    simp only [Option.map_some, Option.bind_eq_bind, Option.bind_some,
      afterGap?_append (c := '&') (by decide) announced]
    by_cases hgap : announced.head?.any isGap
    · rw [if_pos hgap]
      obtain ⟨own, hown⟩ := afterScheme?_append (announced.dropWhile isGap)
      refine Or.inr ⟨front.take (front.length - announced.length) ++ [' '], own.getD (announced.dropWhile isGap),
        fun rest => ?_⟩
      have hkept : (front ++ '&' :: rest).take ((front ++ '&' :: rest).length - (announced ++ '&' :: rest).length) =
          front.take (front.length - announced.length) := by
        rw [List.length_append, List.length_append, Nat.add_sub_add_right,
          List.take_append_of_le_length (Nat.sub_le _ _)]
      rw [Option.map_some, Option.bind_some, hkept, hown rest]
      cases own <;> rfl
    · rw [if_neg hgap]
      exact Or.inl fun _ => rfl

/-- Credentials that start before an ampersand end before it, or with the run that it stands in. -/
theorem credentials?_append (front : List Char) :
    (∀ rest, credentials? (front ++ '&' :: rest) = none) ∨
    (∃ replacement length, 0 < length ∧ length ≤ front.length ∧
      ∀ rest, credentials? (front ++ '&' :: rest) = some (replacement, length)) ∨
    ∃ replacement, ∀ rest, credentials? (front ++ '&' :: rest) =
      some (replacement, (front ++ '&' :: rest).length - (afterToken rest).length) := by
  rcases credentials?_start front with hnone | ⟨kept, token, hsome⟩
  · exact Or.inl hnone
  simp only [afterToken_append (c := '&') (by decide) token] at hsome
  by_cases hrun : (afterToken token).isEmpty
  · exact Or.inr (Or.inr ⟨kept ++ mask, fun rest => by rw [hsome, if_pos hrun, passage]⟩)
  · simp only [if_neg hrun, passage, List.length_append, Nat.add_sub_add_right] at hsome
    exact Or.inr (Or.inl ⟨_, _, (length_credentials? (hsome [])).1, Nat.sub_le _ _, hsome⟩)

/-! ## Masked credentials -/

/-- Credentials do not depend on the character before them. -/
theorem maskCredentials_eq (previous : Option Char) (cs : List Char) :
    substitute (fun _ => credentials?) 0 previous cs = maskCredentials cs := by
  unfold maskCredentials
  cases cs <;> rw [substitute, substitute]

theorem maskCredentials_of_none (h : credentials? (c :: cs) = none) :
    maskCredentials (c :: cs) = c :: maskCredentials cs := by
  rw [maskCredentials, substitute_of_none h, maskCredentials_eq]

theorem maskCredentials_of_some (h : credentials? cs = some (replacement, length)) :
    maskCredentials cs = replacement ++ maskCredentials (cs.drop length) := by
  rw [maskCredentials, substitute_of_some finder_credentials h, maskCredentials_eq]

theorem maskCredentials_ampersand (rest : List Char) : maskCredentials ('&' :: rest) = '&' :: maskCredentials rest :=
  maskCredentials_of_none rfl

/-- What stands before an ampersand has one masked form. Behind it the text is masked apart, from the ampersand on
or, if this is part of credentials, from the end of its run on. -/
theorem maskCredentials_append (front : List Char) : ∃ masked,
    (∀ rest, maskCredentials (front ++ '&' :: rest) = masked ++ '&' :: maskCredentials rest) ∨
    ∀ rest, maskCredentials (front ++ '&' :: rest) = masked ++ maskCredentials (afterToken rest) := by
  induction hn : front.length using Nat.strong_induction_on generalizing front with
  | _ n ih =>
    subst hn
    cases front with
    | nil => exact ⟨[], Or.inl maskCredentials_ampersand⟩
    | cons d front =>
      rcases credentials?_append (d :: front) with hnone | ⟨replacement, length, hpos, hle, hsome⟩ |
        ⟨replacement, hsome⟩
      · obtain ⟨masked, hmasked⟩ := ih front.length (Nat.lt_succ_self _) front rfl
        have hstep (rest : List Char) :
            maskCredentials (d :: front ++ '&' :: rest) = d :: maskCredentials (front ++ '&' :: rest) :=
          maskCredentials_of_none (hnone rest)
        refine ⟨d :: masked, hmasked.imp (fun h rest => ?_) fun h rest => ?_⟩ <;>
        · rw [hstep, h]
          rfl
      · have hlt : ((d :: front).drop length).length < (d :: front).length := by
          rw [List.length_drop]
          omega
        obtain ⟨masked, hmasked⟩ := ih _ hlt _ rfl
        refine ⟨replacement ++ masked, hmasked.imp (fun h rest => ?_) fun h rest => ?_⟩ <;>
          rw [maskCredentials_of_some (hsome rest), List.drop_append_of_le_length hle, h, List.append_assoc]
      · refine ⟨replacement, Or.inr fun rest => ?_⟩
        have hsuffix : afterToken rest <:+ d :: front ++ '&' :: rest :=
          (List.dropWhile_suffix _).trans ((List.suffix_cons '&' rest).trans (List.suffix_append (d :: front) _))
        rw [maskCredentials_of_some (hsome rest), ← List.suffix_iff_eq_drop.mp hsuffix]

/-- No credentials start in a run that ends with an ampersand, for a blank would have to follow the announcement. -/
theorem maskCredentials_run {run : List Char} (hrun : ∀ c ∈ run, isGap c = false) (rest : List Char) :
    maskCredentials (run ++ '&' :: rest) = run ++ '&' :: maskCredentials rest := by
  induction run with
  | nil => exact maskCredentials_ampersand rest
  | cons d run ih =>
    have hnone : credentials? (d :: run ++ '&' :: rest) = none := by
      unfold credentials?
      rw [afterAnnouncement?_append]
      cases hannounced : afterAnnouncement? (d :: run) with
      | none => rfl
      | some announced =>
        have hhead : ¬ announced.head?.any isGap := by
          cases announced with
          | nil => exact Bool.false_ne_true
          | cons a announced =>
            obtain ⟨word, colon, -, -, heq⟩ := exists_of_afterAnnouncement? hannounced
            exact ne_true_of_eq_false (hrun a (by simp [heq]))
        simp only [Option.map_some, Option.bind_eq_bind, Option.bind_some,
          afterGap?_append (c := '&') (by decide) announced,
          if_neg hhead, Option.map_none, Option.bind_none]
    have hstep : maskCredentials (d :: run ++ '&' :: rest) = d :: maskCredentials (run ++ '&' :: rest) :=
      maskCredentials_of_none hnone
    rw [hstep, ih fun c hc => hrun c (List.mem_cons_of_mem d hc)]
    rfl

/-! ## Parameters before an ampersand -/

theorem afterName?_append {name : String} (hname : '&' ∉ name.toList) (front rest : List Char) :
    afterName? name (front ++ '&' :: rest) = (afterName? name front).map (· ++ '&' :: rest) := by
  unfold afterName?
  rw [after?_append (c := '&') hname]
  cases after? name.toList front with
  | none => rfl
  | some named =>
    cases named with
    | nil => rfl
    | cons d named =>
      by_cases hd : d = '='
      · subst hd
        rfl
      · simp [hd]

theorem afterSecretName?_append (front rest : List Char) :
    afterSecretName? (front ++ '&' :: rest) = (afterSecretName? front).map (· ++ '&' :: rest) := by
  have hall : ∀ names : List String, (∀ name ∈ names, '&' ∉ name.toList) →
      names.findSome? (afterName? · (front ++ '&' :: rest)) =
        (names.findSome? (afterName? · front)).map (· ++ '&' :: rest) := by
    intro names hnames
    induction names with
    | nil => rfl
    | cons name names ih =>
      have ih := ih fun x hx => hnames x (List.mem_cons_of_mem name hx)
      rw [List.findSome?_cons, List.findSome?_cons, afterName?_append (hnames name List.mem_cons_self), ih]
      cases afterName? name front <;> rfl
  exact hall secretNames (by decide)

theorem parameter?_append (previous : Option Char) (front rest : List Char) :
    parameter? previous (front ++ '&' :: rest) = parameter? previous front := by
  unfold parameter?
  rw [afterSecretName?_append]
  cases afterSecretName? front with
  | none => rfl
  | some value =>
    have hvalue : (value ++ '&' :: rest).dropWhile isValueChar = value.dropWhile isValueChar ++ '&' :: rest :=
      dropWhile_front (by decide) value rest
    simp only [Option.map_some, hvalue, passage, List.length_append, Nat.add_sub_add_right, Nat.add_right_cancel_iff,
      List.take_append_of_le_length (Nat.sub_le front.length _)]

/-- The passages in front of a separator are those of the text in front of it alone. -/
theorem substitute_append {passage? : Option Char → List Char → Option Passage}
    (hlength : ∀ previous cs replacement length, passage? previous cs = some (replacement, length) → length ≤ cs.length)
    (hnone : ∀ previous, passage? previous [] = none)
    (happend : ∀ previous front rest, passage? previous (front ++ c :: rest) = passage? previous front)
    (rest : List Char) : ∀ (front : List Char) (skip : Nat) (previous : Option Char), skip ≤ front.length →
      substitute passage? skip previous (front ++ c :: rest) =
        substitute passage? skip previous front ++ c :: substitute passage? 0 (some c) rest
  | [], skip, previous, h => by
    obtain rfl := Nat.le_zero.mp h
    have hc := happend previous [] rest
    rw [hnone, List.nil_append] at hc
    rw [List.nil_append, substitute, substitute, hc]
    rfl
  | d :: front, skip + 1, previous, h => by
    rw [List.cons_append, substitute, substitute,
      substitute_append hlength hnone happend rest front skip _ (Nat.le_of_succ_le_succ h)]
  | d :: front, 0, previous, _ => by
    have hd := happend previous (d :: front) rest
    rw [List.cons_append] at hd ⊢
    rw [substitute, substitute, hd]
    cases hp : passage? previous (d :: front) with
    | none =>
      show d :: _ = _
      rw [substitute_append hlength hnone happend rest front 0 _ (Nat.zero_le _)]
      rfl
    | some p =>
      obtain ⟨replacement, length⟩ := p
      have hle := hlength _ _ _ _ hp
      rw [List.length_cons] at hle
      show replacement ++ _ = _
      rw [substitute_append hlength hnone happend rest front (length - 1) _ (by omega)]
      exact (List.append_assoc _ _ _).symm

/-- The two sides of an ampersand are masked apart from each other. -/
theorem substitute_parameter?_append (previous : Option Char) (front rest : List Char) :
    substitute parameter? 0 previous (front ++ '&' :: rest) =
      substitute parameter? 0 previous front ++ '&' :: substitute parameter? 0 (some '&') rest := by
  refine substitute_append (fun _ _ _ _ => length_parameter?) (fun previous => ?_) parameter?_append rest front 0
    previous
    (Nat.zero_le _)
  unfold parameter?
  split <;> rfl

theorem maskParameters_append (front rest : List Char) :
    maskParameters (front ++ '&' :: rest) = maskParameters front ++ '&' :: substitute parameter? 0 (some '&') rest :=
  substitute_parameter?_append none front rest

/-! ## The value of a secret parameter -/

theorem parameter?_secret {name : String} (hname : name ∈ secretNames) {value : List Char} (hne : value ≠ [])
    (hvalue : ∀ c ∈ value, isValueChar c = true) (hprevious : previous.any Text.isWord = false) :
    parameter? previous (name.toList ++ '=' :: value) =
      some (name.toList ++ '=' :: mask, (name.toList ++ '=' :: value).length) := by
  have hparameter : Parameter (name.toList ++ '=' :: value) name.toList value [] :=
    ⟨by rw [List.append_nil], isSecretName_of_mem hname, hne, hvalue, rfl⟩
  exact parameter?_eq_some_iff.mpr ⟨hprevious, _, _, _, hparameter, rfl, rfl⟩

theorem substitute_secret {name : String} (hname : name ∈ secretNames) {value : List Char} (hne : value ≠ [])
    (hvalue : ∀ c ∈ value, isValueChar c = true) :
    substitute parameter? 0 (some '&') (name.toList ++ '=' :: value) = name.toList ++ '=' :: mask := by
  have hampersand : (some '&').any Text.isWord = false := by decide +kernel
  rw [substitute_of_some finder_parameter (parameter?_secret hname hne hvalue hampersand), List.drop_length, substitute,
    List.append_nil]

theorem isGap_of_isValueChar (hc : isValueChar c = true) : isGap c = false := by
  unfold isValueChar at hc
  simp only [Bool.and_eq_true, Bool.not_eq_true'] at hc
  exact hc.1.1

/-- Between ampersands the value of a secret parameter does not show: whatever stands around it, all values leave
one text. -/
theorem redact_secret {name : String} (hname : name ∈ secretNames) (front rest : List Char) :
    ∃ redacted, ∀ value, value ≠ [] → (∀ c ∈ value, isValueChar c = true) →
      redact (front ++ '&' :: (name.toList ++ '=' :: value ++ '&' :: rest)) = redacted := by
  have hgap : ∀ c ∈ name.toList, isGap c = false := by
    have hall : (secretNames.all fun name => name.toList.all fun c => !isGap c) = true := by decide
    intro c hc
    simpa using List.all_eq_true.mp (List.all_eq_true.mp hall name hname) c hc
  have hrun (value : List Char) (hvalue : ∀ c ∈ value, isValueChar c = true) :
      ∀ c ∈ name.toList ++ '=' :: value, isGap c = false := by
    intro c hc
    rcases List.mem_append.mp hc with hc | hc
    · exact hgap c hc
    · rcases List.mem_cons.mp hc with rfl | hc
      · decide
      · exact isGap_of_isValueChar (hvalue c hc)
  -- credentials that start in `front` may take the parameter with them, and then the value is masked as their token
  obtain ⟨masked, hmasked | hmasked⟩ := maskCredentials_append front
  · refine ⟨maskParameters masked ++ '&' :: (name.toList ++ '=' :: mask ++
      '&' :: substitute parameter? 0 (some '&') (maskCredentials rest)), fun value hne hvalue => ?_⟩
    rw [redact, hmasked, maskCredentials_run (hrun value hvalue), maskParameters_append, substitute_parameter?_append,
      substitute_secret hname hne hvalue]
  · refine ⟨maskParameters (masked ++ maskCredentials (afterToken rest)), fun value _ hvalue => ?_⟩
    have hend : afterToken (name.toList ++ '=' :: value) = [] :=
      List.dropWhile_eq_nil_iff.mpr fun c hc => by rw [hrun value hvalue c hc]; rfl
    rw [redact, hmasked, afterToken_append (by decide), hend]
    rfl

end Airdrop.Redaction
