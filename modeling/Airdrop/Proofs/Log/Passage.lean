import Airdrop.Proofs.Log.Substitution
import Mathlib.Data.List.TakeWhile

/-!
# The form of secrets

What the two searches find, written out as pieces that stand one behind the other. Every piece ends where its run of
characters ends, so a text has one reading.

* `isLetter` : the characters of the words that are looked for. No other piece has any of them at its front.
* `Parameter here name value rest` : a secret parameter at the front of a text. `parameter?_eq_some_iff` : it is what
  the search for parameters finds.
* `Credentials here word colon gap token rest` : credentials at the front of a text. `exists_credentials`,
  `credentials?_of` : they are what the search for credentials finds.
* `finder_parameter`, `finder_credentials` : both searches keep the first character of what they replace.
-/

namespace Airdrop.Redaction

variable {c : Char} {cs front rest name value word colon gap token replacement : List Char}
  {previous : Option Char} {length : Nat}

/-! ## Letters -/

/-- A lower-case letter of ASCII. -/
def isLower (c : Char) : Bool := 97 ≤ c.toNat && c.toNat ≤ 122

/-- A letter of a word that is looked for. -/
def isLetter (c : Char) : Bool := isLower (fold c)

/-- The letters of ASCII and four others. -/
theorem isLetter_cases (h : isLetter c = true) : c.toNat < 128 ∨ c ∈ ['\u017f', '\u212a', '\u0130', '\u0131'] := by
  unfold isLetter isLower fold at h
  split at h
  · next hupper => exact .inl (Nat.lt_of_le_of_lt (UInt32.le_iff_toNat_le.mp hupper.2) (by decide))
  split at h
  · next hc => exact .inr (by simp [hc])
  split at h
  · next hc => exact .inr (by simp [hc])
  split at h
  · next hc => exact .inr (by rcases hc with rfl | rfl <;> simp)
  · simp only [Bool.and_eq_true, decide_eq_true_eq] at h
    exact .inl (by omega)

/-- A letter continues words and values and is no other piece of a passage. -/
theorem of_isLetter (h : isLetter c = true) :
    Text.isWord c = true ∧ isValueChar c = true ∧ isGap c = false ∧ c ≠ ':' ∧ c ≠ '=' ∧ c ≠ '*' := by
  have hall : ∀ n < 128, isLetter (Char.ofNat n) = true → Text.isWord (Char.ofNat n) = true ∧
      isValueChar (Char.ofNat n) = true ∧ isGap (Char.ofNat n) = false ∧ Char.ofNat n ≠ ':' ∧ Char.ofNat n ≠ '=' ∧
      Char.ofNat n ≠ '*' := by decide +kernel
  rcases isLetter_cases h with hlt | hmem
  · rw [← Char.ofNat_toNat c] at h ⊢
    exact hall _ hlt h
  · simp only [List.mem_cons, List.not_mem_nil, or_false] at hmem
    rcases hmem with rfl | rfl | rfl | rfl <;> decide +kernel

theorem isLetter_of_map_fold {word name : List Char} (hword : word.all isLower = true) (h : name.map fold = word) :
    ∀ c ∈ name, isLetter c = true := by
  intro c hc
  apply List.all_eq_true.mp hword
  rw [← h]
  exact List.mem_map_of_mem hc

/-! ## Runs -/

/-- No run of such characters goes on at the front of a text. -/
def Ends (p : Char → Bool) (cs : List Char) : Prop := cs.head?.any p = false

theorem Ends.of_head? {p : Char → Bool} (h : Ends p cs) (heq : rest.head? = cs.head?) : Ends p rest := by
  unfold Ends at h ⊢
  rw [heq, h]

theorem ends_dropWhile (p : Char → Bool) (cs : List Char) : Ends p (cs.dropWhile p) := by
  have h := List.head?_dropWhile_not p cs
  unfold Ends
  cases hd : (cs.dropWhile p).head? with
  | none => rfl
  | some d =>
    rw [hd] at h
    exact Bool.not_eq_true' _ |>.mp (by simpa using h)

theorem Ends.takeWhile_eq_nil {p : Char → Bool} (h : Ends p cs) : cs.takeWhile p = [] := by
  cases cs with
  | nil => rfl
  | cons c cs => exact List.takeWhile_cons_of_neg (ne_true_of_eq_false h)

theorem Ends.dropWhile_eq {p : Char → Bool} (h : Ends p cs) : cs.dropWhile p = cs := by
  cases cs with
  | nil => rfl
  | cons c cs => exact List.dropWhile_cons_of_neg (ne_true_of_eq_false h)

theorem takeWhile_run {p : Char → Bool} {run : List Char} (hrun : ∀ c ∈ run, p c = true) (hrest : Ends p rest) :
    (run ++ rest).takeWhile p = run := by
  rw [List.takeWhile_append_of_pos hrun, hrest.takeWhile_eq_nil, List.append_nil]

theorem dropWhile_run {p : Char → Bool} {run : List Char} (hrun : ∀ c ∈ run, p c = true) (hrest : Ends p rest) :
    (run ++ rest).dropWhile p = rest := by
  rw [List.dropWhile_append_of_pos hrun, hrest.dropWhile_eq]

/-- A text has one run at its front. -/
theorem run_unique {p : Char → Bool} {run run' rest' : List Char} (hrun : ∀ c ∈ run, p c = true)
    (hrun' : ∀ c ∈ run', p c = true) (hrest : Ends p rest) (hrest' : Ends p rest')
    (heq : run ++ rest = run' ++ rest') : run = run' ∧ rest = rest' := by
  constructor
  · rw [← takeWhile_run hrun hrest, heq, takeWhile_run hrun' hrest']
  · rw [← dropWhile_run hrun hrest, heq, dropWhile_run hrun' hrest']

/-! ## Words -/

theorem after?_eq_some_iff {word cs : List Char} :
    after? word cs = some rest ↔ ∃ read, read.map fold = word ∧ cs = read ++ rest := by
  induction word generalizing cs with
  | nil =>
    rw [after?, Option.some.injEq]
    constructor
    · rintro rfl
      exact ⟨[], rfl, rfl⟩
    · rintro ⟨read, hread, rfl⟩
      rw [List.map_eq_nil_iff.mp hread, List.nil_append]
  | cons w word ih =>
    cases cs with
    | nil =>
      refine iff_of_false (fun hno => nomatch hno) ?_
      rintro ⟨read, hread, hnil⟩
      obtain rfl := (List.append_eq_nil_iff.mp hnil.symm).1
      exact nomatch hread
    | cons d cs =>
      rw [after?]
      constructor
      · intro h
        split at h
        · next hd =>
          obtain ⟨read, hread, rfl⟩ := ih.mp h
          exact ⟨d :: read, by rw [List.map_cons, hd, hread], rfl⟩
        · exact nomatch h
      · rintro ⟨read, hread, hcs⟩
        obtain ⟨d', read, rfl, hd, hword⟩ := List.map_eq_cons_iff.mp hread
        obtain ⟨rfl, rfl⟩ := List.cons.inj hcs
        rw [if_pos hd]
        exact ih.mpr ⟨read, hword, rfl⟩

/-! ## Parameters -/

/-- The name of a secret parameter, in any case. -/
def IsSecretName (name : List Char) : Prop := ∃ known ∈ secretNames, name.map fold = known.toList

theorem IsSecretName.letters (h : IsSecretName name) : ∀ c ∈ name, isLetter c = true := by
  obtain ⟨known, hknown, hname⟩ := h
  have hall : ∀ known ∈ secretNames, known.toList.all isLower = true := by decide
  exact isLetter_of_map_fold (hall known hknown) hname

theorem IsSecretName.length_bounds (h : IsSecretName name) : 0 < name.length ∧ name.length ≤ 8 := by
  obtain ⟨known, hknown, hname⟩ := h
  have hall : ∀ known ∈ secretNames, 0 < known.toList.length ∧ known.toList.length ≤ 8 := by decide
  have hlength := hall known hknown
  rwa [← hname, List.length_map] at hlength

theorem IsSecretName.exists_letters (h : IsSecretName name) :
    ∃ c letters, name = c :: letters ∧ isLetter c = true ∧ ∀ d ∈ letters, isLetter d = true := by
  obtain ⟨c, letters, rfl⟩ := List.exists_cons_of_length_pos h.length_bounds.1
  obtain ⟨hc, hletters⟩ := List.forall_mem_cons.mp h.letters
  exact ⟨c, letters, rfl, hc, hletters⟩

theorem isSecretName_of_mem {name : String} (h : name ∈ secretNames) : IsSecretName name.toList := by
  have hall : ∀ known ∈ secretNames, known.toList.map fold = known.toList := by decide
  exact ⟨name, h, hall name h⟩

/-- A secret parameter at the front of a text, with its whole value. -/
structure Parameter (here name value rest : List Char) : Prop where
  eq : here = name ++ '=' :: (value ++ rest)
  isName : IsSecretName name
  value_ne : value ≠ []
  isValue : ∀ c ∈ value, isValueChar c = true
  ends : Ends isValueChar rest

theorem Parameter.suffix (h : Parameter cs name value rest) : rest <:+ cs := by
  rw [h.eq, List.append_cons, ← List.append_assoc]
  exact List.suffix_append _ _

/-- The text after a name and its equals sign. -/
def afterName? (name : String) (cs : List Char) : Option (List Char) :=
  match after? name.toList cs with
  | some ('=' :: rest) => some rest
  | _ => none

theorem afterName?_eq_some_iff {known : String} : afterName? known cs = some rest ↔
    ∃ name, name.map fold = known.toList ∧ cs = name ++ '=' :: rest := by
  unfold afterName?
  constructor
  · intro h
    split at h
    · next hafter =>
      obtain ⟨name, hname, rfl⟩ := after?_eq_some_iff.mp hafter
      exact ⟨name, hname, by rw [Option.some.inj h]⟩
    · exact nomatch h
  · rintro ⟨name, hname, rfl⟩
    rw [after?_eq_some_iff.mpr ⟨name, hname, rfl⟩]
    rfl

/-- A text has one name before its first equals sign. -/
theorem name_unique {name' rest' : List Char} (hname : ∀ c ∈ name, isLetter c = true)
    (hname' : ∀ c ∈ name', isLetter c = true) (heq : name ++ '=' :: rest = name' ++ '=' :: rest') :
    name = name' ∧ rest = rest' := by
  have hends (cs : List Char) : Ends isLetter ('=' :: cs) := by
    show isLetter '=' = false
    decide
  obtain ⟨rfl, hrest⟩ := run_unique hname hname' (hends _) (hends _) heq
  exact ⟨rfl, (List.cons.inj hrest).2⟩

theorem afterSecretName?_eq_some_iff : afterSecretName? cs = some rest ↔
    ∃ name, IsSecretName name ∧ cs = name ++ '=' :: rest := by
  have hfind : afterSecretName? cs = secretNames.findSome? (afterName? · cs) := rfl
  rw [hfind]
  constructor
  · intro h
    obtain ⟨known, hknown, hafter⟩ := List.exists_of_findSome?_eq_some h
    obtain ⟨name, hname, rfl⟩ := afterName?_eq_some_iff.mp hafter
    exact ⟨name, ⟨known, hknown, hname⟩, rfl⟩
  · rintro ⟨name, ⟨known, hknown, hname⟩, rfl⟩
    cases h : secretNames.findSome? (afterName? · (name ++ '=' :: rest)) with
    | none =>
      have hnone := List.findSome?_eq_none_iff.mp h known hknown
      rw [afterName?_eq_some_iff.mpr ⟨name, hname, rfl⟩] at hnone
      exact nomatch hnone
    | some rest' =>
      obtain ⟨known', hknown', hafter⟩ := List.exists_of_findSome?_eq_some h
      obtain ⟨name', hname', heq⟩ := afterName?_eq_some_iff.mp hafter
      have hletters := IsSecretName.letters ⟨known, hknown, hname⟩
      have hletters' := IsSecretName.letters ⟨known', hknown', hname'⟩
      rw [(name_unique hletters hletters' heq).2]

/-- A text has one reading as a parameter. -/
theorem Parameter.unique {name' value' rest' : List Char} (h : Parameter cs name value rest)
    (h' : Parameter cs name' value' rest') : name = name' ∧ value = value' ∧ rest = rest' := by
  obtain ⟨rfl, heq⟩ := name_unique h.isName.letters h'.isName.letters (h.eq.symm.trans h'.eq)
  exact ⟨rfl, run_unique h.isValue h'.isValue h.ends h'.ends heq⟩

/-- A value goes on to the end of its run. -/
theorem exists_parameter (hname : IsSecretName name) (hc : isValueChar c = true) (cs : List Char) :
    ∃ value rest, Parameter (name ++ '=' :: c :: cs) name value rest := by
  refine ⟨(c :: cs).takeWhile isValueChar, (c :: cs).dropWhile isValueChar, ?_, hname, ?_,
    fun d hd => List.mem_takeWhile_imp hd, ends_dropWhile _ _⟩
  · rw [List.takeWhile_append_dropWhile]
  · rw [List.takeWhile_cons_of_pos hc]
    exact List.cons_ne_nil _ _

/-- What the search for parameters finds. -/
theorem parameter?_eq_some_iff : parameter? previous cs = some (replacement, length) ↔
    previous.any Text.isWord = false ∧ ∃ name value rest, Parameter cs name value rest ∧
      replacement = name ++ '=' :: mask ∧ length = cs.length - rest.length := by
  unfold parameter?
  constructor
  · intro h
    split at h
    · exact nomatch h
    next hprevious =>
    refine ⟨Bool.not_eq_true _ |>.mp hprevious, ?_⟩
    split at h
    · exact nomatch h
    next text hafter =>
    obtain ⟨name, hname, rfl⟩ := afterSecretName?_eq_some_iff.mp hafter
    simp only at h
    split at h
    · exact nomatch h
    next hvalue =>
    obtain ⟨hreplacement, hlength⟩ := Prod.mk.inj (Option.some.inj h)
    refine ⟨name, text.takeWhile isValueChar, text.dropWhile isValueChar, ⟨?_, hname, ?_, ?_, ends_dropWhile _ _⟩, ?_,
      hlength.symm⟩
    · rw [List.takeWhile_append_dropWhile]
    · intro hno
      have hall := List.takeWhile_append_dropWhile (p := isValueChar) (l := text)
      rw [hno, List.nil_append] at hall
      exact hvalue (congrArg List.length hall)
    · exact fun c hc => List.mem_takeWhile_imp hc
    · rw [← hreplacement, List.append_cons, List.length_append, Nat.add_sub_cancel, List.take_left, List.append_assoc]
      rfl
  · rintro ⟨hprevious, name, value, rest, ⟨rfl, hname, hne, hvalue, hends⟩, rfl, rfl⟩
    have hrest : ¬ rest.length = (value ++ rest).length := by
      rw [List.length_append]
      have := List.length_pos_iff.mpr hne
      omega
    rw [hprevious, if_neg Bool.false_ne_true, afterSecretName?_eq_some_iff.mpr ⟨name, hname, rfl⟩]
    simp only [dropWhile_run hvalue hends, if_neg hrest, passage]
    rw [List.append_cons, List.length_append, Nat.add_sub_cancel, List.take_left, List.append_assoc]
    rfl

theorem length_parameter? (h : parameter? previous cs = some (replacement, length)) : length ≤ cs.length := by
  obtain ⟨-, name, value, rest, -, -, rfl⟩ := parameter?_eq_some_iff.mp h
  exact Nat.sub_le _ _

theorem finder_parameter : Finder parameter? := by
  refine ⟨fun _ cs replacement length h => ⟨?_, length_parameter? h⟩, fun _ cs replacement length h => ?_⟩
  · obtain ⟨-, name, value, rest, ⟨rfl, -, -, -, -⟩, -, rfl⟩ := parameter?_eq_some_iff.mp h
    simp only [List.length_append, List.length_cons]
    omega
  · obtain ⟨-, name, value, rest, ⟨rfl, hname, -, -, -⟩, rfl, -⟩ := parameter?_eq_some_iff.mp h
    obtain ⟨c, letters, rfl, -⟩ := hname.exists_letters
    rfl

/-! ## Credentials -/

def isTokenChar (c : Char) : Bool := !isGap c

/-- The announcement of credentials: the word in any case, perhaps a colon, and blanks. -/
structure Announces (word colon gap : List Char) : Prop where
  isWord : word.map fold = "authorization".toList
  isColon : colon = [] ∨ colon = [':']
  gap_ne : gap ≠ []
  isGap : ∀ c ∈ gap, isGap c = true

/-- Credentials at the front of a text, with the whole token behind the announcement. -/
structure Credentials (here word colon gap token rest : List Char) : Prop extends Announces word colon gap where
  eq : here = word ++ (colon ++ (gap ++ (token ++ rest)))
  token_ne : token ≠ []
  isToken : ∀ c ∈ token, isTokenChar c = true
  ends : Ends isTokenChar rest

theorem Announces.letters (h : Announces word colon gap) : ∀ c ∈ word, isLetter c = true :=
  isLetter_of_map_fold rfl h.isWord

theorem Announces.length_word (h : Announces word colon gap) : word.length = 13 := by
  simpa using congrArg List.length h.isWord

theorem Announces.exists_letters (h : Announces word colon gap) :
    ∃ c letters, word = c :: letters ∧ letters.length < 13 ∧ isLetter c = true ∧ ∀ d ∈ letters, isLetter d = true := by
  have hlength := h.length_word
  obtain ⟨c, letters, rfl⟩ := List.exists_cons_of_length_pos (l := word) (by rw [hlength]; decide)
  obtain ⟨hc, hletters⟩ := List.forall_mem_cons.mp h.letters
  exact ⟨c, letters, rfl, Nat.lt_of_succ_le (Nat.le_of_eq hlength), hc, hletters⟩

theorem ends_append {p : Char → Bool} {run : List Char} (hne : run ≠ [])
    (hrun : ∀ c ∈ run, p c = false) (rest : List Char) : Ends p (run ++ rest) := by
  obtain ⟨c, run, rfl⟩ := List.exists_cons_of_ne_nil hne
  exact hrun c List.mem_cons_self

/-- What follows an announcement is no blank. -/
theorem Credentials.ends_gap (h : Credentials cs word colon gap token rest) : Ends isGap (token ++ rest) :=
  ends_append h.token_ne (fun c hc => Bool.not_eq_true' _ |>.mp (h.isToken c hc)) rest

theorem Credentials.suffix (h : Credentials cs word colon gap token rest) : token ++ rest <:+ cs := by
  rw [h.eq]
  exact ((List.suffix_append gap _).trans (List.suffix_append colon _)).trans (List.suffix_append word _)

/-- A text has one reading as credentials. -/
theorem Credentials.unique {word' colon' gap' token' rest' : List Char} (h : Credentials cs word colon gap token rest)
    (h' : Credentials cs word' colon' gap' token' rest') :
    word = word' ∧ colon = colon' ∧ gap = gap' ∧ token = token' ∧ rest = rest' := by
  obtain ⟨rfl, hcolon⟩ := List.append_inj (h.eq.symm.trans h'.eq) (h.length_word.trans h'.length_word.symm)
  have hhead {gap rest : List Char} (hne : gap ≠ []) (hgap : ∀ c ∈ gap, Redaction.isGap c = true) (cs : List Char) :
      gap ++ rest ≠ ':' :: cs := by
    obtain ⟨c, gap, rfl⟩ := List.exists_cons_of_ne_nil hne
    rintro heq
    obtain ⟨rfl, -⟩ := List.cons.inj heq
    exact absurd (hgap ':' List.mem_cons_self) (by decide)
  have hsame : colon = colon' ∧ gap ++ (token ++ rest) = gap' ++ (token' ++ rest') := by
    rcases h.isColon with rfl | rfl <;> rcases h'.isColon with rfl | rfl
    · exact ⟨rfl, hcolon⟩
    · exact absurd hcolon (hhead h.gap_ne h.isGap _)
    · exact absurd hcolon.symm (hhead h'.gap_ne h'.isGap _)
    · exact ⟨rfl, (List.cons.inj hcolon).2⟩
  obtain ⟨rfl, hgap⟩ := hsame
  obtain ⟨rfl, htoken⟩ := run_unique h.isGap h'.isGap h.ends_gap h'.ends_gap hgap
  obtain ⟨rfl, rfl⟩ := run_unique h.isToken h'.isToken h.ends h'.ends htoken
  exact ⟨rfl, rfl, rfl, rfl, rfl⟩

/-- A token goes on to the end of its run. -/
theorem Announces.exists_credentials (h : Announces word colon gap) (hc : isTokenChar c = true) (cs : List Char) :
    ∃ token rest, Credentials (word ++ (colon ++ (gap ++ c :: cs))) word colon gap token rest ∧
      c :: cs = token ++ rest := by
  have hall := List.takeWhile_append_dropWhile (p := isTokenChar) (l := c :: cs)
  refine ⟨(c :: cs).takeWhile isTokenChar, (c :: cs).dropWhile isTokenChar, ⟨h, by rw [hall], ?_,
    fun d hd => List.mem_takeWhile_imp hd, ends_dropWhile _ _⟩, hall.symm⟩
  rw [List.takeWhile_cons_of_pos hc]
  exact List.cons_ne_nil _ _

theorem afterGap?_run (hgap : ∀ c ∈ gap, isGap c = true) (hne : gap ≠ []) (hrest : rest ≠ [])
    (hends : Ends isGap rest) : afterGap? (gap ++ rest) = some rest := by
  obtain ⟨c, gap, rfl⟩ := List.exists_cons_of_ne_nil hne
  obtain ⟨d, rest, rfl⟩ := List.exists_cons_of_ne_nil hrest
  unfold afterGap?
  rw [dropWhile_run hgap hends]
  exact if_pos (hgap c List.mem_cons_self)

theorem exists_of_afterGap? (h : afterGap? cs = some rest) :
    ∃ gap, gap ≠ [] ∧ (∀ c ∈ gap, isGap c = true) ∧ rest ≠ [] ∧ Ends isGap rest ∧ cs = gap ++ rest := by
  unfold afterGap? at h
  split at h
  · next c d rest' hhead hdrop =>
    split at h
    · next hc =>
      obtain rfl := Option.some.inj h
      refine ⟨cs.takeWhile isGap, ?_, fun c hc => List.mem_takeWhile_imp hc, List.cons_ne_nil _ _,
        hdrop ▸ ends_dropWhile isGap cs, by rw [← hdrop, List.takeWhile_append_dropWhile]⟩
      cases cs with
      | nil => exact nomatch hhead
      | cons c' cs =>
        obtain rfl := Option.some.inj hhead
        rw [List.takeWhile_cons_of_pos hc]
        exact List.cons_ne_nil _ _
    · exact nomatch h
  · exact nomatch h

theorem afterAnnouncement?_of (h : Announces word colon gap) (rest : List Char) :
    afterAnnouncement? (word ++ (colon ++ (gap ++ rest))) = some (gap ++ rest) := by
  unfold afterAnnouncement?
  rw [after?_eq_some_iff.mpr ⟨word, h.isWord, rfl⟩, Option.map_some]
  obtain ⟨c, gap, rfl⟩ := List.exists_cons_of_ne_nil h.gap_ne
  rcases h.isColon with rfl | rfl
  · have hc : c ≠ ':' := by
      rintro rfl
      exact absurd (h.isGap ':' List.mem_cons_self) (by decide)
    simp [hc]
  · rfl

theorem exists_of_afterAnnouncement? (h : afterAnnouncement? cs = some rest) :
    ∃ word colon, word.map fold = "authorization".toList ∧ (colon = [] ∨ colon = [':']) ∧
      cs = word ++ (colon ++ rest) := by
  unfold afterAnnouncement? at h
  obtain ⟨named, hnamed, hrest⟩ := Option.map_eq_some_iff.mp h
  obtain ⟨word, hword, rfl⟩ := after?_eq_some_iff.mp hnamed
  split at hrest
  · exact ⟨word, [':'], hword, .inr rfl, by rw [← hrest]; rfl⟩
  · exact ⟨word, [], hword, .inl rfl, by rw [← hrest]; rfl⟩

theorem suffix_of_afterScheme? (h : afterScheme? cs = some rest) : rest <:+ cs := by
  have hstep {word named : List Char} (hnamed : after? word cs = some named) (hgap : afterGap? named = some rest) :
      rest <:+ cs := by
    obtain ⟨read, -, rfl⟩ := after?_eq_some_iff.mp hnamed
    obtain ⟨gap, -, -, -, -, rfl⟩ := exists_of_afterGap? hgap
    exact (List.suffix_append _ _).trans (List.suffix_append _ _)
  unfold afterScheme? at h
  cases hbearer : after? "bearer".toList cs with
  | some named =>
    rw [hbearer] at h
    exact hstep hbearer h
  | none =>
    rw [hbearer] at h
    obtain ⟨named, hbasic, hgap⟩ := Option.bind_eq_some_iff.mp h
    exact hstep hbasic hgap

/-- What the search for credentials makes of them: the word, its colon, a space and the mask, up to the end of a
token. -/
theorem credentials?_of (h : Credentials cs word colon gap token rest) : ∃ tail, tail <:+ token ++ rest ∧
    Ends isTokenChar tail ∧ credentials? cs = some (word ++ (colon ++ ' ' :: mask), cs.length - tail.length) ∧
    (token = mask → tail = rest) := by
  have hends_gap := h.ends_gap
  obtain ⟨hannounces, rfl, hne, htoken, hends⟩ := h
  have hgap : afterGap? (gap ++ (token ++ rest)) = some (token ++ rest) := by
    exact afterGap?_run hannounces.isGap hannounces.gap_ne (List.append_ne_nil_of_left_ne_nil hne rest) hends_gap
  refine ⟨afterToken ((afterScheme? (token ++ rest)).getD (token ++ rest)), ?_, ends_dropWhile _ _, ?_, ?_⟩
  · have hscheme : (afterScheme? (token ++ rest)).getD (token ++ rest) <:+ token ++ rest := by
      cases hs : afterScheme? (token ++ rest) with
      | none => exact List.suffix_refl _
      | some text => exact suffix_of_afterScheme? hs
    exact (List.dropWhile_suffix _).trans hscheme
  · have hkept : (word ++ (colon ++ (gap ++ (token ++ rest)))).take
        ((word ++ (colon ++ (gap ++ (token ++ rest)))).length - (gap ++ (token ++ rest)).length) = word ++ colon := by
      rw [← List.append_assoc, List.length_append, Nat.add_sub_cancel, List.take_left]
    unfold credentials?
    rw [afterAnnouncement?_of hannounces, Option.bind_eq_bind, Option.bind_some, hgap, Option.bind_some, hkept]
    simp [passage]
  · rintro rfl
    have hscheme : afterScheme? (mask ++ rest) = none := rfl
    rw [hscheme]
    exact dropWhile_run htoken hends

/-- What the search finds are credentials. -/
theorem exists_credentials (h : credentials? cs = some (replacement, length)) :
    ∃ word colon gap token rest, Credentials cs word colon gap token rest := by
  unfold credentials? at h
  obtain ⟨announced, hannounced, h⟩ := Option.bind_eq_some_iff.mp h
  obtain ⟨text, hgap, -⟩ := Option.bind_eq_some_iff.mp h
  obtain ⟨word, colon, hword, hcolon, rfl⟩ := exists_of_afterAnnouncement? hannounced
  obtain ⟨gap, hne, hgaps, htext, hends, rfl⟩ := exists_of_afterGap? hgap
  obtain ⟨c, text, rfl⟩ := List.exists_cons_of_ne_nil htext
  have hannounces : Announces word colon gap := ⟨hword, hcolon, hne, hgaps⟩
  obtain ⟨token, rest, hcredentials, -⟩ := hannounces.exists_credentials (Bool.not_eq_true' _ |>.mpr hends) text
  exact ⟨word, colon, gap, token, rest, hcredentials⟩

theorem credentials?_eq_some (h : credentials? cs = some (replacement, length)) :
    ∃ word colon gap token rest tail, Credentials cs word colon gap token rest ∧ tail <:+ token ++ rest ∧
      Ends isTokenChar tail ∧ replacement = word ++ (colon ++ ' ' :: mask) ∧ length = cs.length - tail.length ∧
      (token = mask → tail = rest) := by
  obtain ⟨word, colon, gap, token, rest, hcredentials⟩ := exists_credentials h
  obtain ⟨tail, hsuffix, hends, hfound, htail⟩ := credentials?_of hcredentials
  obtain ⟨hreplacement, hlength⟩ := Prod.mk.inj (Option.some.inj (h.symm.trans hfound))
  exact ⟨word, colon, gap, token, rest, tail, hcredentials, hsuffix, hends, hreplacement, hlength, htail⟩

theorem length_credentials? (h : credentials? cs = some (replacement, length)) : 0 < length ∧ length ≤ cs.length := by
  obtain ⟨word, colon, gap, token, rest, tail, hcredentials, hsuffix, -, -, rfl, -⟩ := credentials?_eq_some h
  have hword := hcredentials.length_word
  have hle := hsuffix.length_le
  have hlength := congrArg List.length hcredentials.eq
  simp only [List.length_append] at hle hlength
  omega

theorem finder_credentials : Finder fun _ => credentials? := by
  refine ⟨fun _ cs replacement length h => length_credentials? h, fun _ cs replacement length h => ?_⟩
  obtain ⟨word, colon, gap, token, rest, -, hcredentials, -, -, rfl, -, -⟩ := credentials?_eq_some h
  obtain ⟨c, letters, rfl, -⟩ := hcredentials.exists_letters
  rw [hcredentials.eq]
  rfl

end Airdrop.Redaction
