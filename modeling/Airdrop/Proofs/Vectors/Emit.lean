import Airdrop.Proofs.Console.Failure
import Airdrop.Proofs.Hasher.Description
import Airdrop.Proofs.Text.Split
import Airdrop.Proofs.Vectors

/-!
# How the generator of test vectors ends

* `Options.words`, `Options.read_words` : every choice of options has a line that makes it.
* `Options.Asks` : the hasher and the sizes that options name. `arguments_eq_ok_iff` : nothing else is read from them.
* `Ends` : the ways to end, with what is printed and written in each of them. `ends_run` : every run ends so.
* `Ends.failed_iff`, `emit_ends` : and which runs end in an error. `emit_size_zero` : one that does.
-/

namespace Airdrop.Vectors

open Outcome Console

variable {o : Options} {h : Hasher} {sizes : List Int} {d d' : Desk} {e : Error} {v : Value}

/-! ## Options -/

namespace Options

def Name.text : Name → String
  | .sizes => "--sizes"
  | .algorithm => "--algo"
  | .leafTag => "--leaf-prefix"
  | .nodeTag => "--node-prefix"
  | .out => "--out"

def assignment (name : Name) (value : String) : String := name.text ++ "=" ++ value

/-- A line that gives all options, each in one word. -/
def words (o : Options) : List String :=
  [assignment .sizes o.sizes, assignment .algorithm o.algorithm, assignment .leafTag o.leafTag,
    assignment .nodeTag o.nodeTag, assignment .out o.out]

/-- The word of an option begins no other one. -/
theorem longOption?_text (name : Name) (value : String) :
    longOption? name.text.toList (some value) = some (.option name (some value)) := by
  cases name <;> rfl

theorem classify_assignment (name : Name) (value : String) :
    classify (assignment name value) = some (.option name (some value)) := by
  obtain ⟨stem, hstem, hseparator⟩ : ∃ stem, name.text.toList = '-' :: '-' :: stem ∧ '=' ∉ stem := by
    cases name <;> exact ⟨_, rfl, by decide⟩
  have hword : (assignment name value).toList = '-' :: '-' :: (stem ++ '=' :: value.toList) := by
    rw [assignment, String.toList_append, String.toList_append, hstem]
    simp
  simp only [classify, hword, Text.cut?_append hseparator]
  rw [← hstem, String.ofList_toList, longOption?_text]
  rfl

theorem assignment_ne (name : Name) (value : String) : assignment name value ≠ "--" := by
  intro hno
  have hmem : '=' ∈ (assignment name value).toList := by simp [assignment]
  rw [hno] at hmem
  exact absurd hmem (by decide)

theorem read_words (o : Options) : read o.words = .options o := by
  have hspan : o.words.span (· ≠ "--") = (o.words, []) := by
    have hplain : ∀ word ∈ o.words, decide (word ≠ "--") = true := by
      simp only [words, List.forall_mem_cons, decide_eq_true_eq]
      exact ⟨assignment_ne _ _, assignment_ne _ _, assignment_ne _ _, assignment_ne _ _, assignment_ne _ _,
        fun _ hno => nomatch hno⟩
    rw [List.span_eq_takeWhile_dropWhile, List.takeWhile_eq_self_iff.mpr hplain, List.dropWhile_eq_nil_iff.mpr hplain]
  have hwords : o.words.mapM classify = some [.option .sizes (some o.sizes), .option .algorithm (some o.algorithm),
      .option .leafTag (some o.leafTag), .option .nodeTag (some o.nodeTag), .option .out (some o.out)] := by
    simp only [words, List.mapM_cons, List.mapM_nil, classify_assignment]
    rfl
  simp only [read, hspan, hwords]
  rfl

def pieces (o : Options) : List (List Char) :=
  (Text.split ',' o.sizes.toList).filter fun cs => !(Text.trim Text.isBlank cs).isEmpty

/-- Options name the algorithm of a hasher, write its tags in hexadecimal, and write sizes between commas. -/
structure Asks (o : Options) (h : Hasher) (sizes : List Int) : Prop where
  algorithm : o.algorithm = h.algorithm.name
  leafTag : Hex.decode o.leafTag.toList = .ok h.leafTag
  nodeTag : Hex.decode o.nodeTag.toList = .ok h.nodeTag
  sizes : List.Forall₂ (fun piece n => Numeral.read piece = .ok n) o.pieces sizes

end Options

theorem sizeOf_eq_ok_iff {cs : List Char} {n : Int} : sizeOf cs = .ok n ↔ Numeral.read cs = .ok n := by
  rw [sizeOf]
  split <;> simp_all

theorem arguments_eq_ok_iff : o.arguments = .ok (h, sizes) ↔ o.Asks h sizes := by
  have hsizes : Vectors.sizes o.sizes = .ok sizes ↔
      List.Forall₂ (fun piece n => Numeral.read piece = .ok n) o.pieces sizes := by
    simp only [Vectors.sizes, mapM_eq_ok_iff, sizeOf_eq_ok_iff]
    rfl
  rw [Options.arguments, bind_eq_ok]
  simp only [bind_eq_ok, Hasher.ofTexts_eq_ok_iff]
  constructor
  · rintro ⟨h', ⟨ha, hleaf, hnode⟩, sizes', hs, heq⟩
    obtain ⟨rfl, rfl⟩ := Prod.mk.inj (Except.ok.inj heq)
    exact ⟨ha, hleaf, hnode, hsizes.mp hs⟩
  · rintro ⟨ha, hleaf, hnode, hs⟩
    exact ⟨h, ⟨ha, hleaf, hnode⟩, sizes, hsizes.mpr hs, rfl⟩

theorem Options.Asks.unique {h' : Hasher} {sizes' : List Int} (ha : o.Asks h sizes) (ha' : o.Asks h' sizes') :
    h = h' ∧ sizes = sizes' := by
  have hsame := (arguments_eq_ok_iff.mpr ha).symm.trans (arguments_eq_ok_iff.mpr ha')
  exact Prod.mk.inj (Except.ok.inj hsame)

/-! ## Runs -/

theorem run_generate_of_error (he : o.arguments = .error e) : (generate o : Act (StateM Desk) Unit).run.run d =
    (.error (.stopped 2), d.reporting ("invalid arguments: " ++ e.text ++ "\n").toList) := by
  rw [generate, he]
  rfl

theorem run_generate_of_ok (ha : o.arguments = .ok (h, sizes)) (hv : document h sizes = .ok v) :
    (generate o : Act (StateM Desk) Unit).run.run d = (publish o.out v : Act (StateM Desk) Unit).run.run d := by
  rw [generate, ha]
  exact run_bind_of_ok (require_eq_ok.mpr (given_eq_ok.mpr ⟨hv, rfl⟩))

theorem run_generate_of_document (ha : o.arguments = .ok (h, sizes)) (hv : document h sizes = .error e) :
    (generate o : Act (StateM Desk) Unit).run.run d = (.error (.failed e), d) := by
  have hgiven : (require (given (document h sizes)) : Act (StateM Desk) Value).run.run d = (.error (.failed e), d) := by
    rw [run_require, hv]
    rfl
  rw [generate, ha]
  exact run_bind_of_error hgiven

theorem run_publish {out : String} (hv : v.isWritable = true) : (publish out v : Act (StateM Desk) Unit).run.run d =
    (if out = "-" then print (.plain (String.ofList (Json.pretty v)))
      else require (write (Path.ofText out) (Utf8.encode (Json.pretty v))) : Act (StateM Desk) Unit).run.run d :=
  run_bind_of_ok (require_eq_ok.mpr (given_eq_ok.mpr ⟨Json.text_eq_ok.mpr ⟨hv, rfl⟩, rfl⟩))

/-- The ending of a run by what its steps come to. -/
def endingOf : Except Ending Unit → Ending
  | .ok () => .success
  | .error ending => ending

theorem run_emit {words : List String} {r : Except Ending Unit} (hread : Options.read words = .options o)
    (hrun : (generate o : Act (StateM Desk) Unit).run.run d = (r, d')) :
    (emit words : StateM Desk Ending).run d = (endingOf r, d') := by
  rw [emit, hread]
  show ((generate o : Act (StateM Desk) Unit).run >>= _).run d = _
  rw [StateT.run_bind, hrun]
  cases r <;> rfl

/-! ## The ways to end -/

/-- How a run on a desk ends, for what a line asks for, and which desk it leaves. The error of `unlistable` is that of
the first size that has no tree. -/
inductive Ends (d : Desk) : Options.Request → Ending → Desk → Prop
  | help : Ends d .help .success d
  | misuse : Ends d .misuse (.stopped 2) d
  | invalid {o : Options} {e : Error} (hno : ∀ h sizes, ¬o.Asks h sizes) (he : o.arguments = .error e) :
      Ends d (.options o) (.stopped 2) (d.reporting ("invalid arguments: " ++ e.text ++ "\n").toList)
  | unlistable {o : Options} {h : Hasher} {before after : List Int} {n : Int} {e : Error}
      (hasks : o.Asks h (before ++ n :: after)) (hbefore : ∀ m ∈ before, Listable m) (hn : Unlistable n e) :
      Ends d (.options o) (.failed e) d
  | unwritable {o : Options} {h : Hasher} {sizes : List Int} {e : Error} (hasks : o.Asks h sizes)
      (hsizes : ∀ n ∈ sizes, Listable n) (hout : o.out ≠ "-") (hno : ¬d.Writable (Path.ofText o.out)) :
      Ends d (.options o) (.failed e) d
  | printed {o : Options} {h : Hasher} {sizes : List Int} {text : String} {v : Value} (hasks : o.Asks h sizes)
      (hsizes : ∀ n ∈ sizes, Listable n) (hout : o.out = "-") (hread : Json.read false depthLimit text.toList = .ok v)
      (hlisted : v.HasFields (Listed h sizes)) : Ends d (.options o) .success (d.printing (.plain text))
  | written {o : Options} {h : Hasher} {sizes : List Int} {disk : Disk} {content : Bytes} {v : Value}
      (hasks : o.Asks h sizes) (hsizes : ∀ n ∈ sizes, Listable n) (hout : o.out ≠ "-")
      (hgains : d.Gains { d with disk } (Path.ofText o.out) content)
      (hholds : Desk.HoldsValue { d with disk } o.out v) (hlisted : v.HasFields (Listed h sizes)) :
      Ends d (.options o) .success { d with disk }

theorem read_document (hsizes : ∀ n ∈ sizes, Listable n) (hv : document h sizes = .ok v) :
    Json.read false depthLimit (Json.pretty v) = .ok v :=
  Json.read_pretty ((plain_of_document hsizes hv).mono (by decide))

/-- A document that is made is printed or written, unless it cannot be written. -/
theorem ends_of_document {words : List String} (hread : Options.read words = .options o) (hasks : o.Asks h sizes)
    (hsizes : ∀ n ∈ sizes, Listable n) :
    Ends d (.options o) ((emit words : StateM Desk Ending).run d).1 ((emit words : StateM Desk Ending).run d).2 := by
  obtain ⟨v, hv⟩ : ∃ v, document h sizes = .ok v := exists_document hsizes
  have hlisted := listed_of_document hsizes hv
  have hrun := run_generate_of_ok (d := d) (arguments_eq_ok_iff.mpr hasks) hv
  rw [run_publish (plain_of_document hsizes hv).isWritable] at hrun
  by_cases hout : o.out = "-"
  · rw [if_pos hout] at hrun
    rw [run_emit hread (hrun.trans (print_eq_ok (u := ()).mpr rfl))]
    refine .printed hasks hsizes hout ?_ hlisted
    rw [String.toList_ofList]
    exact read_document hsizes hv
  · rw [if_neg hout] at hrun
    by_cases hwritable : d.Writable (Path.ofText o.out)
    · obtain ⟨d', hwrite⟩ := exists_write hwritable (Utf8.encode (Json.pretty v))
      rw [require_eq_ok.mpr hwrite] at hrun
      rw [run_emit hread hrun]
      have hgains := gains_of_write hwrite
      obtain ⟨hnul, disk, hdisk, rfl⟩ := write_eq_ok.mp hwrite
      exact .written hasks hsizes hout hgains
        ⟨_, _, ⟨hnul, Disk.read_of_write hdisk⟩, Utf8.decode?_encode _, read_document hsizes hv⟩ hlisted
    · obtain ⟨e, hwrite⟩ := write_of_not_writable hwritable (Utf8.encode (Json.pretty v))
      rw [run_require, hwrite] at hrun
      rw [run_emit hread hrun]
      exact .unwritable hasks hsizes hout hwritable

theorem ends_run (words : List String) (d : Desk) :
    Ends d (Options.read words) ((emit words : StateM Desk Ending).run d).1
      ((emit words : StateM Desk Ending).run d).2 := by
  cases hread : Options.read words with
  | help =>
    rw [emit, hread]
    exact .help
  | misuse =>
    rw [emit, hread]
    exact .misuse
  | options o =>
    cases harguments : o.arguments with
    | error e =>
      rw [run_emit hread (run_generate_of_error harguments)]
      refine .invalid (fun h sizes hasks => ?_) harguments
      exact nomatch harguments.symm.trans (arguments_eq_ok_iff.mpr hasks)
    | ok asked =>
      obtain ⟨h, sizes⟩ := asked
      have hasks := arguments_eq_ok_iff.mp harguments
      rcases listable_or_first sizes with hsizes | ⟨before, n, after, e, rfl, hbefore, hn⟩
      · exact ends_of_document hread hasks hsizes
      · rw [run_emit hread (run_generate_of_document harguments (document_of_unlistable hbefore hn))]
        exact .unlistable hasks hbefore hn

/-- Where the output can be written, only a size without a tree ends a run in an error. -/
theorem Ends.failed_iff {ending : Ending} (hends : Ends d (.options o) ending d') (hasks : o.Asks h sizes)
    (hout : o.out = "-" ∨ d.Writable (Path.ofText o.out)) :
    (∃ e, ending = .failed e) ↔ ∃ n ∈ sizes, ¬Listable n := by
  cases hends with
  | invalid hno _ => exact absurd hasks (hno h sizes)
  | unlistable hasks' _ hn =>
    obtain ⟨-, rfl⟩ := hasks.unique hasks'
    exact iff_of_true ⟨_, rfl⟩ ⟨_, by simp, hn.not_listable⟩
  | unwritable _ _ hfile hno =>
    rcases hout with hout | hout
    · exact absurd hout hfile
    · exact absurd hout hno
  | printed hasks' hsizes _ _ _ | written hasks' hsizes _ _ _ _ =>
    obtain ⟨-, rfl⟩ := hasks.unique hasks'
    exact iff_of_false (fun ⟨_, hno⟩ => nomatch hno) fun ⟨n, hmem, hn⟩ => hn (hsizes n hmem)

/-- **How the generator of test vectors ends.** Every choice of options has a line that makes it. Whatever the line and
the files, a run prints or writes a document that lists each of the sizes asked for with a tree of that many leaves, all
of which check by what the document itself says; or it prints and writes nothing. The latter is so where help is asked
for, and, with the exit code 2, where the line or its options cannot be read. But a size is read before it is known to
have a tree. So a run whose output can be written ends in an error if one of its sizes has none, and only then. -/
theorem emit_ends (words : List String) (d : Desk) :
    (∀ o : Options, words = o.words → Options.read words = .options o) ∧
    Ends d (Options.read words) ((emit words : StateM Desk Ending).run d).1
      ((emit words : StateM Desk Ending).run d).2 ∧
    ∀ (o : Options) (h : Hasher) (sizes : List Int), Options.read words = .options o → o.Asks h sizes →
      (o.out = "-" ∨ d.Writable (Path.ofText o.out)) →
      ((∃ e, ((emit words : StateM Desk Ending).run d).1 = .failed e) ↔ ∃ n ∈ sizes, ¬Listable n) := by
  refine ⟨fun o hwords => hwords ▸ Options.read_words o, ends_run words d, fun o h sizes hread hasks hout => ?_⟩
  have hends := ends_run words d
  rw [hread] at hends
  exact hends.failed_iff hasks hout

/-- Zero is read as a size, and the run ends in the error of an empty tree, with nothing printed or reported. -/
theorem emit_size_zero : (emit ["--sizes", "0"] : StateM Desk Ending).run {} = (.failed .noRecords, {}) ∧
    Error.noRecords.kind = "EmptyTreeError" := by
  have hread : Options.read ["--sizes", "0"] = .options { sizes := "0" } := by decide +kernel
  have harguments : ({ sizes := "0" } : Options).arguments.toOption = some ({}, [0]) := by decide +kernel
  have hdocument : document {} [0] = .error .noRecords :=
    document_of_unlistable (List.forall_mem_nil _) (.empty (Int.le_refl 0))
  exact ⟨run_emit hread (run_generate_of_document (toOption_eq_some.mp harguments) hdocument), rfl⟩

end Airdrop.Vectors
