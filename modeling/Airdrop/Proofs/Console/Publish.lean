import Airdrop.Console.Create
import Airdrop.Proofs.Console.Check
import Airdrop.Proofs.Disk.Path
import Airdrop.Proofs.Distribution.Reissue

/-!
# Publishing a document

* `publish_eq_ok` : when a run succeeds, by `build_eq_ok` and `saveDocument_eq_ok`.
* `Authored s o rows d d' dist document text` : how rows of a list lead to a document and its text; the desk `d` gives
  the PINs.
* `Saved d p text` : a text stands at its path.
* `of_publish` : both hold after a run that succeeds. `exists_publish` : where they hold, a run succeeds.
* `keeps_signRoot` : signing touches no file but the signed root. `Saved.of_signRoot` : the document stays.
-/

namespace Airdrop.Console

open Outcome
open Airdrop.Distribution (Documents ofRecords)

variable {c : Context} {o : Creation} {d d' : Desk} {claimants : List Claimant} {p : Path} {dist : Distribution}
  {document : Document} {text : String} {payloads : List Payload}

/-! ## Steps -/

theorem ite_fail_eq_ok {α β : Type} {a : α} {P : Prop} [Decidable P] {message : String}
    {f : β → Act (StateM Desk) α} {x : Act (StateM Desk) α} :
    (if P then fail message >>= f else x).run.run d = (.ok a, d') ↔ ¬ P ∧ x.run.run d = (.ok a, d') := by
  by_cases hP : P
  · rw [if_pos hP, run_bind_eq_ok]
    exact ⟨fun ⟨_, _, hno, _⟩ => absurd hno fail_ne_ok, fun h => absurd hP h.1⟩
  · rw [if_neg hP, and_iff_right hP]

def Desk.reporting (d : Desk) (cs : List Char) : Desk := { d with reported := d.reported ++ [cs] }

theorem lift_note_eq_ok {ε : Type} {logger : String} {level : Int} {message : Message} {u : Unit} :
    (ExceptT.lift (note c logger level message) : ExceptT ε (StateM Desk) Unit).run.run d = (.ok u, d') ↔
      d.reporting (c.log.emit logger level message) = d' := by
  rw [lift_eq_ok]
  show ((), d.reporting _) = (u, d') ↔ _
  rw [Prod.mk.injEq, and_iff_right rfl]

theorem readClaimants_eq_ok {file : String} :
    (readClaimants file : Act (StateM Desk) (List Claimant)).run.run d = (.ok claimants, d') ↔
      (∃ rows, d.HoldsValue file (.list rows) ∧ rows.mapM claimantOf = .ok claimants) ∧ d = d' := by
  rw [readClaimants, run_bind_eq_ok]
  simp only [readValue_eq_ok]
  constructor
  · rintro ⟨v, _, ⟨hv, rfl⟩, h⟩
    split at h
    · next rows =>
      obtain ⟨hrows, rfl⟩ := given_eq_ok.mp (attempt_eq_ok.mp h)
      exact ⟨⟨rows, hv, hrows⟩, rfl⟩
    · exact absurd h fail_ne_ok
  · rintro ⟨⟨rows, hv, hrows⟩, rfl⟩
    exact ⟨_, d, ⟨hv, rfl⟩, attempt_eq_ok.mpr (given_eq_ok.mpr ⟨hrows, rfl⟩)⟩

theorem build_eq_ok :
    (build c o claimants : ExceptT Error (StateM Desk) (Distribution × List Payload)).run.run d =
        (.ok (dist, payloads), d') ↔
      ∃ h prepared t, c.settings.hasher = .ok h ∧
        (Claim.prepare MonadConsole.drawPin o.integration (.text o.target) (.text c.settings.program)
          (o.method == "wallets") claimants : ExceptT Error (StateM Desk) _).run.run d = (.ok prepared, t) ∧
        ofRecords h (prepared.map (·.2)) = .ok dist ∧
        t.reporting (c.log.emit distributionLogger Log.defaultLevel ⟨dist.summary.toList, .positional []⟩) = d' ∧
        dist.issue (prepared.map (·.1)) (o.distributor.map .whole) = .ok payloads := by
  unfold build noteBuilt
  simp only [run_bind_eq_ok, given_eq_ok, lift_note_eq_ok, run_pure_eq_ok, Prod.mk.injEq]
  constructor
  · rintro ⟨h, _, ⟨hh, rfl⟩, prepared, t, hprepare, _, _, ⟨hrecords, rfl⟩, _, _, rfl, _, _, ⟨hissue, rfl⟩, ⟨rfl, rfl⟩,
      rfl⟩
    exact ⟨h, prepared, t, hh, hprepare, hrecords, rfl, hissue⟩
  · rintro ⟨h, prepared, t, hh, hprepare, hrecords, rfl, hissue⟩
    exact ⟨h, d, ⟨hh, rfl⟩, prepared, t, hprepare, dist, t, ⟨hrecords, rfl⟩, (), _, rfl, payloads, _, ⟨hissue, rfl⟩,
      ⟨rfl, rfl⟩, rfl⟩

theorem saveDocument_eq_ok {host : String} {u : Unit} :
    (saveDocument p host dist payloads : ExceptT Error (StateM Desk) Unit).run.run d = (.ok u, d') ↔
      ∃ document text t, Document.ofDistribution dist payloads (some host) = .ok document ∧ document.text = .ok text ∧
        (makeDirectories p.parent : ExceptT Error (StateM Desk) Unit).run.run d = (.ok (), t) ∧
        (write p (Utf8.ofText text) : ExceptT Error (StateM Desk) Unit).run.run t = (.ok u, d') := by
  unfold saveDocument
  simp only [run_bind_eq_ok, given_eq_ok]
  constructor
  · rintro ⟨document, _, ⟨hdocument, rfl⟩, _, t, hmake, text, _, ⟨htext, rfl⟩, hwrite⟩
    exact ⟨document, text, t, hdocument, htext, hmake, hwrite⟩
  · rintro ⟨document, text, t, hdocument, htext, hmake, hwrite⟩
    exact ⟨document, d, ⟨hdocument, rfl⟩, (), t, hmake, text, t, ⟨htext, rfl⟩, hwrite⟩

def creating (o : Creation) (claimants : List Claimant) : Message :=
  ⟨"creating %s distribution for %d claimants via %s".toList,
    .positional [.text o.integration, .int claimants.length, .text o.method]⟩

def Desk.announcing (d : Desk) (p : Path) (dist : Distribution) : Desk :=
  (d.printing (.styled (Markup.styled "green" ("Wrote " ++ Radix.text dist.size ++ " claims to " ++ p.text)))).printing
    (.styled (Markup.styled "cyan" "Root" ++ ": " ++ Base58.text dist.root))

theorem publish_eq_ok :
    (publish c o : Act (StateM Desk) (Path × Distribution)).run.run d = (.ok (p, dist), d') ↔
      ¬ (o.method ≠ "wallets" ∧ o.method ≠ "manual") ∧ ∃ rows claimants payloads t u,
        d.HoldsValue o.list (.list rows) ∧ rows.mapM claimantOf = .ok claimants ∧ ¬ claimants.isEmpty ∧
        (build c o claimants : ExceptT Error (StateM Desk) (Distribution × List Payload)).run.run
          (d.reporting (c.log.emit ownLogger Log.defaultLevel (creating o claimants))) = (.ok (dist, payloads), t) ∧
        p = documentPath c o (Base58.text dist.root) ∧
        (saveDocument p o.host dist payloads : ExceptT Error (StateM Desk) Unit).run.run t = (.ok (), u) ∧
        u.announcing p dist = d' := by
  unfold publish
  rw [ite_fail_eq_ok]
  refine and_congr_right fun _ => ?_
  rw [run_bind_eq_ok]
  constructor
  · rintro ⟨claimants, _, hread, h⟩
    obtain ⟨⟨rows, hfile, hrows⟩, rfl⟩ := readClaimants_eq_ok.mp hread
    obtain ⟨hne, h⟩ := ite_fail_eq_ok.mp h
    obtain ⟨_, _, hnote, h⟩ := run_bind_eq_ok.mp h
    obtain rfl := lift_note_eq_ok.mp hnote
    obtain ⟨⟨_, payloads⟩, t, hbuild, h⟩ := run_bind_eq_ok.mp h
    obtain ⟨_, u, hsave, h⟩ := run_bind_eq_ok.mp h
    obtain ⟨_, _, hprint, h⟩ := run_bind_eq_ok.mp h
    obtain rfl := print_eq_ok.mp hprint
    obtain ⟨_, _, hprint, h⟩ := run_bind_eq_ok.mp h
    obtain rfl := print_eq_ok.mp hprint
    obtain ⟨hresult, rfl⟩ := run_pure_eq_ok.mp h
    obtain ⟨rfl, rfl⟩ := Prod.mk.inj hresult
    exact ⟨rows, claimants, payloads, t, u, hfile, hrows, hne, attempt_eq_ok.mp hbuild, rfl, attempt_eq_ok.mp hsave,
      rfl⟩
  · rintro ⟨rows, claimants, payloads, t, u, hfile, hrows, hne, hbuild, rfl, hsave, rfl⟩
    refine ⟨claimants, d, readClaimants_eq_ok.mpr ⟨⟨rows, hfile, hrows⟩, rfl⟩, ite_fail_eq_ok.mpr ⟨hne, ?_⟩⟩
    refine run_bind_eq_ok.mpr ⟨(), _, lift_note_eq_ok.mpr rfl, ?_⟩
    refine run_bind_eq_ok.mpr ⟨(dist, payloads), t, attempt_eq_ok.mpr hbuild, ?_⟩
    refine run_bind_eq_ok.mpr ⟨(), u, attempt_eq_ok.mpr hsave, ?_⟩
    refine run_bind_eq_ok.mpr ⟨(), _, print_eq_ok.mpr rfl, ?_⟩
    exact run_bind_eq_ok.mpr ⟨(), _, print_eq_ok.mpr rfl, run_pure_eq_ok.mpr ⟨rfl, rfl⟩⟩

/-! ## Documents on desks -/

/-- How rows of a list lead to a document. The desk gives the PINs that are missing. -/
structure Authored (s : Settings) (o : Creation) (rows : List Value) (d d' : Desk) (dist : Distribution)
    (document : Document) (text : String) where
  claimants : List Claimant
  hasher : Hasher
  prepared : List (Claimant × Leaf)
  method : ¬ (o.method ≠ "wallets" ∧ o.method ≠ "manual")
  claimants_eq : rows.mapM claimantOf = .ok claimants
  nonempty : ¬ claimants.isEmpty
  hasher_eq : s.hasher = .ok hasher
  prepare_eq : (Claim.prepare MonadConsole.drawPin o.integration (.text o.target) (.text s.program)
    (o.method == "wallets") claimants : ExceptT Error (StateM Desk) _).run.run d = (.ok prepared, d')
  documents : Documents hasher (o.distributor.map .whole) (some o.host) prepared dist document
  text_eq : document.text = .ok text

/-- A text stands at its path, in a directory. -/
structure Saved (d : Desk) (p : Path) (text : String) : Prop where
  noNul : p.text.toList.contains '\x00' = false
  noNulParent : p.parent.text.toList.contains '\x00' = false
  parent : d.disk.at? p.parent = some .directory
  content : d.disk.read p = .ok (Utf8.ofText text)

theorem Saved.of_disk_eq (hs : Saved d p text) (h : d'.disk = d.disk) : Saved d' p text := by
  refine ⟨hs.noNul, hs.noNulParent, ?_, ?_⟩
  · rw [h]
    exact hs.parent
  · rw [h]
    exact hs.content

theorem saved_of_save {t : Desk}
    (hmake : (makeDirectories p.parent : ExceptT Error (StateM Desk) Unit).run.run d = (.ok (), t))
    (hwrite : (write p (Utf8.ofText text) : ExceptT Error (StateM Desk) Unit).run.run t = (.ok (), d')) :
    Saved d' p text := by
  obtain ⟨hnulParent, hparent⟩ := isDirectory_of_makeDirectories hmake
  obtain ⟨hnul, disk, hdisk, rfl⟩ := write_eq_ok.mp hwrite
  exact ⟨hnul, hnulParent, Disk.isDirectory_of_write hdisk hparent, Disk.read_of_write hdisk⟩

/-- How a document came to be written, step by step: from the list to the records, then the directory and the file. -/
theorem steps_of_publish (h : (publish c o : Act (StateM Desk) (Path × Distribution)).run.run d = (.ok (p, dist), d')) :
    ∃ rows t t' document text cs u v, d.HoldsValue o.list (.list rows) ∧ t.disk = d.disk ∧
      Nonempty (Authored c.settings o rows t t' dist document text) ∧ p = documentPath c o (Base58.text dist.root) ∧
      (makeDirectories p.parent : ExceptT Error (StateM Desk) Unit).run.run (t'.reporting cs) = (.ok (), u) ∧
      (write p (Utf8.ofText text) : ExceptT Error (StateM Desk) Unit).run.run u = (.ok (), v) ∧
      v.announcing p dist = d' := by
  obtain ⟨hmethod, rows, claimants, payloads, t, u, hfile, hrows, hne, hbuild, hp, hsave, rfl⟩ := publish_eq_ok.mp h
  obtain ⟨hasher, prepared, t', hhasher, hprepare, hrecords, rfl, hissue⟩ := build_eq_ok.mp hbuild
  obtain ⟨document, text, v, hdocument, htext, hmake, hwrite⟩ := saveDocument_eq_ok.mp hsave
  have hdocuments : Documents hasher (o.distributor.map .whole) (some o.host) prepared dist document :=
    ⟨hrecords, payloads, hissue, hdocument⟩
  exact ⟨rows, d.reporting _, t', document, text, _, v, u, hfile, rfl,
    ⟨⟨claimants, hasher, prepared, hmethod, hrows, hne, hhasher, hprepare, hdocuments, htext⟩⟩, hp, hmake, hwrite, rfl⟩

theorem of_publish (h : (publish c o : Act (StateM Desk) (Path × Distribution)).run.run d = (.ok (p, dist), d')) :
    ∃ rows t t' document text, d.HoldsValue o.list (.list rows) ∧
      Nonempty (Authored c.settings o rows t t' dist document text) ∧ p = documentPath c o (Base58.text dist.root) ∧
      Saved d' p text := by
  obtain ⟨rows, t, t', document, text, cs, u, v, hfile, -, ha, hp, hmake, hwrite, rfl⟩ := steps_of_publish h
  exact ⟨rows, t, t', document, text, hfile, ha, hp, (saved_of_save hmake hwrite).of_disk_eq rfl⟩

theorem Saved.exists_save {dst : Desk} (hs : Saved dst p text) (hparent : d.disk.at? p.parent = some .directory)
    (hfree : d.disk.at? p ≠ some .directory) {host : String}
    (hdocument : Document.ofDistribution dist payloads (some host) = .ok document) (htext : document.text = .ok text) :
    ∃ d', (saveDocument p host dist payloads : ExceptT Error (StateM Desk) Unit).run.run d = (.ok (), d') ∧
      Saved d' p text := by
  obtain ⟨place, hplace, -⟩ := Disk.read_eq_ok.mp hs.content
  obtain ⟨disk, hdisk⟩ := Disk.write_of_isDirectory hplace hparent hfree
  have hmake := run_makeDirectories hs.noNulParent hparent
  have hwrite : (write p (Utf8.ofText text) : ExceptT Error (StateM Desk) Unit).run.run d =
      (.ok (), { d with disk }) := write_eq_ok.mpr ⟨hs.noNul, disk, hdisk, rfl⟩
  exact ⟨_, saveDocument_eq_ok.mpr ⟨document, text, d, hdocument, htext, hmake, hwrite⟩, saved_of_save hmake hwrite⟩

/-- Where a document stood once, it can be written again from any rows that lead to it. -/
theorem exists_publish {dst : Desk} {rows : List Value} (hfile : d.HoldsValue o.list (.list rows))
    (ha : ∀ t, Nonempty (Authored c.settings o rows t t dist document text))
    (hp : p = documentPath c o (Base58.text dist.root)) (hs : Saved dst p text)
    (hparent : d.disk.at? p.parent = some .directory) (hfree : d.disk.at? p ≠ some .directory) :
    ∃ d', (publish c o : Act (StateM Desk) (Path × Distribution)).run.run d = (.ok (p, dist), d') ∧
      Saved d' p text := by
  -- The desk on which PINs would be drawn depends on what the log is told, and so on the claimants.
  obtain ⟨first⟩ := ha d
  obtain ⟨a⟩ := ha (d.reporting (c.log.emit ownLogger Log.defaultLevel (creating o first.claimants)))
  have hclaimants : first.claimants = a.claimants := Except.ok.inj (first.claimants_eq.symm.trans a.claimants_eq)
  obtain ⟨payloads, hissue, hdocument⟩ := a.documents.issued
  have hbuild := build_eq_ok.mpr ⟨a.hasher, a.prepared, _, a.hasher_eq, a.prepare_eq, a.documents.records, rfl, hissue⟩
  obtain ⟨u, hsave, hsaved⟩ := hs.exists_save
    (d := (d.reporting (c.log.emit ownLogger Log.defaultLevel (creating o first.claimants))).reporting
      (c.log.emit distributionLogger Log.defaultLevel ⟨dist.summary.toList, .positional []⟩)) hparent hfree hdocument
    a.text_eq
  exact ⟨_, publish_eq_ok.mpr ⟨a.method, rows, a.claimants, payloads, _, u, hfile, a.claimants_eq, a.nonempty,
    hclaimants ▸ hbuild, hp, hsave, rfl⟩, hsaved.of_disk_eq rfl⟩

/-! ## Signing -/

def signedRootName (root : String) : String := "root-" ++ root ++ ".json"

theorem keeps_signRoot {P : Disk → Prop} {root : String}
    (h : ∀ d d' content, P d → d.write (p.sibling (signedRootName root)) content = .ok d' → P d') :
    Keeps P (signRoot c p root dist) := by
  refine keeps_bind (keeps_lift fun _ h => h) fun hasSecret => keeps_bind (keeps_lift fun _ h => h) fun hasPublic => ?_
  split
  · refine keeps_bind (keeps_attempt ?_) fun _ => keeps_print
    refine keeps_bind keeps_read fun secretKey => keeps_bind keeps_read fun publicKey => ?_
    refine keeps_bind (keeps_lift fun _ h => h) fun now => keeps_bind keeps_given fun signed => ?_
    exact keeps_bind keeps_given fun text => keeps_write fun d d' => h d d' _
  · exact keeps_print

theorem signedRootName_ne (root : String) : signedRootName root ≠ ".." := by
  intro hno
  have hhead := congrArg (·.toList.head?) hno
  simp only [signedRootName, String.toList_append] at hhead
  exact absurd (Option.some.inj hhead : 'r' = '.') (by decide)

/-- A document stays when its root is signed, unless the signed root takes its place. -/
theorem Saved.of_signRoot {root : String} (hs : Saved d p text)
    (hlast : p.names.getLast? ≠ some (signedRootName root)) :
    Saved ((signRoot c p root dist : Act (StateM Desk) Unit).run.run d).2 p text := by
  have hkeeps : Keeps (fun disk => disk.at? p.parent = some .directory ∧ disk.read p = .ok (Utf8.ofText text))
      (signRoot c p root dist : Act (StateM Desk) Unit) := by
    refine keeps_signRoot fun disk disk' content hdisk hwrite => ?_
    obtain ⟨place, hplace, -⟩ := Disk.read_eq_ok.mp hdisk.2
    refine ⟨Disk.isDirectory_of_write hwrite hdisk.1, Disk.read_write_ne hwrite hdisk.2 ?_⟩
    rw [hplace]
    exact (Disk.place_sibling_ne (signedRootName_ne root) hlast hplace).symm
  obtain ⟨hparent, hcontent⟩ := hkeeps d ⟨hs.parent, hs.content⟩
  exact ⟨hs.noNul, hs.noNulParent, hparent, hcontent⟩

end Airdrop.Console
