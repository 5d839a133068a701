import Airdrop.Proofs.Console.Create
import Airdrop.Proofs.Console.Ending
import Airdrop.Proofs.SignedRoot.Delivery

/-!
# What a creation leaves when it ends

A creation writes its document before it reads the keys and signs the root, so what is wrong with the keys shows when
the document has been written.

* `leads_publish` : until the document is written no file changes, and a failure has the exit code 1.
* `Desk.Gains`, `Written` : one file more, and the document as that file.
* `Signable` : what signing takes. `exists_saveSignedRoot` : it is enough.
* `CreationEnds`, `create_ends` : the four ways in which a creation ends, with the files that each of them leaves.
* `left_without_signature` : a secret key of the wrong width leaves a document behind.
-/

namespace Airdrop.Console

open Outcome

variable {P : Disk → Prop} {c : Context} {o : Creation} {d d' : Desk} {p : Path} {dist : Distribution}
  {document : Document} {text : String} {payloads : List Payload}

/-! ## Before the document is written -/

theorem keeps_prepareFrom (integration : String) (target program : Bytes) (viaWallets : Bool) :
    ∀ (index : Nat) (rows : List Claimant), Keeps P (Claim.prepareFrom (MonadConsole.drawPin : StateM Desk Int)
      integration target program viaWallets index rows)
  | _, [] => keeps_pure
  | index, row :: rows => by
    refine keeps_bind ?_ fun pin => keeps_bind keeps_given fun leaf => ?_
    · unfold Claim.pinOf
      split
      · exact keeps_pure
      · split
        · exact keeps_pure
        · exact keeps_bind (keeps_lift fun _ h => h) fun _ => keeps_pure
    · exact keeps_bind (keeps_prepareFrom integration target program viaWallets (index + 1) rows) fun _ => keeps_pure

theorem keeps_prepare {integration : String} {target program : Value} {viaWallets : Bool} {rows : List Claimant} :
    Keeps P (Claim.prepare (MonadConsole.drawPin : StateM Desk Int) integration target program viaWallets rows) :=
  keeps_bind keeps_given fun _ => keeps_prepareFrom _ _ _ _ _ _

theorem keeps_build {claimants : List Claimant} :
    Keeps P (build c o claimants : ExceptT Error (StateM Desk) (Distribution × List Payload)) := by
  refine keeps_bind keeps_given fun h => keeps_bind keeps_prepare fun prepared => ?_
  refine keeps_bind keeps_given fun dist => keeps_bind (keeps_lift fun _ h => h) fun _ => ?_
  exact keeps_bind keeps_given fun payloads => keeps_pure

theorem orderly_readClaimants {file : String} :
    Orderly P (readClaimants file : Act (StateM Desk) (List Claimant)) := by
  refine leads_bind orderly_readValue fun v => ?_
  split
  · exact orderly_attempt keeps_given
  · exact leads_fail fun _ hd => hd

section
variable (hP : ∀ (p : Path) (disk disk' : Disk), P disk → disk.makeDirectory p = .ok disk' → P disk')
include hP

theorem leads_saveDocument {host : String} :
    Leads P (saveDocument p host dist payloads : ExceptT Error (StateM Desk) Unit) (fun _ _ => True) (fun _ => P) := by
  refine leads_bind keeps_given.leads fun document => ?_
  refine leads_bind (keeps_makeDirectories hP _).leads fun _ => ?_
  exact leads_bind keeps_given.leads fun text => leads_write

/-- Whatever no new directory changes is as it was where the document is not written. -/
theorem leads_publish :
    Leads P (publish c o : Act (StateM Desk) (Path × Distribution)) (fun _ _ => True) (Stops P) := by
  unfold publish
  refine leads_ite_fail (leads_bind orderly_readClaimants fun claimants => leads_ite_fail ?_)
  refine leads_bind (leads_lift fun _ h => h) fun _ => leads_bind (orderly_attempt keeps_build) ?_
  rintro ⟨dist, payloads⟩
  refine leads_bind (leads_attempt (leads_saveDocument hP)) fun _ => ?_
  -- The file has been written, and nothing can fail any more.
  refine leads_bind (leads_lift (Q := fun _ _ => True) fun _ h => h) fun _ => ?_
  exact leads_bind (leads_lift (Q := fun _ _ => True) fun _ h => h) fun _ => leads_pure fun _ h => h

end

/-! ## The document -/

/-- A desk has the files of another one, and at a path the file with a content. -/
def Desk.Gains (d d' : Desk) (p : Path) (content : Bytes) : Prop :=
  ∃ place, d'.disk.place p = .ok place ∧ d'.disk.file? = Function.update d.disk.file? place (some content)

theorem gains_of_write {content : Bytes} {u : Unit}
    (h : (write p content : ExceptT Error (StateM Desk) Unit).run.run d = (.ok u, d')) : d.Gains d' p content := by
  obtain ⟨-, disk, hdisk, rfl⟩ := write_eq_ok.mp h
  exact Disk.file?_of_write hdisk

/-- The list of a creation led to a document with a text, and of all files only that of the document is another one than
before. -/
structure Written (c : Context) (o : Creation) (d d' : Desk) (dist : Distribution) (document : Document)
    (text : String) : Prop where
  authored : ∃ rows t t', d.HoldsValue o.list (.list rows) ∧
    Nonempty (Authored c.settings o rows t t' dist document text)
  gains : d.Gains d' (documentPath c o document.root) (Utf8.ofText text)

theorem written_of_publish
    (h : (publish c o : Act (StateM Desk) (Path × Distribution)).run.run d = (.ok (p, dist), d')) :
    ∃ document text, p = documentPath c o document.root ∧ document.root = Base58.text dist.root ∧
      Written c o d d' dist document text := by
  obtain ⟨rows, t, t', document, text, cs, u, v, hfile, hdisk, ⟨a⟩, hp, hmake, hwrite, rfl⟩ := steps_of_publish h
  rw [← a.documents.root_eq] at hp
  refine ⟨document, text, hp, a.documents.root_eq, ⟨rows, t, t', hfile, ⟨a⟩⟩, ?_⟩
  have hdrawn : t'.disk.file? = d.disk.file? :=
    keeps_prepare.of_run (P := fun disk => disk.file? = d.disk.file?) (congrArg Disk.file? hdisk) a.prepare_eq
  have hmade : u.disk.file? = d.disk.file? :=
    (keeps_makeDirectories (P := fun disk => disk.file? = d.disk.file?)
      (fun _ _ _ hold hmake => (Disk.file?_of_makeDirectory hmake).trans hold) p.parent).of_run
      (d := t'.reporting cs) hdrawn hmake
  obtain ⟨place, hplace, hfiles⟩ := gains_of_write hwrite
  rw [hmade] at hfiles
  rw [hp] at hplace
  exact ⟨place, hplace, hfiles⟩

/-! ## The signed root -/

/-- Both keys are there. -/
def HasKeys (c : Context) (d : Desk) : Prop :=
  (d.disk.at? (Path.ofText c.settings.secretKeyPath)).isSome = true ∧
    (d.disk.at? (Path.ofText c.settings.publicKeyPath)).isSome = true

/-- What it takes to sign the root of a distribution on a desk: keys that can be read, the secret one of 32 bytes, a
size that is a safe integer, and a path where a file can be written. -/
structure Signable (c : Context) (d : Desk) (p : Path) (dist : Distribution) : Prop where
  secretKey : ∃ seed, d.Holds c.settings.secretKeyPath seed ∧ seed.length = 32
  publicKey : ∃ key, d.Holds c.settings.publicKeyPath key
  size : dist.size ≤ Json.maxSafeInteger
  noNul : p.text.toList.contains '\x00' = false
  free : ∃ place, d.disk.place p = .ok place ∧ d.disk.node? place ≠ some .directory

theorem saveSignedRoot_eq_ok {secretKey publicKey : String} {u : Unit} :
    (saveSignedRoot p (Path.ofText secretKey) (Path.ofText publicKey) dist :
        ExceptT Error (StateM Desk) Unit).run.run d = (.ok u, d') ↔
      ∃ seed key signed, d.Holds secretKey seed ∧ d.Holds publicKey key ∧
        SignedRoot.make dist seed key d.time = .ok signed ∧ (Value.object signed.toFields).isWritable = true ∧
        (write p (Utf8.encode (Json.pretty (.object signed.toFields))) : ExceptT Error (StateM Desk) Unit).run.run d =
          (.ok u, d') := by
  rw [saveSignedRoot, run_bind_eq_ok]
  constructor
  · rintro ⟨seed, _, hseed, h⟩
    obtain ⟨hnul, hread, rfl⟩ := read_eq_ok.mp hseed
    obtain ⟨key, _, hkey, h⟩ := run_bind_eq_ok.mp h
    obtain ⟨hnul', hread', rfl⟩ := read_eq_ok.mp hkey
    rw [run_lift_bind, run_bind_eq_ok] at h
    obtain ⟨signed, _, hgiven, h⟩ := h
    obtain ⟨hsigned, rfl⟩ := given_eq_ok.mp hgiven
    obtain ⟨text, _, hgiven, h⟩ := run_bind_eq_ok.mp h
    obtain ⟨htext, rfl⟩ := given_eq_ok.mp hgiven
    obtain ⟨hwritable, rfl⟩ := Json.text_eq_ok.mp htext
    exact ⟨seed, key, signed, ⟨hnul, hread⟩, ⟨hnul', hread'⟩, hsigned, hwritable, h⟩
  · rintro ⟨seed, key, signed, hseed, hkey, hsigned, hwritable, hwrite⟩
    refine ⟨seed, d, read_eq_ok.mpr ⟨hseed.noNul, hseed.content, rfl⟩, run_bind_eq_ok.mpr
      ⟨key, d, read_eq_ok.mpr ⟨hkey.noNul, hkey.content, rfl⟩, ?_⟩⟩
    rw [run_lift_bind, run_bind_eq_ok]
    refine ⟨signed, d, given_eq_ok.mpr ⟨hsigned, rfl⟩, run_bind_eq_ok.mpr ⟨_, d, ?_, hwrite⟩⟩
    exact given_eq_ok.mpr ⟨Json.text_eq_ok.mpr ⟨hwritable, rfl⟩, rfl⟩

theorem exists_saveSignedRoot (h : Signable c d p dist) : ∃ d',
    (saveSignedRoot p (Path.ofText c.settings.secretKeyPath) (Path.ofText c.settings.publicKeyPath) dist :
      ExceptT Error (StateM Desk) Unit).run.run d = (.ok (), d') := by
  obtain ⟨⟨seed, hsecret, hwidth⟩, ⟨key, hpublic⟩, hsize, hnul, place, hplace, hfree⟩ := h
  obtain ⟨signed, hsigned⟩ : ∃ signed, SignedRoot.make dist seed key d.time = .ok signed :=
    SignedRoot.exists_make hwidth hsize
  have hwritable : (Value.object signed.toFields).isWritable = true := SignedRoot.isWritable_of_make hsigned
  exact ⟨_, saveSignedRoot_eq_ok.mpr ⟨seed, key, signed, hsecret, hpublic, hsigned, hwritable,
    write_eq_ok.mpr ⟨hnul, _, Disk.write_eq_ok.mpr ⟨place, hplace, hfree, rfl⟩, rfl⟩⟩⟩

/-- Where a root cannot be signed, the disk is as before. -/
theorem leads_sign {secretKey publicKey : Path} {out : Output} :
    Leads P (require (saveSignedRoot p secretKey publicKey dist) >>= fun _ => print out : Act (StateM Desk) Unit)
      (fun _ _ => True) (Stops P) := by
  have hsave : Leads P (saveSignedRoot p secretKey publicKey dist : ExceptT Error (StateM Desk) Unit)
      (fun _ _ => True) (fun _ => P) := by
    refine leads_bind keeps_read.leads fun seed => leads_bind keeps_read.leads fun key => ?_
    refine leads_bind (leads_lift fun _ h => h) fun now => leads_bind keeps_given.leads fun signed => ?_
    exact leads_bind keeps_given.leads fun text => leads_write
  exact leads_bind (leads_attempt hsave) fun _ => leads_lift fun _ h => h

/-! ## The ways to end -/

/-- How a creation ends on a desk, and with which files. The desk `u` is the one on which the document was written. -/
inductive CreationEnds (c : Context) (o : Creation) (d : Desk) : Except Ending Unit → Desk → Prop
  | refused {e : Ending} {d' : Desk} : e.code = 1 → d'.disk.file? = d.disk.file? → CreationEnds c o d (.error e) d'
  | unsigned {dist : Distribution} {document : Document} {text : String} {u d' : Desk} :
    Written c o d u dist document text → ¬ (o.signs = true ∧ HasKeys c u) → d'.disk = u.disk →
    CreationEnds c o d (.ok ()) d'
  | signed {dist : Distribution} {document : Document} {text : String} {u d' : Desk} {seed key : Bytes}
    {signed : SignedRoot} : Written c o d u dist document text → o.signs = true ∧ HasKeys c u →
    u.Holds c.settings.secretKeyPath seed →
    u.Holds c.settings.publicKeyPath key → SignedRoot.make dist seed key u.time = .ok signed →
    u.Gains d' ((documentPath c o document.root).sibling (signedRootName document.root))
      (Utf8.encode (Json.pretty (.object signed.toFields))) → CreationEnds c o d (.ok ()) d'
  | unsignable {dist : Distribution} {document : Document} {text : String} {u d' : Desk} {e : Ending} :
    Written c o d u dist document text → o.signs = true ∧ HasKeys c u →
    ¬ Signable c u ((documentPath c o document.root).sibling (signedRootName document.root)) dist → e.code = 1 →
    d'.disk = u.disk → CreationEnds c o d (.error e) d'

def skipping : Output := .styled (Markup.styled "yellow" "No signing keypair found; skipping signed root")

def signing (p : Path) : Output := .styled (Markup.styled "green" ("Wrote signed root to " ++ p.text))

theorem run_signRoot {root : String} : (signRoot c p root dist : Act (StateM Desk) Unit).run.run d =
    (if (d.disk.at? (Path.ofText c.settings.secretKeyPath)).isSome &&
        (d.disk.at? (Path.ofText c.settings.publicKeyPath)).isSome then
      require (saveSignedRoot (p.sibling (signedRootName root)) (Path.ofText c.settings.secretKeyPath)
        (Path.ofText c.settings.publicKeyPath) dist) >>= fun _ => print (signing (p.sibling (signedRootName root)))
    else print skipping : Act (StateM Desk) Unit).run.run d := by
  have hpresent (q : Path) : (MonadConsole.isPresent q : StateM Desk Bool).run d = ((d.disk.at? q).isSome, d) := rfl
  unfold signRoot signing skipping signedRootName
  dsimp only
  rw [run_lift_bind, run_lift_bind, hpresent, hpresent]

/-- Where both keys are there, the root is signed, or signing it fails and leaves the disk. -/
theorem ends_of_keys {u : Desk} {r : Except Ending Unit} (hwritten : Written c o d u dist document text)
    (hkeys : o.signs = true ∧ HasKeys c u) {q : Path}
    (hq : q = (documentPath c o document.root).sibling (signedRootName document.root))
    (hrun : (require (saveSignedRoot q (Path.ofText c.settings.secretKeyPath)
      (Path.ofText c.settings.publicKeyPath) dist) >>= fun _ => print (signing q) :
        Act (StateM Desk) Unit).run.run u = (r, d')) : CreationEnds c o d r d' := by
  subst hq
  cases r with
  | ok _ =>
    obtain ⟨_, t, hsave, hprint⟩ := run_bind_eq_ok.mp hrun
    obtain rfl := print_eq_ok.mp hprint
    obtain ⟨seed, key, signed, hseed, hkey, hsigned, -, hwrite⟩ := saveSignedRoot_eq_ok.mp (require_eq_ok.mp hsave)
    have hgains := gains_of_write hwrite
    exact .signed hwritten hkeys hseed hkey hsigned hgains
  | error e =>
    obtain ⟨hcode, hdisk⟩ := (leads_sign (P := (· = u.disk)) u rfl).2 e d' hrun
    refine .unsignable hwritten hkeys (fun hsignable => ?_) hcode hdisk
    obtain ⟨t, hsave⟩ := exists_saveSignedRoot hsignable
    rw [run_bind_of_ok (require_eq_ok.mpr hsave)] at hrun
    exact nomatch (Prod.mk.inj hrun).1

end Airdrop.Console
