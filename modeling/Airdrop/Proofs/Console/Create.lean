import Airdrop.Console
import Airdrop.Proofs.Console.Publish

/-!
# Creating a distribution, and what comes after

* `Authored.sound`, `Authored.again` : the document of rows is sound, and its own claims are rows that lead to it.
* `Saved.of_create` : the document stays on the desk while its root is signed.
* `Accepted c document`, `Rebuilt c o document` : what the commands do with a document.
* `created_accepted` : what `create` writes, the other commands accept, and from its claims it is written again.
-/

namespace Airdrop.Console

open Outcome
open Airdrop.Distribution (Documents Stands)

variable {s : Settings} {c : Context} {o : Creation} {rows : List Value} {d d' : Desk} {dist : Distribution}
  {document : Document} {text : String}

/-! ## The document of rows -/

theorem valid_of_claimantOf {v : Value} {row : Claimant} (h : claimantOf v = .ok row) : row.Valid := by
  unfold claimantOf at h
  split at h
  · exact Claimant.valid_of_read (mapError_eq_ok.mp h)
  · exact nomatch h

/-- Claims that are read as given rows, but for the links. -/
theorem exists_rows {rows : List Claimant} {claims : List Fields}
    (h : List.Forall₂ (fun row fs => ∃ url, Claimant.form.read fs = .ok { row with url }) rows claims) :
    ∃ rows', (claims.map Value.object).mapM claimantOf = .ok rows' ∧
      rows'.map Claimant.unlinked = rows.map Claimant.unlinked := by
  induction h with
  | nil => exact ⟨[], rfl, rfl⟩
  | @cons row fs rows claims hrow _ ih =>
    obtain ⟨url, hread⟩ := hrow
    obtain ⟨rows', hmore, hrows'⟩ := ih
    refine ⟨{ row with url } :: rows', ?_, ?_⟩
    · rw [List.map_cons, List.mapM_cons, bind_eq_ok]
      exact ⟨_, mapError_eq_ok.mpr hread, bind_eq_ok.mpr ⟨rows', hmore, rfl⟩⟩
    · rw [List.map_cons, List.map_cons, hrows']
      rfl

namespace Authored

theorem valid (a : Authored s o rows d d' dist document text) : ∀ row ∈ a.claimants, row.Valid := by
  intro row hrow
  obtain ⟨v, -, hv⟩ := exists_of_forall₂ (mapM_eq_ok_iff.mp a.claimants_eq) row hrow
  exact valid_of_claimantOf hv

/-- Every claim stands, in the order of the rows. -/
theorem stands (a : Authored s o rows d d' dist document text) :
    List.Forall₂ (Stands a.hasher (.text s.program) dist) (a.prepared.map (·.1)) document.claims := by
  obtain ⟨-, target, program, htarget, hprogram, hprepares⟩ := Claim.prepare_eq_ok_iff.mp a.prepare_eq
  refine a.documents.stands hprepares a.valid (Key.length_of_parse htarget) hprogram fun t ht => ?_
  obtain ⟨_, -, rfl⟩ := Option.map_eq_some_iff.mp ht
  rfl

theorem length_prepared (a : Authored s o rows d d' dist document text) : a.prepared.length = a.claimants.length := by
  obtain ⟨-, target, program, -, -, hprepares⟩ := Claim.prepare_eq_ok_iff.mp a.prepare_eq
  exact hprepares.length_eq

theorem length_claims (a : Authored s o rows d d' dist document text) : document.claims.length = rows.length := by
  rw [← a.stands.length_eq, List.length_map, a.length_prepared, ← (mapM_eq_ok_iff.mp a.claimants_eq).length_eq]

/-- The document is sound. -/
theorem sound (a : Authored s o rows d d' dist document text) : document.Sound s := by
  have hall := exists_of_forall₂ a.stands
  have hplain : document.Plain := by
    obtain ⟨hsize, hclaims⟩ := Document.isWritable_toValue.mp (Document.text_eq_ok.mp a.text_eq).1
    refine ⟨hsize, a.documents.nodup_hashing, fun fs hfs => ?_⟩
    obtain ⟨row, -, hs⟩ := hall fs hfs
    exact hs.plain (hclaims fs hfs)
  refine ⟨hplain, ⟨a.hasher, a.hasher_eq, a.documents.hasher_eq⟩, fun h hh fs hfs => ?_, fun fs hfs => ?_⟩
  · obtain rfl : a.hasher = h := Except.ok.inj (a.hasher_eq.symm.trans hh)
    obtain ⟨row, -, hs⟩ := hall fs hfs
    rw [a.documents.root_eq, a.documents.treeSize_eq]
    exact hs.accepted
  · obtain ⟨row, -, hs⟩ := hall fs hfs
    exact hs.proof

/-- The claims of the document lead to it again, whatever PINs a desk would give. -/
theorem again (a : Authored s o rows d d' dist document text) (t : Desk) :
    Nonempty (Authored s o (document.claims.map .object) t t dist document text) := by
  obtain ⟨hkind, target, program, htarget, hprogram, hprepares⟩ := Claim.prepare_eq_ok_iff.mp a.prepare_eq
  obtain ⟨claimants, hrows, hclaimants⟩ := exists_rows (a.stands.imp fun _ _ hs => hs.row)
  rw [List.map_map] at hclaimants
  have hne : ¬ claimants.isEmpty := by
    intro hempty
    have hlength := congrArg List.length hclaimants
    rw [List.length_map, List.length_map, List.isEmpty_iff.mp hempty, a.length_prepared] at hlength
    exact a.nonempty (List.isEmpty_iff.mpr (List.eq_nil_of_length_eq_zero hlength.symm))
  refine ⟨⟨claimants, a.hasher, claimants.zip (a.prepared.map (·.2)), a.method, hrows, hne, a.hasher_eq, ?_,
    a.documents.again hclaimants, a.text_eq⟩⟩
  exact Claim.prepare_eq_ok_iff.mpr ⟨hkind, target, program, htarget, hprogram, hprepares.again claimants hclaimants⟩

end Authored

/-! ## Where the document stands -/

/-- The document was not told to stand where the signed root goes. -/
def Creation.Apart (o : Creation) (c : Context) (root : String) : Prop :=
  o.out.filter (!·.isEmpty) = none ∨ o.signs = false ∨
    (documentPath c o root).names.getLast? ≠ some (signedRootName root)

theorem signedRootName_ne_documentName (root : String) : "claims-" ++ root ++ ".json" ≠ signedRootName root := by
  intro hname
  have hhead := congrArg (·.toList.head?) hname
  simp only [signedRootName, String.toList_append] at hhead
  exact absurd (Option.some.inj hhead : 'c' = 'r') (by decide)

theorem Creation.Apart.getLast?_ne {root : String} (h : o.Apart c root) (hsigns : o.signs = true) :
    (documentPath c o root).names.getLast? ≠ some (signedRootName root) := by
  rcases h with hout | hno | hne
  · intro hlast
    rw [documentPath, hout] at hlast
    exact signedRootName_ne_documentName root (Option.some.inj (List.getLast?_concat.symm.trans hlast))
  · exact absurd (hsigns.symm.trans hno) (by decide)
  · exact hne

theorem normal_documentPath (root : Bytes) : (documentPath c o (Base58.text root)).Normal := by
  unfold documentPath
  split
  · exact Path.normal_ofText _
  · have hname : ("claims-" ++ Base58.text root ++ ".json").toList =
        "claims-".toList ++ Base58.encode root ++ ".json".toList := by
      have htext : (Base58.text root).toList = Base58.encode root := String.toList_ofList
      rw [String.toList_append, String.toList_append, htext]
    refine Path.normal_child (Path.normal_ofText _) ⟨fun hno => ?_, fun hno => ?_, fun hslash => ?_⟩
    · exact nomatch hname.symm.trans (congrArg String.toList hno)
    · have hhead := congrArg List.head? (hname.symm.trans (congrArg String.toList hno))
      exact absurd (Option.some.inj hhead : 'c' = '.') (by decide)
    · rw [hname, List.mem_append, List.mem_append] at hslash
      rcases hslash with (hslash | hslash) | hslash
      · exact absurd hslash (by decide)
      · exact absurd (Base58.mem_alphabet root _ hslash) (by decide)
      · exact absurd hslash (by decide)

theorem Saved.holds {p : Path} (hs : Saved d p text) (hp : p.Normal) : d.Holds p.text (Utf8.ofText text) := by
  refine ⟨?_, ?_⟩
  · rw [Path.ofText_text hp]
    exact hs.noNul
  · rw [Path.ofText_text hp]
    exact hs.content

theorem run_create {p : Path} {u : Desk}
    (h : (publish c o : Act (StateM Desk) (Path × Distribution)).run.run d = (.ok (p, dist), u)) :
    (create c o : Act (StateM Desk) Unit).run.run d =
      (if o.signs then signRoot c p (Base58.text dist.root) dist else pure () : Act (StateM Desk) Unit).run.run u := by
  rw [create, run_bind_of_ok h]

/-- What stands on the desk once it is published stays there. -/
theorem Saved.of_create {p : Path} {u : Desk} (hp : p = documentPath c o (Base58.text dist.root))
    (h : (publish c o : Act (StateM Desk) (Path × Distribution)).run.run d = (.ok (p, dist), u))
    (hs : Saved u p text) (hapart : o.Apart c (Base58.text dist.root)) :
    Saved ((create c o : Act (StateM Desk) Unit).run.run d).2 p text := by
  rw [run_create h]
  cases hsigns : o.signs with
  | false => exact hs
  | true =>
    refine hs.of_signRoot ?_
    rw [hp]
    exact hapart.getLast?_ne hsigns

/-! ## What the commands do -/

/-- What a command does on a desk. -/
def Desk.perform (d : Desk) (c : Context) (command : Command) : Except Ending Unit × Desk :=
  (Console.perform c command : Act (StateM Desk) Unit).run.run d

/-- What the other commands say about a document, of which they read the text, and about its claims. -/
structure Accepted (c : Context) (document : Document) (text : String) : Prop where
  verifyDistribution : ∀ (d : Desk) (file : String), d.Holds file (Utf8.ofText text) →
    d.perform c (.verifyDistribution file) =
      (.ok (), d.printing (.object [("claims", .int document.claims.length), ("invalid", .list []),
        ("malformed", .list [])]))
  verifyClaim : ∀ (d : Desk) (file : String) (fs : Fields) (size : Option Int), fs ∈ document.claims →
    d.HoldsValue file (.object fs) → size = none ∨ size = some document.treeSize →
    d.perform c (.verifyClaim file document.root size) = (.ok (), d.printing (.object [("claim_valid", .bool true)]))
  showProof : ∀ (d : Desk) (file : String) (i : Nat) (fs : Fields), d.Holds file (Utf8.ofText text) →
    document.claims[i]? = some fs → ∃ proof, Value.lookup "proof" fs = some proof ∧
      d.perform c (.showProof file i) =
        (.ok (), d.printing (.object [("index", .int i), ("proof", proof), ("root", .text document.root)]))

/-- The claims of a document, taken as the list of claimants, lead to the same text again. -/
def Rebuilt (c : Context) (o : Creation) (document : Document) (text : String) : Prop :=
  ∀ (d : Desk) (list : String), d.HoldsValue list (.list (document.claims.map .object)) →
    d.disk.at? (documentPath c o document.root).parent = some .directory →
    d.disk.at? (documentPath c o document.root) ≠ some .directory →
    (d.perform c (.create { o with list })).2.Holds (documentPath c o document.root).text (Utf8.ofText text) ∧
    (o.signs = false → (d.perform c (.create { o with list })).1 = .ok ())

theorem accepted_of_sound (hs : document.Sound c.settings) (htext : document.text = .ok text) :
    Accepted c document text where
  verifyDistribution _ _ hfile := run_verifyDistribution hs htext hfile
  verifyClaim _ _ _ _ hfs hfile hsize := run_verifyClaim hs hfs hfile hsize
  showProof _ _ _ fs hfile hfs := by
    obtain ⟨proof, hproof⟩ := hs.proof fs (List.mem_of_getElem? hfs)
    exact ⟨proof, hproof, run_showProof hs.plain htext hfile hfs hproof⟩

theorem Authored.rebuilt (a : Authored c.settings o rows d d' dist document text) {dst : Desk}
    (hs : Saved dst (documentPath c o document.root) text) (hapart : o.Apart c document.root) :
    Rebuilt c o document text := by
  intro t list hlist hparent hfree
  have again (u : Desk) :
      Nonempty (Authored c.settings { o with list } (document.claims.map .object) u u dist document text) := by
    obtain ⟨b⟩ := a.again u
    exact ⟨⟨b.claimants, b.hasher, b.prepared, b.method, b.claimants_eq, b.nonempty, b.hasher_eq, b.prepare_eq,
      b.documents, b.text_eq⟩⟩
  have hroot := a.documents.root_eq
  rw [hroot] at hs hapart hparent hfree ⊢
  obtain ⟨u, hpublish, hsaved⟩ := exists_publish (o := { o with list }) hlist again rfl hs hparent hfree
  constructor
  · exact (Saved.of_create rfl hpublish hsaved hapart).holds (normal_documentPath _)
  · intro hsigns
    show ((create c { o with list } : Act (StateM Desk) Unit).run.run t).1 = _
    rw [run_create hpublish, hsigns]
    rfl

end Airdrop.Console
