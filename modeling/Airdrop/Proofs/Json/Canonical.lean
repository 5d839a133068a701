import Airdrop.Proofs.Json.Order
import Airdrop.Proofs.Json.Pretty
import Airdrop.Proofs.Outcome
import Airdrop.Proofs.Text.Utf8

/-!
# Canonical JSON tells objects apart

The canonical form of an object of texts, truth values, nulls and safe integers is a document: `read_canonicalText`
reads the object back from it, with its fields in ascending order. So no two objects with different fields share a
canonical form (`perm_of_canonical`), whatever their texts contain.

* `Value.Atomic` : the values without parts that have a canonical form. `exists_canonicalText` : wherever the text of
  such a value stands, it is read as this value.
* `members_canonical` : the fields of an object, one after the other.
-/

namespace Airdrop

/-- A value without parts that has a canonical form, save the floating-point numbers. -/
inductive Value.Atomic : Value → Prop
  | null : Atomic .null
  | bool (b : Bool) : Atomic (.bool b)
  | int {n : Int} (h : n.natAbs ≤ Json.maxSafeInteger) : Atomic (.int n)
  | text (s : String) : Atomic (.text s)

namespace Json

open Outcome

variable {strict : Bool}

/-! ## Strings -/

theorem stringBody_canonicalChar (c : Char) (rest : List Char) :
    stringBody (canonicalChar c ++ rest) = prepend (.char c) (stringBody rest) := by
  unfold canonicalChar
  split
  · next e he => exact stringBody_shortEscape he rest
  · next hnone =>
    by_cases hlow : c.toNat < 0x20
    · rw [if_pos hlow, stringBody_unit (by omega) (by omega), Char.ofNat_toNat]
    · rw [if_neg hlow]
      refine stringBody_plain ?_ ?_ (by omega) rest
      · rintro rfl
        exact nomatch hnone
      · rintro rfl
        exact nomatch hnone

/-- A string is read back from its canonical form. -/
theorem stringBody_canonicalString (rest : List Char) : ∀ cs : List Char,
    stringBody (cs.flatMap canonicalChar ++ '"' :: rest) = some (cs.map .char, rest)
  | [] => rfl
  | c :: cs => by
    rw [List.flatMap_cons, List.append_assoc, stringBody_canonicalChar, stringBody_canonicalString rest cs]
    rfl

theorem fieldName_canonicalString (name : String) (rest : List Char) :
    fieldName (name.toList.flatMap canonicalChar ++ '"' :: rest) = .ok (name, rest) := by
  simp only [fieldName, stringBody_canonicalString, RawText.ofCodes_char, String.ofList_toList]

theorem canonicalString_append (cs rest : List Char) :
    canonicalString cs ++ rest = '"' :: (cs.flatMap canonicalChar ++ '"' :: rest) := by
  simp only [canonicalString, List.cons_append, List.append_assoc, List.nil_append]

/-! ## Atoms -/

theorem isLong_of_safe {n : Int} (hn : n.natAbs ≤ maxSafeInteger) : Radix.isLong n = false :=
  Radix.isLong_of_lt (k := 53) (Nat.lt_of_le_of_lt hn (by decide)) (by decide)

theorem exists_canonicalText {v : Value} (h : v.Atomic) : ∃ cs, canonicalText v = .ok cs ∧
    ∀ (strict : Bool) (rest : List Char) (fuel depth : Nat), Stops rest →
      value strict (fuel + 1) depth (cs ++ rest) = .ok (v, rest) := by
  -- Only texts are escaped otherwise than in the plain form; the rest is read as it is there.
  have hscalar (hplain : v.Plain 0)
      (hread : ∀ strict rest, Stops rest → scalar strict (scalarText v ++ rest) = .ok (v, rest)) (strict : Bool)
      (rest : List Char) (fuel depth : Nat) (hrest : Stops rest) :
      value strict (fuel + 1) depth (scalarText v ++ rest) = .ok (v, rest) := by
    obtain ⟨c, cs, hcons, hc⟩ := exists_cons_scalarText hplain
    have hown := hread strict rest hrest
    rw [hcons, List.cons_append] at hown ⊢
    exact value_of_scalar hc hown fuel depth
  cases h with
  | null => exact ⟨_, by rw [canonicalText]; rfl, hscalar .null fun _ rest _ => scalar_null rest⟩
  | bool b =>
    cases b with
    | false => exact ⟨_, by rw [canonicalText]; rfl, hscalar (.bool false) fun _ rest _ => scalar_bool false rest⟩
    | true => exact ⟨_, by rw [canonicalText]; rfl, hscalar (.bool true) fun _ rest _ => scalar_bool true rest⟩
  | @int n hn =>
    have hshort := isLong_of_safe hn
    refine ⟨_, by rw [canonicalText, if_pos hn]; rfl, hscalar (.int hshort) fun _ rest hrest => ?_⟩
    exact scalar_int hrest hshort
  | text s =>
    refine ⟨_, by rw [canonicalText], fun strict rest fuel depth _ => ?_⟩
    rw [canonicalString_append]
    refine value_of_scalar (by decide) ?_ fuel depth
    show string strict (s.toList.flatMap canonicalChar ++ '"' :: rest) = _
    rw [string, stringBody_canonicalString]
    simp only [RawText.ofCodes_char, String.ofList_toList]

/-! ## Objects -/

section
variable {name : String} {v : Value} {fs gs : List (String × Value)}

theorem canonicalFields_cons {cs : List Char} : canonicalFields ((name, v) :: fs) = .ok cs ↔
    ∃ first more, canonicalText v = .ok first ∧ canonicalFields fs = .ok more ∧
      cs = ',' :: canonicalString name.toList ++ ':' :: first ++ more := by
  rw [canonicalFields, bind_eq_ok]
  simp only [bind_pure_eq_ok, exists_and_left]

theorem canonicalText_object_cons {cs : List Char} : canonicalText (.object ((name, v) :: fs)) = .ok cs ↔
    ∃ first more, canonicalText v = .ok first ∧ canonicalFields fs = .ok more ∧
      cs = '\x7b' :: canonicalString name.toList ++ ':' :: first ++ more ++ ['\x7d'] := by
  rw [canonicalText, bind_eq_ok]
  simp only [bind_pure_eq_ok, exists_and_left]

theorem exists_canonicalFields (hfs : ∀ f ∈ fs, f.2.Atomic) : ∃ cs, canonicalFields fs = .ok cs := by
  induction fs with
  | nil => exact ⟨[], by rw [canonicalFields]⟩
  | cons f fs ih =>
    obtain ⟨first, hfirst, -⟩ := exists_canonicalText (hfs f List.mem_cons_self)
    obtain ⟨more, hmore⟩ := ih fun g hg => hfs g (List.mem_cons_of_mem f hg)
    exact ⟨_, canonicalFields_cons.mpr ⟨first, more, hfirst, hmore, rfl⟩⟩

theorem stops_brace (cs : List Char) : Stops ('\x7d' :: cs) := by
  rintro c ⟨⟩
  decide

/-- The fields of an object are read one after the other, each up to the comma or the brace behind it. -/
theorem members_canonical (depth : Nat) (after : List Char) : ∀ (fs : List (String × Value)) (name : String) (v : Value)
    (fields : List (String × Value)) (fuel : Nat) (first more : List Char), (∀ f ∈ (name, v) :: fs, f.2.Atomic) →
    ((fields ++ (name, v) :: fs).map (·.1)).Nodup → canonicalText v = .ok first → canonicalFields fs = .ok more →
    fs.length + 1 < fuel →
    members strict fuel depth fields (canonicalString name.toList ++ ':' :: (first ++ (more ++ '\x7d' :: after))) =
      .ok (fields ++ (name, v) :: fs, after)
  | fs, name, v, fields, fuel, first, more, hfs, hnames, hfirst, hmore, hfuel => by
    obtain ⟨fuel, rfl⟩ : ∃ n, fuel = n + 2 := ⟨fuel - 2, by omega⟩
    obtain ⟨_, hown, hvalue⟩ := exists_canonicalText (hfs (name, v) List.mem_cons_self)
    obtain rfl := Except.ok.inj (hown.symm.trans hfirst)
    -- No name came before, so the reader adds the field behind those in `fields`, which it has read so far.
    have hset : Value.setField name v fields = fields ++ [(name, v)] := Value.setField_of_nodup hnames
    rw [canonicalString_append]
    cases fs with
    | nil =>
      rw [canonicalFields] at hmore
      obtain rfl := Except.ok.inj hmore
      rw [← hset]
      exact members_last (fieldName_canonicalString _ _) (hvalue strict _ fuel depth (stops_brace after)) rfl
    | cons f fs =>
      obtain ⟨k, w⟩ := f
      rw [List.length_cons] at hfuel
      obtain ⟨first', more', hfirst', hmore', rfl⟩ := canonicalFields_cons.mp hmore
      have hall : fields ++ (name, v) :: (k, w) :: fs = Value.setField name v fields ++ (k, w) :: fs := by
        rw [hset, List.append_assoc, List.singleton_append]
      have hrest := members_canonical depth after fs k w (Value.setField name v fields) (fuel + 1) first' more'
        (fun f hf => hfs f (List.mem_cons_of_mem _ hf)) (hall ▸ hnames) hfirst' hmore' (by omega)
      rw [← hall] at hrest
      have htext : ',' :: canonicalString k.toList ++ ':' :: first' ++ more' ++ '\x7d' :: after =
          ',' :: (canonicalString k.toList ++ ':' :: (first' ++ (more' ++ '\x7d' :: after))) := by
        simp only [List.cons_append, List.append_assoc]
      rw [htext]
      exact members_more (fieldName_canonicalString _ _) (hvalue strict _ fuel depth (stops_comma _)) rfl hrest

theorem length_le_canonicalFields {cs : List Char} (h : canonicalFields fs = .ok cs) : fs.length ≤ cs.length := by
  induction fs generalizing cs with
  | nil => exact Nat.zero_le _
  | cons f fs ih =>
    obtain ⟨k, w⟩ := f
    obtain ⟨first, more, -, hmore, rfl⟩ := canonicalFields_cons.mp h
    have hrest := ih hmore
    simp only [List.length_append, List.length_cons]
    omega

/-- An object is read back from its canonical form. -/
theorem read_canonicalText (limit : Nat) {cs : List Char} (hfs : ∀ f ∈ fs, f.2.Atomic) (hnames : (fs.map (·.1)).Nodup)
    (h : canonicalText (.object fs) = .ok cs) : read strict (limit + 1) cs = .ok (.object fs) := by
  cases fs with
  | nil =>
    rw [canonicalText] at h
    obtain rfl := Except.ok.inj h
    rfl
  | cons f fs =>
    obtain ⟨name, v⟩ := f
    obtain ⟨first, more, hfirst, hmore, rfl⟩ := canonicalText_object_cons.mp h
    -- Every field takes a character at least, so the reader has rounds enough for all of them.
    have hlength := length_le_canonicalFields hmore
    have htext : '\x7b' :: canonicalString name.toList ++ ':' :: first ++ more ++ ['\x7d'] =
        '\x7b' :: (canonicalString name.toList ++ ':' :: (first ++ (more ++ ['\x7d']))) := by
      simp only [List.cons_append, List.append_assoc]
    rw [htext]
    have hmembers : members strict _ limit [] _ = .ok _ := members_canonical limit [] fs name v []
      (2 * ('\x7b' :: (canonicalString name.toList ++ ':' :: (first ++ (more ++ ['\x7d'])))).length + 1) first more hfs
      hnames hfirst hmore (by simp; omega)
    unfold read
    rw [canonicalString_append] at hmembers ⊢
    rw [value_object rfl hmembers]
    rfl

/-! ## Bytes -/

theorem sorted_of_atomic {v : Value} (h : v.Atomic) : sorted v = v := by
  cases h <;> rfl

theorem sortedFields_of_atomic (hfs : ∀ f ∈ fs, f.2.Atomic) : sortedFields fs = fs := by
  rw [sortedFields_eq]
  refine (List.map_congr_left fun f hf => ?_).trans (List.map_id fs)
  rw [sorted_of_atomic (hfs f hf)]
  rfl

theorem canonical_eq_ok {m : Bytes} (hfs : ∀ f ∈ fs, f.2.Atomic) : canonical (.object fs) = .ok m ↔
    ∃ cs, canonicalText (.object (sortFields fieldLess fs)) = .ok cs ∧ Utf8.encode cs = m := by
  unfold canonical
  rw [sorted, sortedFields_of_atomic hfs]
  exact map_eq_ok

/-- Objects of atoms have a canonical form. -/
theorem exists_canonical (hfs : ∀ f ∈ fs, f.2.Atomic) : ∃ m, canonical (.object fs) = .ok m := by
  have hsorted : ∀ f ∈ sortFields fieldLess fs, f.2.Atomic := fun f hf =>
    hfs f ((sortFields_perm fieldLess fs).mem_iff.mp hf)
  obtain ⟨cs, hcs⟩ : ∃ cs, canonicalText (.object (sortFields fieldLess fs)) = .ok cs := by
    cases hfields : sortFields fieldLess fs with
    | nil => exact ⟨_, by rw [canonicalText]⟩
    | cons f rest =>
      rw [hfields] at hsorted
      obtain ⟨name, v⟩ := f
      obtain ⟨first, hfirst, -⟩ := exists_canonicalText (hsorted (name, v) List.mem_cons_self)
      obtain ⟨more, hmore⟩ := exists_canonicalFields fun g hg => hsorted g (List.mem_cons_of_mem _ hg)
      exact ⟨_, canonicalText_object_cons.mpr ⟨first, more, hfirst, hmore, rfl⟩⟩
  exact ⟨_, (canonical_eq_ok hfs).mpr ⟨cs, hcs, rfl⟩⟩

theorem canonicalText_of_mem_canonicalFields {cs : List Char} (h : canonicalFields fs = .ok cs) :
    ∀ f ∈ fs, ∃ t, canonicalText f.2 = .ok t := by
  induction fs generalizing cs with
  | nil => exact fun _ hno => nomatch hno
  | cons f fs ih =>
    obtain ⟨name, v⟩ := f
    obtain ⟨first, more, hfirst, hmore, -⟩ := canonicalFields_cons.mp h
    exact List.forall_mem_cons.mpr ⟨⟨first, hfirst⟩, ih hmore⟩

theorem canonicalText_of_mem {cs : List Char} (h : canonicalText (.object fs) = .ok cs) :
    ∀ f ∈ fs, ∃ t, canonicalText f.2 = .ok t := by
  cases fs with
  | nil => exact fun _ hno => nomatch hno
  | cons f fs =>
    obtain ⟨name, v⟩ := f
    obtain ⟨first, more, hfirst, hmore, -⟩ := canonicalText_object_cons.mp h
    exact List.forall_mem_cons.mpr ⟨⟨first, hfirst⟩, canonicalText_of_mem_canonicalFields hmore⟩

/-- The integers among the fields of an object with a canonical form are safe. -/
theorem safe_of_canonical {n : Int} {m : Bytes} (h : canonical (.object fs) = .ok m) (hmem : (name, .int n) ∈ fs) :
    n.natAbs ≤ maxSafeInteger := by
  obtain ⟨cs, hcs, -⟩ := map_eq_ok.mp h
  have hsorted : (name, .int n) ∈ sortFields fieldLess (sortedFields fs) := by
    rw [(sortFields_perm fieldLess _).mem_iff, sortedFields_eq]
    exact List.mem_map_of_mem (f := fun f => (f.1, Json.sorted f.2)) hmem
  obtain ⟨t, ht⟩ := canonicalText_of_mem hcs _ hsorted
  rw [canonicalText] at ht
  split at ht
  · assumption
  · exact nomatch ht

/-- Objects with one canonical form have the same fields. -/
theorem perm_of_canonical {m : Bytes} (hfs : ∀ f ∈ fs, f.2.Atomic) (hnames : (fs.map (·.1)).Nodup)
    (hgs : ∀ g ∈ gs, g.2.Atomic) (hnames' : (gs.map (·.1)).Nodup) (hf : canonical (.object fs) = .ok m)
    (hg : canonical (.object gs) = .ok m) : fs.Perm gs := by
  obtain ⟨cs, hcs, rfl⟩ := (canonical_eq_ok hfs).mp hf
  obtain ⟨cs', hcs', hbytes⟩ := (canonical_eq_ok hgs).mp hg
  have hdecode := congrArg Utf8.decode? hbytes
  rw [Utf8.decode?_encode, Utf8.decode?_encode] at hdecode
  obtain rfl := Option.some.inj hdecode
  -- The one text is read as the one object sorted and as the other one sorted.
  have hperm := sortFields_perm fieldLess fs
  have hperm' := sortFields_perm fieldLess gs
  have hread : read true 1 _ = .ok _ := read_canonicalText 0 (fun f hmem => hfs f (hperm.mem_iff.mp hmem))
    ((hperm.map _).nodup_iff.mpr hnames) hcs
  have hread' : read true 1 _ = .ok _ := read_canonicalText 0 (fun g hmem => hgs g (hperm'.mem_iff.mp hmem))
    ((hperm'.map _).nodup_iff.mpr hnames') hcs'
  have hsame : sortFields fieldLess fs = sortFields fieldLess gs :=
    Value.object.inj (Except.ok.inj (hread.symm.trans hread'))
  exact (hperm.symm.trans (List.Perm.of_eq hsame)).trans hperm'

end
end Json
end Airdrop
