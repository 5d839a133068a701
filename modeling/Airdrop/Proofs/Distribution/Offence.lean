import Airdrop.Proofs.Distribution.Admission
import Airdrop.Proofs.Leaf.Fields

/-!
# What a list of records is refused for

* `WellFormed records` : the lists that a distribution can be made of.
* `Offence records i e` : what the record at a position is refused for; `FirstOffence` : at the least such position.
* `Proper records i r` : nothing is wrong with a record at its position. `proper_or_offence`, `proper_or_first`.
* `acceptAll_take` : a scan passes over proper records; `accept_of_offence` : it stops at an offence with its error.
* `Built.entry_eq` : what stands in a distribution at the position of a record.
* `ofRecords_outcome` : well-formed lists are accepted and all others refused for the first offence.
-/

namespace Airdrop.Distribution

open Outcome
open Airdrop.Merkle.Tree (siblings path_eq_ok_iff build_eq_ok_iff)

variable {h : Hasher} {kind : Kind} {earlier encoded : List Bytes} {records : List Leaf} {r : Leaf} {i : Nat}
  {e : Error}

def firstKind? (records : List Leaf) : Option Kind := records.head?.bind fun r => r.kind.toOption

/-- The lists of records that a distribution can be made of. -/
structure WellFormed (records : List Leaf) : Prop where
  nonempty : records ≠ []
  encodable : ∀ r ∈ records, ∃ bs, r.encode = .ok bs
  same_kind : ∀ r ∈ records, r.kind.toOption = firstKind? records
  placed : ∀ (i : Nat) (r : Leaf) (v : Value), records[i]? = some r → r.index? = some v → v = .int i
  nodup : records.Nodup

/-- What the record at a position is refused for. A record that cannot be encoded is refused for nothing else, then one
of another kind than the first, then one that carries another index than its position, then one that is equal to an
earlier one. -/
inductive Offence (records : List Leaf) (i : Nat) : Error → Prop
  | encoding {r : Leaf} {e : Error} (hr : records[i]? = some r) (he : r.encode = .error e) : Offence records i e
  | mixed {r : Leaf} {bs : Bytes} {own kind : Kind} (hr : records[i]? = some r) (he : r.encode = .ok bs)
      (hown : r.kind = .ok own) (hfirst : firstKind? records = some kind) (hne : own ≠ kind) :
      Offence records i (.encoding (.mixedKinds i own.name kind.name))
  | misplaced {r : Leaf} {bs : Bytes} {n : Int} (hr : records[i]? = some r) (he : r.encode = .ok bs)
      (hk : r.kind.toOption = firstKind? records) (hindex : r.index? = some (.int n)) (hne : n ≠ i) :
      Offence records i (.encoding (.misplaced i n))
  | duplicate {r : Leaf} {bs : Bytes} {j : Nat} (hr : records[i]? = some r) (he : r.encode = .ok bs)
      (hk : r.kind.toOption = firstKind? records) (hindex : ∀ v, r.index? = some v → v = .int i) (hj : j < i)
      (hrj : records[j]? = some r) : Offence records i (.duplicate i j)

/-- An offence before which there is none. -/
def FirstOffence (records : List Leaf) (i : Nat) (e : Error) : Prop :=
  Offence records i e ∧ ∀ j < i, ∀ e', ¬Offence records j e'

/-- Nothing is wrong with a record at its position. -/
structure Proper (records : List Leaf) (i : Nat) (r : Leaf) : Prop where
  encodable : ∃ bs, r.encode = .ok bs
  kind_eq : r.kind.toOption = firstKind? records
  index_eq : ∀ v, r.index? = some v → v = .int i
  fresh : ∀ j < i, records[j]? ≠ some r

def ProperBelow (records : List Leaf) (n : Nat) : Prop := ∀ i < n, ∀ r, records[i]? = some r → Proper records i r

/-! ## Proper records and offences -/

theorem proper_or_offence (hfirst : firstKind? records = some kind) (hr : records[i]? = some r) :
    Proper records i r ∨ ∃ e, Offence records i e := by
  cases he : r.encode with
  | error fault => exact .inr ⟨_, .encoding hr he⟩
  | ok bs =>
    obtain ⟨own, hown⟩ := Leaf.kind_of_encode he
    by_cases hne : own = kind
    · have hk : r.kind.toOption = firstKind? records := by rw [hown, hfirst, hne]; rfl
      by_cases hindex : ∀ v, r.index? = some v → v = .int i
      · by_cases hfresh : ∀ j < i, records[j]? ≠ some r
        · exact .inl ⟨⟨bs, he⟩, hk, hindex, hfresh⟩
        · push Not at hfresh
          obtain ⟨j, hj, hrj⟩ := hfresh
          exact .inr ⟨_, .duplicate hr he hk hindex hj hrj⟩
      · push Not at hindex
        obtain ⟨v, hv, hvi⟩ := hindex
        obtain ⟨n, rfl⟩ := Leaf.int_of_index? he hv
        exact .inr ⟨_, .misplaced hr he hk hv fun hn => hvi (congrArg Value.int hn)⟩
    · exact .inr ⟨_, .mixed hr he hown hfirst hne⟩

theorem Offence.exists_record (ho : Offence records i e) : ∃ r, records[i]? = some r := by
  cases ho with
  | encoding hr | mixed hr | misplaced hr | duplicate hr => exact ⟨_, hr⟩

theorem Offence.not_proper (ho : Offence records i e) (hr : records[i]? = some r) : ¬Proper records i r := by
  rintro ⟨⟨bs, he⟩, hk, hindex, hfresh⟩
  cases ho with
  | encoding hr' he' =>
    obtain rfl := Option.some.inj (hr.symm.trans hr')
    exact nomatch he.symm.trans he'
  | mixed hr' _ hown hfirst hne =>
    obtain rfl := Option.some.inj (hr.symm.trans hr')
    rw [hown, hfirst] at hk
    exact hne (Option.some.inj hk)
  | misplaced hr' _ _ hn hne =>
    obtain rfl := Option.some.inj (hr.symm.trans hr')
    exact hne (Value.int.inj (hindex _ hn))
  | duplicate hr' _ _ _ hj hrj =>
    obtain rfl := Option.some.inj (hr.symm.trans hr')
    exact hfresh _ hj hrj

theorem ProperBelow.no_offence {n : Nat} (hp : ProperBelow records n) (hi : i < n) : ¬Offence records i e := by
  intro ho
  obtain ⟨r, hr⟩ := ho.exists_record
  exact ho.not_proper hr (hp i hi r hr)

/-- Up to any position, all records are proper or there is a first offence. -/
theorem proper_or_first (hfirst : firstKind? records = some kind) :
    ∀ n, ProperBelow records n ∨ ∃ i e, FirstOffence records i e
  | 0 => .inl fun i hi => absurd hi (Nat.not_lt_zero i)
  | n + 1 => by
    rcases proper_or_first hfirst n with hbelow | hoffence
    · cases hr : records[n]? with
      | none =>
        refine .inl fun i hi r hri => hbelow i ?_ r hri
        rcases Nat.lt_succ_iff_lt_or_eq.mp hi with hlt | rfl
        · exact hlt
        · exact nomatch hr.symm.trans hri
      | some r =>
        rcases proper_or_offence hfirst hr with hproper | ⟨e, he⟩
        · refine .inl fun i hi r' hri => ?_
          rcases Nat.lt_succ_iff_lt_or_eq.mp hi with hlt | rfl
          · exact hbelow i hlt r' hri
          · exact Option.some.inj (hr.symm.trans hri) ▸ hproper
        · exact .inr ⟨n, e, he, fun j hj e' => hbelow.no_offence hj⟩
    · exact .inr hoffence

theorem FirstOffence.proper_below (hfirst : firstKind? records = some kind) (ho : FirstOffence records i e) :
    ProperBelow records i := by
  intro j hj r hr
  rcases proper_or_offence hfirst hr with hproper | ⟨e', he'⟩
  · exact hproper
  · exact absurd he' (ho.2 j hj e')

theorem wellFormed_iff : WellFormed records ↔ records ≠ [] ∧ ProperBelow records records.length := by
  constructor
  · intro hw
    refine ⟨hw.nonempty, fun i _ r hr => ⟨hw.encodable r (List.mem_of_getElem? hr),
      hw.same_kind r (List.mem_of_getElem? hr), fun v => hw.placed i r v hr, fun j hj hrj => ?_⟩⟩
    obtain ⟨hi, -⟩ := List.getElem?_eq_some_iff.mp hr
    exact List.nodup_iff_getElem?_ne_getElem?.mp hw.nodup j i hj hi (hrj.trans hr.symm)
  · rintro ⟨hne, hp⟩
    have hproper : ∀ (i : Nat) (r : Leaf), records[i]? = some r → Proper records i r := fun i r hr =>
      hp i (List.getElem?_eq_some_iff.mp hr).1 r hr
    refine ⟨hne, fun r hr => ?_, fun r hr => ?_, fun i r v hr => (hproper i r hr).index_eq v, ?_⟩
    · obtain ⟨i, hi⟩ := List.getElem?_of_mem hr
      exact (hproper i r hi).encodable
    · obtain ⟨i, hi⟩ := List.getElem?_of_mem hr
      exact (hproper i r hi).kind_eq
    · refine List.nodup_iff_getElem?_ne_getElem?.mpr fun j i hji hi heq => ?_
      have hr := List.getElem?_eq_getElem hi
      exact (hproper i _ hr).fresh j hji (heq.trans hr)

/-! ## The scan -/

/-- The byte forms of the first records, which are all proper. -/
def Scanned (records : List Leaf) (encoded : List Bytes) : Prop :=
  ∀ i bs, encoded[i]? = some bs → ∃ r, records[i]? = some r ∧ r.encode = .ok bs ∧ Proper records i r

theorem Scanned.concat (hs : Scanned records encoded) {bs : Bytes} (hr : records[encoded.length]? = some r)
    (he : r.encode = .ok bs) (hp : Proper records encoded.length r) : Scanned records (encoded ++ [bs]) := by
  intro i bs' hbs'
  rcases Nat.lt_trichotomy i encoded.length with hlt | rfl | hgt
  · rw [List.getElem?_append_left hlt] at hbs'
    exact hs i bs' hbs'
  · rw [List.getElem?_concat_length] at hbs'
    exact Option.some.inj hbs' ▸ ⟨r, hr, he, hp⟩
  · rw [List.getElem?_eq_none (by simpa using Nat.succ_le_of_lt hgt)] at hbs'
    exact nomatch hbs'

/-- In a scanned list a byte form stands only where the record itself does. -/
theorem Scanned.record_eq (hs : Scanned records encoded) {bs : Bytes} (he : r.encode = .ok bs)
    (hk : r.kind.toOption = firstKind? records) {j : Nat} (hj : encoded[j]? = some bs) : records[j]? = some r := by
  obtain ⟨r', hr', he', hproper⟩ := hs j bs hj
  obtain ⟨own, hown⟩ := Leaf.kind_of_encode he
  obtain ⟨own', hown'⟩ := Leaf.kind_of_encode he'
  have hsame := hproper.kind_eq.trans hk.symm
  rw [hown, hown'] at hsame
  have hkind : r'.kind = r.kind := by rw [hown, hown', Option.some.inj hsame]
  exact Leaf.eq_of_encode_eq hkind he' he ▸ hr'

theorem kind_eq_of_toOption (hfirst : firstKind? records = some kind) (hk : r.kind.toOption = firstKind? records) :
    r.kind = .ok kind :=
  toOption_eq_some.mp (hk.trans hfirst)

theorem checkPosition_of_index (hindex : ∀ v, r.index? = some v → v = .int i) : checkPosition kind i r = .ok () :=
  checkPosition_eq_ok_iff.mpr fun _ n hn => Value.int.inj (hindex (.int n) hn)

theorem accept_of_proper (hfirst : firstKind? records = some kind) (hs : Scanned records encoded)
    (hr : records[encoded.length]? = some r) (hp : Proper records encoded.length r) :
    ∃ bs, accept kind encoded r = .ok bs ∧ Scanned records (encoded ++ [bs]) := by
  obtain ⟨bs, he⟩ := hp.encodable
  have hkind := kind_eq_of_toOption hfirst hp.kind_eq
  refine ⟨bs, accept_eq_ok_iff.mpr ⟨he, hkind, checkPosition_of_index hp.index_eq, fun hmem => ?_⟩, hs.concat hr he hp⟩
  obtain ⟨j, hj⟩ := List.getElem?_of_mem hmem
  obtain ⟨hlt, -⟩ := List.getElem?_eq_some_iff.mp hj
  exact hp.fresh j hlt (hs.record_eq he hp.kind_eq hj)

/-- A record of the kind of the distribution is checked for its position and for an equal one before it. -/
theorem accept_eq {bs : Bytes} (he : r.encode = .ok bs) (hk : r.kind = .ok kind) :
    accept kind earlier r = checkPosition kind earlier.length r >>= fun _ =>
      match earlier.findIdx? (· == bs) with
      | some first => .error (.duplicate earlier.length first)
      | none => pure bs := by
  rw [accept, he, hk]
  show (if kind ≠ kind then _ else _) = _
  exact if_neg (not_not.mpr rfl)

theorem accept_of_offence (hfirst : firstKind? records = some kind) (hs : Scanned records encoded)
    (ho : Offence records encoded.length e) (hr : records[encoded.length]? = some r) :
    accept kind encoded r = .error e := by
  cases ho with
  | encoding hr' he =>
    obtain rfl := Option.some.inj (hr.symm.trans hr')
    rw [accept, he]
    rfl
  | @mixed _ _ own kind' hr' he hown hfirst' hne =>
    obtain rfl := Option.some.inj (hr.symm.trans hr')
    obtain rfl := Option.some.inj (hfirst.symm.trans hfirst')
    rw [accept, he, hown]
    show (if own ≠ kind then _ else _) = _
    rw [if_pos hne]
    rfl
  | misplaced hr' he hk hindex hne =>
    obtain rfl := Option.some.inj (hr.symm.trans hr')
    have hkind := kind_eq_of_toOption hfirst hk
    rw [accept_eq he hkind, checkPosition, Leaf.isIndexed_of_index? hkind hindex, hindex]
    show (if _ = _ then _ else _ : Except Error Unit) >>= _ = _
    rw [if_neg hne, Error.raised_misplaced, Leaf.isLong_of_index? he hindex]
    rfl
  | @duplicate _ bs j hr' he hk hindex hj hrj =>
    obtain rfl := Option.some.inj (hr.symm.trans hr')
    have hkind := kind_eq_of_toOption hfirst hk
    -- The earlier record is proper, so it is the first one with this byte form.
    have hfind : encoded.findIdx? (· == bs) = some j := by
      obtain ⟨r', hr', he', hproper⟩ := hs j _ (List.getElem?_eq_getElem hj)
      obtain rfl := Option.some.inj (hrj.symm.trans hr')
      rw [List.findIdx?_eq_some_iff_getElem]
      refine ⟨hj, beq_iff_eq.mpr (Except.ok.inj (he'.symm.trans he)), fun k hkj heq => ?_⟩
      have hbs : encoded[k]? = some bs := by
        rw [List.getElem?_eq_getElem (Nat.lt_trans hkj hj), beq_iff_eq.mp heq]
      exact hproper.fresh k hkj (hs.record_eq he hk hbs)
    rw [accept_eq he hkind, checkPosition_of_index hindex, ok_bind, hfind]

theorem acceptAll_append : ∀ (before rest : List Leaf) (earlier : List Bytes),
    acceptAll kind earlier (before ++ rest) = acceptAll kind earlier before >>= fun all => acceptAll kind all rest
  | [], _, _ => rfl
  | record :: before, rest, earlier => by
    rw [List.cons_append, acceptAll, acceptAll, bind_assoc]
    exact bind_congr fun bs => acceptAll_append before rest (earlier ++ [bs])

theorem acceptAll_take (hfirst : firstKind? records = some kind) : ∀ n, n ≤ records.length → ProperBelow records n →
    ∃ all, acceptAll kind [] (records.take n) = .ok all ∧ all.length = n ∧ Scanned records all
  | 0, _, _ => ⟨[], rfl, rfl, fun _ _ hno => (nomatch hno)⟩
  | n + 1, hn, hp => by
    have hbelow : ProperBelow records n := fun i hi => hp i (Nat.lt_succ_of_lt hi)
    obtain ⟨all, hall, rfl, hs⟩ := acceptAll_take hfirst n (Nat.le_of_succ_le hn) hbelow
    have hr := List.getElem?_eq_getElem (Nat.lt_of_succ_le hn)
    obtain ⟨bs, hbs, hs⟩ := accept_of_proper hfirst hs hr (hp _ (Nat.lt_succ_self _) _ hr)
    refine ⟨all ++ [bs], ?_, by simp, hs⟩
    rw [List.take_add_one, hr, acceptAll_append, hall, ok_bind, Option.toList_some, acceptAll, hbs]
    rfl

/-- The scan stops at the first offence. -/
theorem acceptAll_of_firstOffence (hfirst : firstKind? records = some kind) (ho : FirstOffence records i e) :
    acceptAll kind [] records = .error e := by
  obtain ⟨r, hr⟩ := ho.1.exists_record
  obtain ⟨hi, hri⟩ := List.getElem?_eq_some_iff.mp hr
  obtain ⟨all, hall, rfl, hs⟩ := acceptAll_take hfirst i (Nat.le_of_lt hi) (ho.proper_below hfirst)
  rw [← List.take_append_drop all.length records, acceptAll_append, hall, ok_bind, List.drop_eq_getElem_cons hi, hri,
    acceptAll, accept_of_offence hfirst hs ho.1 hr]
  rfl

/-! ## The distribution -/

theorem ofRecords_eq (hfirst : firstKind? records = some kind) :
    ofRecords h records = acceptAll kind [] records >>= fun all => Merkle.Tree.build h (all.map h.leaf) >>= fun tree =>
      pure { tree, entries := entriesOf tree records (all.map h.leaf), kind } := by
  cases records with
  | nil => exact nomatch hfirst
  | cons first rest =>
    have hkind : first.kind = .ok kind := toOption_eq_some.mp hfirst
    rw [ofRecords, hkind]
    rfl

theorem exists_of_wellFormed (h : Hasher) (hw : WellFormed records) : ∃ d, ofRecords h records = .ok d := by
  obtain ⟨hne, hp⟩ := wellFormed_iff.mp hw
  obtain ⟨first, rest, rfl⟩ := List.exists_cons_of_ne_nil hne
  obtain ⟨bs, he⟩ := hw.encodable first List.mem_cons_self
  obtain ⟨kind, hkind⟩ := Leaf.kind_of_encode he
  have hfirst : firstKind? (first :: rest) = some kind := toOption_eq_some.mpr hkind
  obtain ⟨all, hall, hlen, -⟩ := acceptAll_take hfirst _ (Nat.le_refl _) hp
  rw [List.take_length] at hall
  have htree : Merkle.Tree.build h (all.map h.leaf) = .ok ⟨h, Merkle.levels h (all.map h.leaf)⟩ := by
    refine build_eq_ok_iff.mpr ⟨?_, fun leaf hleaf => ?_, rfl⟩
    · exact List.ne_nil_of_length_pos (by simp [hlen])
    · obtain ⟨e, -, rfl⟩ := List.mem_map.mp hleaf
      exact Hasher.length_leaf h e
  rw [ofRecords_eq hfirst, hall, ok_bind, htree]
  exact ⟨_, rfl⟩

/-- A first record that is none at all is the first offence. -/
theorem ofRecords_of_foreign {typeName : String} {rest : List Leaf} (h : Hasher)
    (ho : FirstOffence (.foreign typeName :: rest) i e) : ofRecords h (.foreign typeName :: rest) = .error e := by
  have hzero : Offence (.foreign typeName :: rest) 0 (.encoding (.unknownVariant typeName)) := .encoding rfl rfl
  have hi : i = 0 := Nat.eq_zero_of_not_pos fun hpos => ho.2 0 hpos _ hzero
  subst hi
  cases ho.1 with
  | encoding hr he =>
    obtain rfl := Option.some.inj hr
    obtain rfl := Except.error.inj he
    rfl
  | mixed hr he | misplaced hr he | duplicate hr he =>
    obtain rfl := Option.some.inj hr
    exact nomatch he

theorem ofRecords_of_firstOffence (h : Hasher) (ho : FirstOffence records i e) : ofRecords h records = .error e := by
  obtain ⟨r, hr⟩ := ho.1.exists_record
  cases records with
  | nil => exact nomatch hr
  | cons first rest =>
    cases hkind : first.kind with
    | ok kind =>
      have hfirst : firstKind? (first :: rest) = some kind := toOption_eq_some.mpr hkind
      rw [ofRecords_eq hfirst, acceptAll_of_firstOffence hfirst ho]
      rfl
    | error fault =>
      cases first with
      | foreign typeName => exact ofRecords_of_foreign h ho
      | transfer | candy | edition | ingredient => exact nomatch hkind

/-- A list of records is well-formed or has a first offence. -/
theorem wellFormed_or_firstOffence (hne : records ≠ []) : WellFormed records ∨ ∃ i e, FirstOffence records i e := by
  obtain ⟨first, rest, rfl⟩ := List.exists_cons_of_ne_nil hne
  cases he : first.encode with
  | error fault => exact .inr ⟨0, _, .encoding rfl he, fun j hj => absurd hj (Nat.not_lt_zero j)⟩
  | ok bs =>
    obtain ⟨kind, hkind⟩ := Leaf.kind_of_encode he
    have hfirst : firstKind? (first :: rest) = some kind := toOption_eq_some.mpr hkind
    exact (proper_or_first hfirst _).imp_left fun hp => wellFormed_iff.mpr ⟨hne, hp⟩

theorem exists_ofRecords_iff : (∃ d, ofRecords h records = .ok d) ↔ WellFormed records := by
  refine ⟨fun ⟨d, hd⟩ => ?_, exists_of_wellFormed h⟩
  have hne : records ≠ [] := by
    rintro rfl
    exact nomatch hd
  refine (wellFormed_or_firstOffence hne).resolve_right fun ⟨i, e, ho⟩ => ?_
  exact nomatch hd.symm.trans (ofRecords_of_firstOffence h ho)

theorem ofRecords_eq_error_iff :
    ofRecords h records = .error e ↔ records = [] ∧ e = .noRecords ∨ ∃ i, FirstOffence records i e := by
  constructor
  · intro he
    by_cases hne : records = []
    · subst hne
      exact .inl ⟨rfl, (Except.error.inj he).symm⟩
    · rcases wellFormed_or_firstOffence hne with hw | ⟨i, e', ho⟩
      · obtain ⟨d, hd⟩ := exists_of_wellFormed h hw
        exact nomatch hd.symm.trans he
      · obtain rfl := Except.error.inj ((ofRecords_of_firstOffence h ho).symm.trans he)
        exact .inr ⟨i, ho⟩
  · rintro (⟨rfl, rfl⟩ | ⟨i, ho⟩)
    · rfl
    · exact ofRecords_of_firstOffence h ho

/-- An offence is an encoding error or a claim that an earlier one repeats, unless the record is unwritable. -/
theorem Offence.kind_cases (ho : Offence records i e) (hr : records[i]? = some r) :
    r.Unwritable ∧ e = .value .tooLongToWrite ∨ ¬r.Unwritable ∧ (e.kind = "EncodingError" ∨
      e.kind = "DuplicateClaimError" ∧ ∃ j < i, e = .duplicate i j ∧ records[j]? = some r) := by
  cases ho with
  | encoding hr' he =>
    obtain rfl := Option.some.inj (hr.symm.trans hr')
    rcases Leaf.refusal_of_encode he with ⟨⟨fault, rfl⟩, hwritable⟩ | ⟨rfl, hunwritable⟩
    · exact .inr ⟨hwritable, .inl rfl⟩
    · exact .inl ⟨hunwritable, rfl⟩
  | mixed hr' he | misplaced hr' he =>
    obtain rfl := Option.some.inj (hr.symm.trans hr')
    exact .inr ⟨Leaf.not_unwritable_of_encode he, .inl rfl⟩
  | duplicate hr' he _ _ hj hrj =>
    obtain rfl := Option.some.inj (hr.symm.trans hr')
    exact .inr ⟨Leaf.not_unwritable_of_encode he, .inr ⟨rfl, _, hj, rfl, hrj⟩⟩

/-- Records that carry their positions are never told to be repeated. -/
theorem FirstOffence.ingredient {j k : Nat} (ho : FirstOffence records i (.duplicate j k)) :
    firstKind? records = some .ingredient := by
  obtain ⟨ho, hbefore⟩ := ho
  cases ho with
  | encoding _ he =>
    rcases Leaf.refusal_of_encode he with ⟨⟨_, hno⟩, -⟩ | ⟨hno, -⟩ <;> exact nomatch hno
  | @duplicate r _ _ _ he hk hindex hlt hrk =>
    have hnone : r.index? = none := by
      cases hv : r.index? with
      | none => rfl
      | some v =>
        obtain rfl := hindex v hv
        exact absurd (.misplaced hrk he hk hv (by omega)) (hbefore k hlt _)
    rw [← hk]
    cases Leaf.encodes_of_encode he with
    | ingredient => rfl
    | transfer | candy | edition => exact nomatch hnone

namespace Built

variable {d : Distribution}

theorem entry_eq (hb : Built h records encoded d) (hr : records[i]? = some r) :
    ∃ entry, d.entries[i]? = some entry ∧ entry.index = i ∧ entry.record = r ∧
      r.encode.map h.leaf = .ok entry.leafHash ∧ d.tree.path i = .ok entry.proof ∧ d.verify i = .ok true := by
  obtain ⟨hi, -⟩ := List.getElem?_eq_some_iff.mp hr
  have hlt : i < encoded.length := hb.admitted.length_eq ▸ hi
  have hbs := List.getElem?_eq_getElem hlt
  generalize encoded[i] = bs at hbs
  have hentry := hb.getElem?_entries hr hbs
  refine ⟨_, hentry, rfl, rfl, ?_, ?_, ?_⟩
  · rw [hb.admitted.encode_of_getElem? hr hbs]
    rfl
  · refine path_eq_ok_iff.mpr ⟨Int.natCast_nonneg i, ?_, by rw [Int.toNat_natCast]; rfl⟩
    exact Int.ofNat_lt.mpr (Nat.lt_of_lt_of_eq hi hb.size_eq.symm)
  · have hat : d.entryAt? i = some (entry d.tree r (h.leaf bs) i) := by
      rw [entryAt?, if_pos (Int.natCast_nonneg i), Int.toNat_natCast, hentry]
    have hleaf : (d.tree.levels.headD [])[i]? = some (h.leaf bs) := by rw [hb.leaves_eq, List.getElem?_map, hbs]; rfl
    rw [verify, hat, hb.hasher_eq]
    exact hb.tower.verify_own hleaf fun n hn => (Option.some.inj hn).symm

end Built

/-- **Which lists of records become distributions.** A list is accepted if it is well-formed; an empty one is refused as
such, and any other for what is wrong at the least position where something is: with an encoding error, as a repeated
claim, or, when the message would have to show a number that is too long, with the error about that. Only ingredients
can be told to be repeated. An accepted list stands in its distribution record by record, each with its hash and a path
that verifies. -/
theorem ofRecords_outcome (h : Hasher) (records : List Leaf) :
    ((∃ d, ofRecords h records = .ok d) ↔ WellFormed records) ∧
    (∀ e, ofRecords h records = .error e ↔
      records = [] ∧ e = .noRecords ∨ ∃ i, Offence records i e ∧ ∀ j < i, ∀ e', ¬Offence records j e') ∧
    Error.noRecords.kind = "EmptyTreeError" ∧
    (∀ i r e, records[i]? = some r → Offence records i e →
      r.Unwritable ∧ e = .value .tooLongToWrite ∨ ¬r.Unwritable ∧ (e.kind = "EncodingError" ∨
        e.kind = "DuplicateClaimError" ∧ ∃ j < i, e = .duplicate i j ∧ records[j]? = some r)) ∧
    (∀ i j, ofRecords h records = .error (.duplicate i j) → firstKind? records = some .ingredient) ∧
    ∀ d, ofRecords h records = .ok d → d.size = records.length ∧ d.entries.length = records.length ∧
      ∀ (i : Nat) (r : Leaf), records[i]? = some r → ∃ entry, d.entries[i]? = some entry ∧ entry.index = i ∧
        entry.record = r ∧ r.encode.map h.leaf = .ok entry.leafHash ∧ d.tree.path i = .ok entry.proof ∧
        d.verify i = .ok true := by
  refine ⟨exists_ofRecords_iff, fun e => ofRecords_eq_error_iff, rfl, fun i r e hr ho => ho.kind_cases hr,
    fun i j hdup => ?_, fun d hd => ?_⟩
  · rcases ofRecords_eq_error_iff.mp hdup with ⟨-, hno⟩ | ⟨k, ho⟩
    · exact nomatch hno
    · exact ho.ingredient
  · obtain ⟨encoded, hb⟩ := built_of_ofRecords hd
    exact ⟨hb.size_eq, hb.length_entries, fun i r => hb.entry_eq⟩

/-- Two ingredients make a distribution, and the path of the second one verifies. -/
theorem ofRecords_outcome_two :
    ∃ d, ofRecords {} [.ingredient (.bytes (List.replicate 32 1)) (.int 0),
        .ingredient (.bytes (List.replicate 32 2)) (.int 2)] = .ok d ∧ d.size = 2 ∧ d.verify 1 = .ok true := by
  have hshape (r : Leaf) (hr : r ∈ [Leaf.ingredient (.bytes (List.replicate 32 1)) (.int 0),
      .ingredient (.bytes (List.replicate 32 2)) (.int 2)]) : ∃ bs, r.encode = .ok bs ∧ r.kind = .ok .ingredient := by
    rcases List.mem_pair.mp hr with rfl | rfl <;>
      exact ⟨_, Leaf.encode_eq_ok_iff.mpr (.ingredient rfl (by decide)), rfl⟩
  have hw : WellFormed [.ingredient (.bytes (List.replicate 32 1)) (.int 0),
      .ingredient (.bytes (List.replicate 32 2)) (.int 2)] := by
    refine ⟨List.cons_ne_nil _ _, fun r hr => ?_, fun r hr => ?_, fun i r v hr hv => ?_, by simp⟩
    · obtain ⟨bs, he, -⟩ := hshape r hr
      exact ⟨bs, he⟩
    · obtain ⟨-, -, hk⟩ := hshape r hr
      rw [hk]
      rfl
    · obtain ⟨-, -, hk⟩ := hshape r (List.mem_of_getElem? hr)
      exact absurd (Leaf.isIndexed_of_index? hk hv) (by decide)
  obtain ⟨haccept, -, -, -, -, hbuilt⟩ := ofRecords_outcome {} _
  obtain ⟨d, hd⟩ := haccept.mpr hw
  obtain ⟨hsize, -, hentries⟩ := hbuilt d hd
  obtain ⟨entry, -, -, -, -, -, hverify⟩ := hentries 1 _ rfl
  exact ⟨d, hd, hsize, hverify⟩

/-- One transfer with an amount of 5001 digits: the list is refused, and with no encoding error. -/
theorem ofRecords_of_long_amount :
    ofRecords {} [.transfer (.int 0) (.bytes (List.replicate 32 1)) (.bytes (List.replicate 32 2))
      (.int (10 ^ 5000 : Nat))] = .error (.value .tooLongToWrite) ∧
    (Error.value .tooLongToWrite).kind = "ValueError" := by
  have hlong : Radix.isLong (10 ^ 5000 : Nat) = true := Radix.isLong_ten_pow (k := 5000) (by decide)
  generalize ((10 ^ 5000 : Nat) : Int) = amount at hlong ⊢
  refine ⟨ofRecords_of_firstOffence {} (i := 0) ⟨.encoding rfl ?_, fun j hj => absurd hj (Nat.not_lt_zero j)⟩, rfl⟩
  rw [Leaf.encode, Leaf.encodeNat_of_isLong hlong (by decide)]
  rfl

end Airdrop.Distribution
