import Airdrop.Proofs.Address
import Airdrop.Proofs.Distribution.Offence
import Airdrop.Proofs.Distribution.Reissue

/-!
# What rows are assigned

Rows are prepared one after the other: each gets the next position, its PIN and its record. A source of PINs is only
asked for rows that lack one, so a second run over the prepared rows asks for none and repeats the first one. What was
prepared can be refused for one reason only: a number that does not fit into its field.

* `stateAfter`, `call` : a source of PINs after some calls, and what a call gives. `lacking` : how many calls rows need.
* `Prepares.pin_eq`, `Prepares.state_eq` : the PIN of every row, and how often the source was called.
* `Assigned` : the record of a row at its position (`assigned_of_recordOf`).
* `Oversized` : a number of a row does not fit. `Prepares.encode_eq_error_iff`, `Prepares.offence_iff` : nothing else is
  wrong with the records.
* `prepare_assigns` : what a run of the preparation gives.
-/

namespace Airdrop.Claim

open Outcome
open Airdrop.Distribution (ofRecords Offence)

variable {σ : Type} {draw : StateM σ Int} {integration : String} {target program : Bytes} {viaWallets : Bool}
  {index : Nat} {rows : List Claimant} {s s' t : σ} {prepared : List (Claimant × Leaf)} {kind : Kind}

/-! ## Sources of PINs -/

def stateAfter (draw : StateM σ Int) (calls : Nat) (s : σ) : σ := (fun t => (draw.run t).2)^[calls] s

def call (draw : StateM σ Int) (calls : Nat) (s : σ) : Int := (draw.run (stateAfter draw calls s)).1

theorem stateAfter_add (m n : Nat) (s : σ) :
    stateAfter draw (m + n) s = stateAfter draw n (stateAfter draw m s) := by
  rw [stateAfter, Nat.add_comm, Function.iterate_add_apply]
  rfl

theorem call_stateAfter (m n : Nat) (s : σ) : call draw n (stateAfter draw m s) = call draw (m + n) s := by
  rw [call, call, stateAfter_add]

/-- The number of rows that a PIN is drawn for. -/
def lacking (viaWallets : Bool) (rows : List Claimant) : Nat := rows.countP fun row => !viaWallets && row.pin.isNone

theorem lacking_cons (own : Claimant) (rows : List Claimant) :
    lacking viaWallets (own :: rows) = lacking viaWallets [own] + lacking viaWallets rows := by
  rw [← List.singleton_append, lacking, List.countP_append]
  rfl

/-- The PIN of the row at a position: none for a wallet, else its own, else the one of the call after those for the rows
before it. -/
def assignedPin (draw : StateM σ Int) (viaWallets : Bool) (rows : List Claimant) (s : σ) (i : Nat) (own : Claimant) :
    Option Int :=
  if viaWallets then none else some (own.pin.getD (call draw (lacking viaWallets (rows.take i)) s))

theorem run_pinOf {own : Claimant} {pin : Option Int} (h : (pinOf draw viaWallets own).run s = (pin, t)) :
    pin = assignedPin draw viaWallets [] s 0 own ∧ t = stateAfter draw (lacking viaWallets [own]) s := by
  cases viaWallets with
  | true =>
    obtain ⟨rfl, rfl⟩ := Prod.mk.inj h
    exact ⟨rfl, rfl⟩
  | false =>
    cases hown : own.pin with
    | some n =>
      rw [pinOf, hown] at h
      obtain ⟨rfl, rfl⟩ := Prod.mk.inj h
      simp [assignedPin, lacking, hown, stateAfter]
    | none =>
      rw [pinOf, hown] at h
      obtain ⟨rfl, rfl⟩ := Prod.mk.inj h
      simp [assignedPin, lacking, hown, stateAfter, call, StateT.run]

theorem Prepares.pin_eq (h : Prepares draw integration target program viaWallets index rows s prepared s') :
    ∀ (i : Nat) (own row : Claimant) (l : Leaf), rows[i]? = some own → prepared[i]? = some (row, l) →
      row.pin = assignedPin draw viaWallets rows s i own := by
  induction h with
  | nil => exact fun i own row l hat => nomatch hat
  | @cons index own' rows s t s' pin l' more hpin hrecord hmore ih =>
    obtain ⟨hown', rfl⟩ := run_pinOf hpin
    intro i own row l hown hat
    cases i with
    | zero =>
      obtain rfl := Option.some.inj hown
      obtain ⟨rfl, -⟩ := Prod.mk.inj (Option.some.inj hat)
      exact hown'
    | succ i =>
      rw [ih i own row l hown hat, assignedPin, assignedPin, call_stateAfter, List.take_succ_cons, ← lacking_cons]

theorem Prepares.state_eq (h : Prepares draw integration target program viaWallets index rows s prepared s') :
    s' = stateAfter draw (lacking viaWallets rows) s := by
  induction h with
  | nil => rfl
  | cons hpin _ _ ih =>
    obtain ⟨-, rfl⟩ := run_pinOf hpin
    rw [ih, ← stateAfter_add, ← lacking_cons]

/-- A second run over the prepared rows repeats the first one, without a call. -/
theorem Prepares.repeats {σ' : Type} {draw' : StateM σ' Int} {u : σ'}
    (h : Prepares draw integration target program viaWallets index rows s prepared s') :
    Prepares draw' integration target program viaWallets index (prepared.map (·.1)) u prepared u := by
  have hagain : Prepares draw' integration target program viaWallets index (prepared.map (·.1)) u
      ((prepared.map (·.1)).zip (prepared.map (·.2))) u := by
    apply h.again
    rw [List.map_map]
    rfl
  rwa [List.zip_map', List.map_id''] at hagain
  exact fun _ => rfl

/-! ## Records -/

/-- The record of a row at a position is of the requested kind and holds the position, the target, what the row is to
get, and a key: the wallet that the handle writes, or the pseudo-address of the handle and the PIN. -/
def Assigned (kind : Kind) (target program : Bytes) (viaWallets : Bool) (i : Nat) (row : Claimant) (l : Leaf) : Prop :=
  ∃ claimant,
    (if viaWallets then Key.parse row.handle.toValue "wallet handle" = .ok claimant
      else ∃ name pin, row.handle = .whole name ∧ row.pin = some pin ∧
        Address.pseudo (.bytes target) (.text name) (.int pin) (.bytes program) = .ok claimant) ∧
    Describes (.int i) (.bytes claimant) (.bytes target) (.int row.amount) (Value.ofOption .int row.edition) kind l

theorem assigned_of_recordOf {row : Claimant} {l : Leaf} (hkind : integration? integration = some kind)
    (hrecord : recordOf integration target program index row = .ok l)
    (hpin : if viaWallets then row.pin = none else ∃ pin, row.pin = some pin) :
    Assigned kind target program viaWallets index row l := by
  obtain ⟨claimant, own, hclaimant, hown, hdesc⟩ := recordOf_eq_ok_iff.mp hrecord
  obtain rfl := Option.some.inj (hkind.symm.trans hown)
  refine ⟨claimant, ?_, hdesc⟩
  cases viaWallets with
  | true =>
    replace hpin : row.pin = none := hpin
    rw [hpin] at hclaimant
    exact mapError_eq_ok.mp hclaimant
  | false =>
    obtain ⟨pin, hpin⟩ := hpin
    obtain ⟨name, hname⟩ := exists_of_resolve hclaimant
    rw [hpin, hname] at hclaimant
    exact ⟨name, pin, hname, hpin, hclaimant⟩

/-- A record that was assigned holds a position, two keys and the numbers of its row. -/
theorem Assigned.exists_claimant {i : Nat} {row : Claimant} {l : Leaf}
    (h : Assigned kind target program viaWallets i row l) : ∃ claimant : Bytes, claimant.length = 32 ∧
      Describes (.int i) (.bytes claimant) (.bytes target) (.int row.amount) (Value.ofOption .int row.edition) kind
        l := by
  obtain ⟨claimant, hclaimant, hdesc⟩ := h
  refine ⟨claimant, ?_, hdesc⟩
  cases viaWallets with
  | true => exact Key.length_of_parse hclaimant
  | false =>
    obtain ⟨_, _, -, -, hpseudo⟩ := hclaimant
    exact Address.length_of_pseudo hpseudo

/-- Every row of a run that succeeds keeps its fields but the PIN, and has its record. -/
theorem Prepares.assigned (h : Prepares draw integration target program viaWallets 0 rows s prepared s')
    (hkind : integration? integration = some kind) {i : Nat} {own : Claimant} (hown : rows[i]? = some own) :
    ∃ l, prepared[i]? = some ({ own with pin := assignedPin draw viaWallets rows s i own }, l) ∧
      Assigned kind target program viaWallets i { own with pin := assignedPin draw viaWallets rows s i own } l := by
  obtain ⟨hi, -⟩ := List.getElem?_eq_some_iff.mp hown
  rw [← h.length_eq] at hi
  obtain ⟨⟨row, l⟩, hat⟩ : ∃ x, prepared[i]? = some x := ⟨_, List.getElem?_eq_getElem hi⟩
  obtain ⟨⟨own', hown', hkeeps⟩, hrecord⟩ := h.of_getElem? i row l hat
  obtain rfl := Option.some.inj (hown.symm.trans hown')
  rw [h.pin_eq i own row l hown hat] at hkeeps
  subst hkeeps
  rw [Nat.zero_add] at hrecord
  refine ⟨l, hat, assigned_of_recordOf hkind hrecord ?_⟩
  cases viaWallets with
  | true => rfl
  | false => exact ⟨_, rfl⟩

/-! ## Numbers that do not fit -/

/-- What a number that does not fit is refused with. A number that is too long does not fit into the message either. -/
def misfit (field : String) (n : Int) : Error :=
  if Radix.isLong n then .value .tooLongToWrite else .encoding (.doesNotFit field 64 n)

/-- A number of a row does not fit into its field. The amount is looked at first; only edition claims hold an
edition. -/
inductive Oversized (kind : Kind) (row : Claimant) : Error → Prop
  | amount (h : 2 ^ 64 ≤ row.amount) : Oversized kind row (misfit "amount" row.amount)
  | edition {n : Int} (hkind : kind = .edition) (hamount : row.amount < 2 ^ 64) (hn : row.edition = some n)
      (h : 2 ^ 64 ≤ n) : Oversized kind row (misfit "edition" n)

theorem encodeNat_eq_error_iff {n : Int} {field : String} {e : Error} (h0 : 0 ≤ n) :
    Leaf.encodeNat (.int n) 8 field = .error e ↔ 2 ^ 64 ≤ n ∧ e = misfit field n := by
  rw [misfit, ← Error.raised_doesNotFit]
  show (if n < 0 ∨ 2 ^ 64 ≤ n then Except.error (Error.raised (.encoding (.doesNotFit field 64 n))) else _) = _ ↔ _
  by_cases hle : 2 ^ 64 ≤ n
  · rw [if_pos (.inr hle), Except.error.injEq, and_iff_right hle, eq_comm]
  · rw [if_neg (not_or.mpr ⟨Int.not_lt.mpr h0, hle⟩)]
    exact iff_of_false (fun hno => nomatch hno) fun hno => hle hno.1

/-- The refusal of the first row with a number that does not fit. -/
def FirstOversized (kind : Kind) (rows : List Claimant) (e : Error) : Prop :=
  ∃ (i : Nat) (own : Claimant), rows[i]? = some own ∧ Oversized kind own e ∧
    ∀ j < i, ∀ other, rows[j]? = some other → ∀ e', ¬Oversized kind other e'

theorem oversized_iff_of_ne {row : Claimant} {e : Error} (hne : kind ≠ .edition) :
    Oversized kind row e ↔ 2 ^ 64 ≤ row.amount ∧ e = misfit "amount" row.amount := by
  constructor
  · rintro (h | ⟨hkind, -, -, -⟩)
    · exact ⟨h, rfl⟩
    · exact absurd hkind hne
  · rintro ⟨h, rfl⟩
    exact .amount h

theorem oversized_edition_iff {row : Claimant} {n : Int} {e : Error} (hn : row.edition = some n) :
    Oversized .edition row e ↔ 2 ^ 64 ≤ row.amount ∧ e = misfit "amount" row.amount ∨
      row.amount < 2 ^ 64 ∧ 2 ^ 64 ≤ n ∧ e = misfit "edition" n := by
  constructor
  · rintro (h | ⟨-, hamount, hm, h⟩)
    · exact .inl ⟨h, rfl⟩
    · obtain rfl := Option.some.inj (hn.symm.trans hm)
      exact .inr ⟨hamount, h, rfl⟩
  · rintro (⟨h, rfl⟩ | ⟨hamount, h, rfl⟩)
    · exact .amount h
    · exact .edition rfl hamount hn h

/-- The fields of a claim before its amount are fine. -/
theorem claimFields_eq_error_iff {i : Nat} {claimant : Bytes} {amount : Int} {name : String}
    {e : Error} {f : Bytes → Except Error Bytes} (hi : i < 2 ^ 64) (hclaimant : claimant.length = 32)
    (htarget : target.length = 32) (ha : 0 ≤ amount) :
    (do
      let index ← Leaf.encodeNat (.int i) 8 "index"
      let claimant ← Leaf.encodeKey (.bytes claimant) "claimant"
      let target ← Leaf.encodeKey (.bytes target) name
      let amount ← Leaf.encodeNat (.int amount) 8 "amount"
      f (index ++ claimant ++ target ++ amount) : Except Error Bytes) = .error e ↔
    2 ^ 64 ≤ amount ∧ e = misfit "amount" amount ∨
      amount < 2 ^ 64 ∧ f (Leaf.claimBytes i claimant target amount.toNat) = .error e := by
  have hindex : Leaf.encodeNat (.int i) 8 "index" = .ok (Bytes.ofNatLE 8 i) :=
    Leaf.encodeNat_eq_ok_iff.mpr ⟨i, rfl, hi, rfl⟩
  have hkey {bs : Bytes} (hbs : bs.length = 32) (field : String) : Leaf.encodeKey (.bytes bs) field = .ok bs :=
    Leaf.encodeKey_eq_ok_iff.mpr ⟨rfl, hbs⟩
  rw [hindex, ok_bind, hkey hclaimant, ok_bind, hkey htarget, ok_bind, bind_eq_error, encodeNat_eq_error_iff ha]
  refine or_congr_right ?_
  obtain ⟨n, rfl⟩ := Int.eq_ofNat_of_zero_le ha
  simp only [Leaf.encodeNat_eq_ok_iff, Value.int.injEq, Int.natCast_inj]
  constructor
  · rintro ⟨_, ⟨_, rfl, hn, rfl⟩, h⟩
    exact ⟨by omega, h⟩
  · rintro ⟨hn, h⟩
    exact ⟨_, ⟨n, rfl, by omega, rfl⟩, h⟩

/-- A record of a valid row is only refused for a number that does not fit. -/
theorem Assigned.encode_eq_error_iff {i : Nat} {row : Claimant} {l : Leaf} {e : Error}
    (h : Assigned kind target program viaWallets i row l) (hi : i < 2 ^ 64) (htarget : target.length = 32)
    (hrow : row.Valid) : l.encode = .error e ↔ Oversized kind row e := by
  obtain ⟨claimant, hclaimant, hdesc⟩ := h.exists_claimant
  cases hdesc with
  | transfer =>
    rw [oversized_iff_of_ne (by decide)]
    exact (claimFields_eq_error_iff (f := pure) hi hclaimant htarget hrow.amount).trans
      (or_iff_left fun hno => nomatch hno.2)
  | candy =>
    rw [oversized_iff_of_ne (by decide)]
    exact (claimFields_eq_error_iff (f := pure) hi hclaimant htarget hrow.amount).trans
      (or_iff_left fun hno => nomatch hno.2)
  | edition he =>
    cases hn : row.edition with
    | none => exact absurd (congrArg (Value.ofOption .int) hn) he
    | some n =>
      rw [oversized_edition_iff hn]
      refine (claimFields_eq_error_iff (f := fun bs => do
        let serial ← Leaf.encodeNat (.int n) 8 "edition"
        return bs ++ serial) hi hclaimant htarget hrow.amount).trans ?_
      refine or_congr_right (and_congr_right fun _ => ?_)
      rw [bind_eq_error, encodeNat_eq_error_iff (hrow.edition n hn)]
      exact or_iff_left fun ⟨_, _, hno⟩ => nomatch hno

theorem oversized_of_pin {own : Claimant} {pin : Option Int} {e : Error} :
    Oversized kind { own with pin } e ↔ Oversized kind own e := by
  constructor
  · rintro (h | ⟨hkind, hamount, hn, h⟩)
    · exact .amount h
    · exact .edition hkind hamount hn h
  · rintro (h | ⟨hkind, hamount, hn, h⟩)
    · exact .amount h
    · exact .edition hkind hamount hn h

theorem forall_not_oversized_iff {own : Claimant} : (∀ e, ¬Oversized kind own e) ↔
    own.amount < 2 ^ 64 ∧ (kind = .edition → ∀ n, own.edition = some n → n < 2 ^ 64) := by
  constructor
  · intro h
    have hamount : own.amount < 2 ^ 64 := Int.not_le.mp fun hle => h _ (.amount hle)
    exact ⟨hamount, fun hkind n hn => Int.not_le.mp fun hle => h _ (.edition hkind hamount hn hle)⟩
  · rintro ⟨hamount, hedition⟩ _ (hle | ⟨hkind, -, hn, hle⟩)
    · exact absurd hamount (Int.not_lt.mpr hle)
    · exact absurd (hedition hkind _ hn) (Int.not_lt.mpr hle)

section
variable (h : Prepares draw integration target program viaWallets 0 rows s prepared s')
  (hkind : integration? integration = some kind) (hrows : ∀ row ∈ rows, row.Valid) (htarget : target.length = 32)
  (hlength : rows.length ≤ 2 ^ 64)

include h hkind in
/-- The record at a position is of the requested kind and carries the position. -/
theorem Prepares.shape {i : Nat} {l : Leaf} (hl : (prepared.map (·.2))[i]? = some l) :
    l.kind = .ok kind ∧ l.index? = some (.int i) := by
  rw [List.getElem?_map, Option.map_eq_some_iff] at hl
  obtain ⟨⟨row, _⟩, hat, rfl⟩ := hl
  obtain ⟨⟨own, hown, -⟩, -⟩ := h.of_getElem? i row _ hat
  obtain ⟨l, hat', hassigned⟩ := h.assigned hkind hown
  obtain ⟨-, rfl⟩ := Prod.mk.inj (Option.some.inj (hat.symm.trans hat'))
  obtain ⟨_, -, hdesc⟩ := hassigned.exists_claimant
  exact ⟨hdesc.kind_eq, hdesc.index?_eq⟩

include h hkind hrows htarget hlength in
theorem Prepares.exists_encode_eq_error_iff {i : Nat} {own : Claimant} (hown : rows[i]? = some own) :
    ∃ l, (prepared.map (·.2))[i]? = some l ∧ ∀ e, l.encode = .error e ↔ Oversized kind own e := by
  obtain ⟨l, hat, hassigned⟩ := h.assigned hkind hown
  have hvalid := h.valid hrows _ (List.mem_of_getElem? hat)
  obtain ⟨hi, -⟩ := List.getElem?_eq_some_iff.mp hown
  refine ⟨l, by rw [List.getElem?_map, hat]; rfl, fun e => ?_⟩
  exact (hassigned.encode_eq_error_iff (Nat.lt_of_lt_of_le hi hlength) htarget hvalid).trans oversized_of_pin

include h hkind hrows htarget hlength in
/-- A record that was prepared is only refused for a number of its row that does not fit. -/
theorem Prepares.offence_iff {i : Nat} {e : Error} : Offence (prepared.map (·.2)) i e ↔
    ∃ own, rows[i]? = some own ∧ Oversized kind own e := by
  have hencode {i : Nat} {own : Claimant} (hown : rows[i]? = some own) :=
    h.exists_encode_eq_error_iff hkind hrows htarget hlength hown
  constructor
  · intro ho
    obtain ⟨l, hl⟩ := ho.exists_record
    obtain ⟨hi, -⟩ := List.getElem?_eq_some_iff.mp hl
    rw [List.length_map, h.length_eq] at hi
    obtain ⟨l', hl', hencode⟩ := hencode (List.getElem?_eq_getElem hi)
    obtain ⟨hk, hindex⟩ := h.shape hkind hl
    -- the kinds and the positions are those that the preparation gave, so only an encoding can fail
    cases ho with
    | encoding hr he =>
      obtain rfl := Option.some.inj (hl'.symm.trans hr)
      exact ⟨_, List.getElem?_eq_getElem hi, (hencode _).mp he⟩
    | mixed hr _ hown hfirst hne =>
      obtain rfl := Option.some.inj (hl.symm.trans hr)
      obtain ⟨first, hhead, hfirst⟩ := Option.bind_eq_some_iff.mp hfirst
      rw [List.head?_eq_getElem?] at hhead
      rw [(h.shape hkind hhead).1] at hfirst
      exact absurd (Except.ok.inj (hown.symm.trans hk)) (Option.some.inj hfirst ▸ hne)
    | misplaced hr _ _ hn hne =>
      obtain rfl := Option.some.inj (hl.symm.trans hr)
      exact absurd (Value.int.inj (Option.some.inj (hn.symm.trans hindex))) hne
    | duplicate hr _ _ _ hj hrj =>
      obtain rfl := Option.some.inj (hl.symm.trans hr)
      have hsame := Value.int.inj (Option.some.inj ((h.shape hkind hrj).2.symm.trans hindex))
      exact absurd (Int.ofNat_inj.mp hsame) (Nat.ne_of_lt hj)
  · rintro ⟨own, hown, hover⟩
    obtain ⟨l, hl, hencode⟩ := hencode hown
    exact .encoding hl ((hencode e).mpr hover)

include h hkind hrows htarget hlength in
/-- A list of prepared records is refused if it is empty, and for the first row with a number that does not fit. -/
theorem Prepares.ofRecords_eq_error_iff {hasher : Hasher} {e : Error} :
    ofRecords hasher (prepared.map (·.2)) = .error e ↔ rows = [] ∧ e = .noRecords ∨ FirstOversized kind rows e := by
  have hnil : prepared.map (·.2) = [] ↔ rows = [] := by
    rw [List.map_eq_nil_iff, ← List.length_eq_zero_iff, h.length_eq, List.length_eq_zero_iff]
  rw [Distribution.ofRecords_eq_error_iff, hnil, FirstOversized]
  refine or_congr_right (exists_congr fun i => ?_)
  simp only [Distribution.FirstOffence, h.offence_iff hkind hrows htarget hlength]
  constructor
  · rintro ⟨⟨own, hown, hover⟩, hfirst⟩
    exact ⟨own, hown, hover, fun j hj other hother e' hover' => hfirst j hj e' ⟨other, hother, hover'⟩⟩
  · rintro ⟨own, hown, hover, hfirst⟩
    refine ⟨⟨own, hown, hover⟩, ?_⟩
    rintro j hj e' ⟨other, hother, hover'⟩
    exact hfirst j hj other hother e' hover'

include h hkind hrows htarget hlength in
theorem Prepares.exists_ofRecords_iff {hasher : Hasher} : (∃ d, ofRecords hasher (prepared.map (·.2)) = .ok d) ↔
    rows ≠ [] ∧ ∀ own ∈ rows, own.amount < 2 ^ 64 ∧ (kind = .edition → ∀ n, own.edition = some n → n < 2 ^ 64) := by
  simp only [← forall_not_oversized_iff]
  constructor
  · intro hd
    have hw := Distribution.exists_ofRecords_iff.mp hd
    refine ⟨fun hno => hw.nonempty ?_, fun own hown e hover => ?_⟩
    · rw [List.map_eq_nil_iff, ← List.length_eq_zero_iff, h.length_eq, hno, List.length_nil]
    · obtain ⟨i, hi⟩ := List.getElem?_of_mem hown
      have ho := (h.offence_iff hkind hrows htarget hlength).mpr ⟨own, hi, hover⟩
      obtain ⟨l, hl⟩ := ho.exists_record
      have hproper := (Distribution.wellFormed_iff.mp hw).2
      exact hproper.no_offence (List.getElem?_eq_some_iff.mp hl).1 ho
  · rintro ⟨hne, hfit⟩
    cases hrun : ofRecords hasher (prepared.map (·.2)) with
    | ok d => exact ⟨d, rfl⟩
    | error e =>
      rcases (h.ofRecords_eq_error_iff hkind hrows htarget hlength).mp hrun with ⟨hno, -⟩ | ⟨i, own, hown, hover, -⟩
      · exact absurd hno hne
      · exact absurd hover (hfit own (List.mem_of_getElem? hown) e)

end

/-- **What preparing a list gives.** A run that succeeds gives every row its position, its PIN and its record: no PIN if
wallets are paid, else the row's own or that of the next call of the source, which is called once for each row that
lacks one, in their order, and not otherwise. A second run over the prepared rows, with any source, gives the same rows
and records without a call. The records make a distribution unless there are none or a number does not fit into 64 bits;
they are never refused as repeated, misplaced or mixed. Where the number has too many digits for the message, the error
is that one instead. -/
theorem prepare_assigns {targetKey programKey : Value} (hrows : ∀ row ∈ rows, row.Valid)
    (hprepare : (prepare draw integration targetKey programKey viaWallets rows).run.run s = (.ok prepared, s')) :
    ∃ (kind : Kind) (target program : Bytes), integration = kind.name ∧ kind.isIndexed = true ∧
      Key.parse targetKey "target" = .ok target ∧ Key.parse programKey "program_id" = .ok program ∧
      prepared.length = rows.length ∧
      (∀ (i : Nat) (own : Claimant), rows[i]? = some own → ∃ l,
        prepared[i]? = some ({ own with pin := assignedPin draw viaWallets rows s i own }, l) ∧
        Assigned kind target program viaWallets i { own with pin := assignedPin draw viaWallets rows s i own } l) ∧
      s' = stateAfter draw (lacking viaWallets rows) s ∧
      (∀ (σ' : Type) (draw' : StateM σ' Int) (u : σ'),
        (prepare draw' integration targetKey programKey viaWallets (prepared.map (·.1))).run.run u =
          (.ok prepared, u)) ∧
      (rows.length ≤ 2 ^ 64 → ∀ hasher : Hasher,
        ((∃ d, ofRecords hasher (prepared.map (·.2)) = .ok d) ↔ rows ≠ [] ∧
          ∀ own ∈ rows, own.amount < 2 ^ 64 ∧ (kind = .edition → ∀ n, own.edition = some n → n < 2 ^ 64)) ∧
        ∀ e, ofRecords hasher (prepared.map (·.2)) = .error e ↔
          rows = [] ∧ e = .noRecords ∨ FirstOversized kind rows e) := by
  obtain ⟨hsome, target, program, htarget, hprogram, h⟩ := prepare_eq_ok_iff.mp hprepare
  obtain ⟨kind, hkind⟩ := Option.isSome_iff_exists.mp hsome
  obtain ⟨hindexed, hname⟩ := integration?_eq_some_iff.mp hkind
  have hwidth := Key.length_of_parse htarget
  refine ⟨kind, target, program, hname, hindexed, htarget, hprogram, h.length_eq, fun i own => h.assigned hkind,
    h.state_eq, fun σ' draw' u => ?_, fun hlength hasher => ⟨?_, fun e => ?_⟩⟩
  · exact prepare_eq_ok_iff.mpr ⟨hsome, target, program, htarget, hprogram, h.repeats⟩
  · exact h.exists_ofRecords_iff hkind hrows hwidth hlength
  · exact h.ofRecords_eq_error_iff hkind hrows hwidth hlength

/-- Of three contacts the second one has a PIN. The others get the next two from a source that counts, and the records
make a distribution. -/
theorem prepare_assigns_three :
    ∃ prepared d,
      (prepare (m := StateM Int) (fun n => (n, n + 1)) "edition" (.bytes (List.replicate 32 1))
        (.bytes (List.replicate 32 2)) false
        [{ handle := "a", amount := 3, edition := some 4 },
          { handle := "b", amount := 1, edition := some 6, pin := some 9 },
          { handle := "c", amount := 0, edition := some 5 }]).run.run 5 = (.ok prepared, 7) ∧
      prepared.map (fun x => x.1.pin) = [some 5, some 9, some 6] ∧ ofRecords {} (prepared.map (·.2)) = .ok d := by
  have hrun : ((prepare (m := StateM Int) (fun n => (n, n + 1)) "edition" (.bytes (List.replicate 32 1))
      (.bytes (List.replicate 32 2)) false
      [{ handle := "a", amount := 3, edition := some 4 },
        { handle := "b", amount := 1, edition := some 6, pin := some 9 },
        { handle := "c", amount := 0, edition := some 5 }]).run.run 5).1.toOption.map
      (fun prepared => prepared.map (fun x => x.1.pin)) = some [some 5, some 9, some 6] := by
    decide +kernel
  obtain ⟨prepared, s', hprepare, hpins⟩ := fst_toOption_map_eq_some.mp hrun
  obtain ⟨kind, _, _, -, -, -, -, -, -, rfl, -, hrecords⟩ := prepare_assigns (by
    simp only [List.forall_mem_cons]
    refine ⟨⟨by decide, by decide, by simp, by simp⟩, ⟨by decide, by decide, by simp, by simp [pinBound]⟩,
      ⟨by decide, by decide, by simp, by simp⟩, fun _ hno => nomatch hno⟩) hprepare
  obtain ⟨d, hd⟩ := (hrecords (by decide) {}).1.mpr ⟨List.cons_ne_nil _ _, by simp⟩
  exact ⟨prepared, d, hprepare, hpins, hd⟩

end Airdrop.Claim
