import Airdrop.Distribution.Prepare
import Airdrop.Proofs.Claim.Record

/-!
# How rows become records

* `Prepares` : one row after the other gets its PIN, then its record at its position. `prepareFrom_eq_ok_iff`,
  `prepare_eq_ok_iff` : a run that succeeds does exactly this, for any source of PINs and any state of it.
* `Prepares.of_getElem?` : each row and its record.
-/

namespace Airdrop.Claim

open Outcome

variable {σ : Type} {draw : StateM σ Int} {integration : String} {target program : Bytes} {viaWallets : Bool}
  {index : Nat} {rows : List Claimant} {s s' : σ} {prepared : List (Claimant × Leaf)}

theorem recordOf_eq_ok_iff {row : Claimant} {l : Leaf} :
    recordOf integration target program index row = .ok l ↔ ∃ (claimant : Bytes) (kind : Kind),
      resolve row.handle.toValue (Value.ofOption .int row.pin) (.bytes target) (.bytes program) = .ok claimant ∧
      integration? integration = some kind ∧
      Describes (.int index) (.bytes claimant) (.bytes target) (.int row.amount) (Value.ofOption .int row.edition) kind
        l := by
  unfold recordOf
  simp only [bind_eq_ok, record_eq_ok_iff]
  exact ⟨fun ⟨claimant, hc, kind, hk⟩ => ⟨claimant, kind, hc, hk⟩,
    fun ⟨claimant, kind, hc, hk⟩ => ⟨claimant, hc, kind, hk⟩⟩

theorem run_pinOf_eq_ok {row : Claimant} {pin : Option Int} :
    (pinOf (liftM draw : ExceptT Error (StateM σ) Int) viaWallets row).run.run s = (.ok pin, s') ↔
      (pinOf draw viaWallets row).run s = (pin, s') := by
  have hstep (r : Option Int × σ) :
      ((.ok r.1, r.2) : Except Error (Option Int) × σ) = (.ok pin, s') ↔ r = (pin, s') := by
    rw [Prod.mk.injEq, Except.ok.injEq, ← Prod.mk.injEq]
  unfold pinOf
  cases viaWallets with
  | true => exact hstep (none, s)
  | false =>
    cases row.pin with
    | some pin => exact hstep (some pin, s)
    | none => exact hstep (some (draw.run s).1, (draw.run s).2)

/-- The rows from a position on, with the PINs that a source gives them from a state of it, and their records. -/
inductive Prepares (draw : StateM σ Int) (integration : String) (target program : Bytes) (viaWallets : Bool) :
    (index : Nat) → List Claimant → σ → List (Claimant × Leaf) → σ → Prop
  | nil {index : Nat} {s : σ} : Prepares draw integration target program viaWallets index [] s [] s
  | cons {index : Nat} {row : Claimant} {rows : List Claimant} {s t s' : σ} {pin : Option Int} {l : Leaf}
      {more : List (Claimant × Leaf)} (hpin : (pinOf draw viaWallets row).run s = (pin, t))
      (hrecord : recordOf integration target program index { row with pin } = .ok l)
      (hmore : Prepares draw integration target program viaWallets (index + 1) rows t more s') :
      Prepares draw integration target program viaWallets index (row :: rows) s (({ row with pin }, l) :: more) s'

theorem prepareFrom_eq_ok_iff :
    (prepareFrom draw integration target program viaWallets index rows).run.run s = (.ok prepared, s') ↔
      Prepares draw integration target program viaWallets index rows s prepared s' := by
  induction rows generalizing index s prepared with
  | nil =>
    rw [prepareFrom, run_pure_eq_ok]
    constructor
    · rintro ⟨rfl, rfl⟩
      exact Prepares.nil
    · rintro ⟨⟩
      exact ⟨rfl, rfl⟩
  | cons row rows ih =>
    rw [prepareFrom]
    simp only [run_bind_eq_ok, prepareFrom.liftExcept, run_mk_pure_eq_ok, run_pure_eq_ok]
    constructor
    · rintro ⟨pin, t, hpin, l, u, ⟨hrecord, rfl⟩, more, v, hmore, rfl, rfl⟩
      exact Prepares.cons (run_pinOf_eq_ok.mp hpin) hrecord (ih.mp hmore)
    · intro h
      cases h with
      | @cons _ _ _ _ t _ pin l more hpin hrecord hmore =>
        exact ⟨pin, t, run_pinOf_eq_ok.mpr hpin, l, t, ⟨hrecord, rfl⟩, more, s', ih.mpr hmore, rfl, rfl⟩

theorem prepare_eq_ok_iff {targetKey programKey : Value} :
    (prepare draw integration targetKey programKey viaWallets rows).run.run s = (.ok prepared, s') ↔
      (integration? integration).isSome ∧ ∃ target program, Key.parse targetKey "target" = .ok target ∧
        Key.parse programKey "program_id" = .ok program ∧
        Prepares draw integration target program viaWallets 0 rows s prepared s' := by
  unfold prepare
  rw [run_bind_eq_ok]
  simp only [run_mk_pure_eq_ok, prepareFrom_eq_ok_iff]
  cases integration? integration with
  | none => simp [error_bind]
  | some kind =>
    rw [if_neg (by simp), Option.isSome_some, and_iff_right rfl]
    simp only [bind_eq_ok, mapError_eq_ok]
    constructor
    · rintro ⟨⟨target, program⟩, _, ⟨⟨_, htarget, _, hprogram, ⟨⟩⟩, rfl⟩, h⟩
      exact ⟨target, program, htarget, hprogram, h⟩
    · rintro ⟨target, program, htarget, hprogram, h⟩
      exact ⟨(target, program), s, ⟨⟨target, htarget, program, hprogram, rfl⟩, rfl⟩, h⟩

/-- Each row keeps its fields but the PIN, and has its record at its position. -/
theorem Prepares.of_getElem? (h : Prepares draw integration target program viaWallets index rows s prepared s') :
    ∀ (i : Nat) (row : Claimant) (l : Leaf), prepared[i]? = some (row, l) →
      (∃ own, rows[i]? = some own ∧ row = { own with pin := row.pin }) ∧
      recordOf integration target program (index + i) row = .ok l := by
  induction h with
  | nil => exact fun i row l hat => nomatch hat
  | @cons index own rows s t s' pin l' more hpin hrecord hmore ih =>
    intro i row l hat
    cases i with
    | zero =>
      obtain ⟨rfl, rfl⟩ := Prod.mk.inj (Option.some.inj hat)
      exact ⟨⟨own, rfl, rfl⟩, hrecord⟩
    | succ i =>
      obtain ⟨hown, hrecord'⟩ := ih i row l hat
      exact ⟨hown, by rwa [Nat.add_right_comm] at hrecord'⟩

theorem Prepares.length_eq (h : Prepares draw integration target program viaWallets index rows s prepared s') :
    prepared.length = rows.length := by
  induction h with
  | nil => rfl
  | cons _ _ _ ih => rw [List.length_cons, List.length_cons, ih]

end Airdrop.Claim
