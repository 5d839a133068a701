import Mathlib.Order.Bounds.Defs
import Airdrop.Address
import Airdrop.Proofs.Outcome

/-!
# The search for a program address

* `viable seeds program count` : the bumps below `count` whose candidates are off the curve.
* `search_eq_some_iff`, `search_eq_none_iff` : the search ends at the greatest of them, or there is none.
* `checkSeeds_eq_ok_iff`, `find_eq_ok_iff` : which seeds have a program address, and which bump it has.
* `checkSeeds_eq_error_iff`, `find_eq_error_iff` : `Missing` seeds have none.
* `find_exact` : what a search returns, for all seeds and programs.
-/

namespace Airdrop.Address

open Outcome

variable {seeds : List Bytes} {program key : Bytes} {count bump : Nat}

/-- The bumps below a bound whose candidates are off the curve. -/
def viable (seeds : List Bytes) (program : Bytes) (count : Nat) : Set Nat :=
  {bump | bump < count ∧ isOnCurve (candidate seeds bump program) = false}

theorem viable_succ (hon : isOnCurve (candidate seeds count program) = true) :
    viable seeds program (count + 1) = viable seeds program count := by
  ext bump
  constructor
  · rintro ⟨hlt, hoff⟩
    rcases Nat.lt_succ_iff_lt_or_eq.mp hlt with hlt | rfl
    · exact ⟨hlt, hoff⟩
    · exact absurd (hon.symm.trans hoff) (by decide)
  · rintro ⟨hlt, hoff⟩
    exact ⟨Nat.lt_succ_of_lt hlt, hoff⟩

theorem isGreatest_viable_succ (hoff : isOnCurve (candidate seeds count program) = false) :
    IsGreatest (viable seeds program (count + 1)) bump ↔ bump = count := by
  constructor
  · rintro ⟨⟨hlt, -⟩, hgreatest⟩
    have hle : count ≤ bump := hgreatest ⟨Nat.lt_succ_self count, hoff⟩
    omega
  · rintro rfl
    exact ⟨⟨Nat.lt_succ_self bump, hoff⟩, fun b hb => Nat.le_of_lt_succ hb.1⟩

/-- The search ends at the greatest bump whose candidate is off the curve. -/
theorem search_eq_some_iff : search seeds program count = some (key, bump) ↔
    IsGreatest (viable seeds program count) bump ∧ candidate seeds bump program = key := by
  induction count with
  | zero => exact ⟨fun hno => (nomatch hno), fun ⟨⟨⟨hno, _⟩, _⟩, _⟩ => absurd hno (Nat.not_lt_zero bump)⟩
  | succ count ih =>
    rw [search]
    cases hcurve : isOnCurve (candidate seeds count program) with
    | true => rw [viable_succ hcurve, ← ih, if_pos rfl]
    | false =>
      rw [isGreatest_viable_succ hcurve, if_neg Bool.false_ne_true, Option.some.injEq, Prod.mk.injEq]
      constructor
      · rintro ⟨hkey, rfl⟩
        exact ⟨rfl, hkey⟩
      · rintro ⟨rfl, hkey⟩
        exact ⟨hkey, rfl⟩

theorem search_eq_none_iff : search seeds program count = none ↔
    ∀ bump < count, isOnCurve (candidate seeds bump program) = true := by
  induction count with
  | zero => exact ⟨fun _ bump hno => absurd hno (Nat.not_lt_zero bump), fun _ => rfl⟩
  | succ count ih =>
    rw [search]
    cases hcurve : isOnCurve (candidate seeds count program) with
    | true =>
      rw [if_pos rfl, ih]
      refine ⟨fun hall bump hlt => ?_, fun hall bump hlt => hall bump (Nat.lt_succ_of_lt hlt)⟩
      rcases Nat.lt_succ_iff_lt_or_eq.mp hlt with hlt | rfl
      · exact hall bump hlt
      · exact hcurve
    | false =>
      rw [if_neg Bool.false_ne_true]
      refine ⟨fun hno => (nomatch hno), fun hall => ?_⟩
      exact absurd ((hall count (Nat.lt_succ_self count)).symm.trans hcurve) (by decide)

/-- The bump is no long seed. -/
theorem any_long_iff :
    ((seeds ++ [[0xFF]]).any fun s => maxSeedLength < s.length) = true ↔ ∃ s ∈ seeds, 32 < s.length := by
  rw [List.any_append, Bool.or_eq_true, List.any_eq_true]
  constructor
  · rintro (⟨s, hs, hlt⟩ | hno)
    · exact ⟨s, hs, of_decide_eq_true hlt⟩
    · exact absurd hno (by decide)
  · rintro ⟨s, hs, hlt⟩
    exact .inl ⟨s, hs, decide_eq_true hlt⟩

/-- At most fifteen seeds leave room for the bump. -/
theorem checkSeeds_eq_ok_iff :
    checkSeeds (seeds ++ [[0xFF]]) = .ok () ↔ seeds.length ≤ 15 ∧ ∀ s ∈ seeds, s.length ≤ 32 := by
  rw [checkSeeds, ite_error_eq_ok, ite_error_eq_ok, and_iff_left rfl, List.length_append, Nat.not_lt, any_long_iff]
  refine and_congr (Nat.add_le_add_iff_right (n := 1)) ?_
  simp only [not_exists, not_and, Nat.not_lt]

theorem find_eq_ok_iff : find seeds program = .ok (key, bump) ↔
    seeds.length ≤ 15 ∧ (∀ s ∈ seeds, s.length ≤ 32) ∧ IsGreatest (viable seeds program 256) bump ∧
      candidate seeds bump program = key := by
  rw [← search_eq_some_iff, ← and_assoc, ← checkSeeds_eq_ok_iff, find, bind_eq_ok]
  constructor
  · rintro ⟨_, hcheck, h⟩
    refine ⟨hcheck, ?_⟩
    split at h
    · next hsearch => rw [hsearch, Except.ok.inj h]
    · exact nomatch h
  · rintro ⟨hcheck, hsearch⟩
    exact ⟨(), hcheck, by rw [hsearch]⟩

/-! ## Seeds without an address -/

/-- What is wrong with the seeds of a program address. -/
inductive Unfit (seeds : List Bytes) : EncodingFault → Prop
  | tooMany (h : 15 < seeds.length) : Unfit seeds (.tooManySeeds (seeds.length + 1))
  | tooLong (hnumber : seeds.length ≤ 15) (h : ∃ s ∈ seeds, 32 < s.length) : Unfit seeds .seedTooLong

/-- Why seeds have no program address. -/
inductive Missing (seeds : List Bytes) (program : Bytes) : EncodingFault → Prop
  | unfit {fault : EncodingFault} (h : Unfit seeds fault) : Missing seeds program fault
  | onCurve (hnumber : seeds.length ≤ 15) (hlength : ∀ s ∈ seeds, s.length ≤ 32)
      (h : ∀ bump < 256, isOnCurve (candidate seeds bump program) = true) : Missing seeds program .noBump

variable {fault : EncodingFault}

theorem checkSeeds_eq_error_iff : checkSeeds (seeds ++ [[0xFF]]) = .error fault ↔ Unfit seeds fault := by
  have hnumber : maxSeeds < (seeds ++ [[0xFF]]).length ↔ 15 < seeds.length := by
    rw [List.length_append]
    exact Nat.add_lt_add_iff_right (n := 15) (k := 1)
  constructor
  · intro h
    unfold checkSeeds at h
    split at h
    · next hmany =>
      rw [← Except.error.inj h, List.length_append]
      exact .tooMany (hnumber.mp hmany)
    · next hfew =>
      split at h
      · next hlong =>
        rw [← Except.error.inj h]
        exact .tooLong (Nat.le_of_not_lt (mt hnumber.mpr hfew)) (any_long_iff.mp hlong)
      · exact nomatch h
  · intro h
    cases h with
    | tooMany hmany => rw [checkSeeds, if_pos (hnumber.mpr hmany), List.length_append]; rfl
    | tooLong hfew hlong =>
      rw [checkSeeds, if_neg (mt hnumber.mp (Nat.not_lt_of_le hfew)), if_pos (any_long_iff.mpr hlong)]

theorem find_eq_error_iff : find seeds program = .error fault ↔ Missing seeds program fault := by
  rw [find, bind_eq_error, checkSeeds_eq_error_iff]
  constructor
  · rintro (hunfit | ⟨_, hcheck, h⟩)
    · exact .unfit hunfit
    · obtain ⟨hnumber, hlength⟩ := checkSeeds_eq_ok_iff.mp hcheck
      split at h
      · exact nomatch h
      · next hsearch =>
        obtain rfl := Except.error.inj h
        exact .onCurve hnumber hlength (search_eq_none_iff.mp hsearch)
  · rintro (hunfit | ⟨hnumber, hlength, hall⟩)
    · exact .inl hunfit
    · exact .inr ⟨(), checkSeeds_eq_ok_iff.mpr ⟨hnumber, hlength⟩, by rw [search_eq_none_iff.mpr hall]⟩

/-- **What a search for a program address returns.** At most fifteen seeds of at most 32 bytes have the digest at the
greatest bump off the curve, if there is one. All others are refused with an encoding error that tells which of the
bounds is exceeded, or that all 256 candidates are on the curve. An address that is returned is off the curve, and the
candidates of all greater bumps are on it. -/
theorem find_exact (seeds : List Bytes) (program : Bytes) :
    (∀ key bump, find seeds program = .ok (key, bump) ↔
      (seeds.length ≤ 15 ∧ ∀ s ∈ seeds, s.length ≤ 32) ∧
      IsGreatest {b | b < 256 ∧ isOnCurve (Sha256.hash (seeds.flatten ++ [UInt8.ofNat b] ++ program ++
        Utf8.ofText "ProgramDerivedAddress")) = false} bump ∧
      Sha256.hash (seeds.flatten ++ [UInt8.ofNat bump] ++ program ++ Utf8.ofText "ProgramDerivedAddress") = key) ∧
    ((∃ found, find seeds program = .ok found) ↔
      (seeds.length ≤ 15 ∧ ∀ s ∈ seeds, s.length ≤ 32) ∧
      ∃ bump < 256, isOnCurve (candidate seeds bump program) = false) ∧
    (∀ fault, find seeds program = .error fault ↔ Missing seeds program fault) ∧
    ∀ key bump, find seeds program = .ok (key, bump) → bump < 256 ∧ isOnCurve key = false ∧
      ∀ b < 256, bump < b → isOnCurve (candidate seeds b program) = true := by
  refine ⟨fun key bump => ?_, ?_, fun fault => find_eq_error_iff, fun key bump h => ?_⟩
  · rw [find_eq_ok_iff, and_assoc]
    rfl
  · cases h : find seeds program with
    | ok found =>
      obtain ⟨hnumber, hlength, ⟨⟨hlt, hoff⟩, -⟩, -⟩ := find_eq_ok_iff.mp h
      exact iff_of_true ⟨found, rfl⟩ ⟨⟨hnumber, hlength⟩, found.2, hlt, hoff⟩
    | error fault =>
      refine iff_of_false (fun ⟨_, hno⟩ => nomatch hno) ?_
      rintro ⟨⟨hnumber, hlength⟩, bump, hlt, hoff⟩
      rcases find_eq_error_iff.mp h with hunfit | ⟨-, -, hall⟩
      · have hcheck := checkSeeds_eq_ok_iff.mpr ⟨hnumber, hlength⟩
        rw [checkSeeds_eq_error_iff.mpr hunfit] at hcheck
        exact nomatch hcheck
      · exact absurd ((hall bump hlt).symm.trans hoff) (by decide)
  · obtain ⟨-, -, ⟨⟨hlt, hoff⟩, hgreatest⟩, rfl⟩ := find_eq_ok_iff.mp h
    refine ⟨hlt, hoff, fun b hb hbump => ?_⟩
    by_contra hcurve
    exact absurd (hgreatest ⟨hb, Bool.eq_false_iff.mpr hcurve⟩) (Nat.not_le_of_lt hbump)

/-- A seed whose first candidate is on the curve. -/
theorem find_exact_eleven : ∃ key, find [[11]] [] = .ok (key, 254) ∧ isOnCurve key = false ∧
    isOnCurve (candidate [[11]] 255 []) = true := by
  have hrun : (find [[11]] []).toOption.map (·.2) = some 254 := by decide +kernel
  obtain ⟨⟨key, bump⟩, hfind, rfl⟩ := toOption_map_eq_some.mp hrun
  obtain ⟨-, hoff, hon⟩ := (find_exact [[11]] []).2.2.2 key 254 hfind
  exact ⟨key, hfind, hoff, hon 255 (by decide) (by decide)⟩

end Airdrop.Address
