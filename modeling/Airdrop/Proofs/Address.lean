import Airdrop.Proofs.Address.Search
import Airdrop.Proofs.Error
import Airdrop.Proofs.Hasher.Collision
import Airdrop.Proofs.Leaf.Layout
import Airdrop.Proofs.Text.Utf8

/-!
# Which inputs a pseudo-address was made of

The candidates of a search are hashed from the seeds put together, the bump, the program and a marker. All of these but
the handle have a fixed width, so the string that is hashed for the candidate found tells everything that was put in.

* `pseudoMessage` : what is hashed for a candidate (`preimage_pseudoSeedsOf`). `pseudoMessage_inj` : it tells the seed,
  the handle, the PIN and the program.
* `pseudo_eq_ok_iff` : a pseudo-address is the candidate where the search ends. `Underivable` : there is none.
* `Unwritable` : a PIN out of range that has too many digits for the message about it (`pseudo_unwritable_iff`).
* `pseudo_binds` : handles and PINs with one pseudo-address are the same, or the strings in `pseudoPreimages` collide.
* `pseudo_exact` : what has a pseudo-address, what it is, and which inputs share it.
-/

namespace Airdrop

open Outcome

theorem Bytes.flatten_chunks {α : Type} {width : Nat} : ∀ (count : Nat) (xs : List α), xs.length ≤ width * count →
    (chunks width count xs).flatten = xs
  | 0, xs, h => by
    rw [Nat.mul_zero, Nat.le_zero, List.length_eq_zero_iff] at h
    rw [h]
    rfl
  | count + 1, xs, h => by
    rw [Nat.mul_succ] at h
    rw [chunks, List.flatten_cons, flatten_chunks count _ (by rw [List.length_drop]; omega), List.take_append_drop]

@[simp] theorem Bytes.length_chunks {α : Type} {width : Nat} : ∀ (count : Nat) (xs : List α),
    (chunks width count xs).length = count
  | 0, _ => rfl
  | count + 1, xs => by rw [chunks, List.length_cons, length_chunks count]

theorem Bytes.length_le_of_mem_chunks {α : Type} {width : Nat} : ∀ (count : Nat) (xs : List α),
    ∀ piece ∈ chunks width count xs, piece.length ≤ width
  | 0, _, _, hno => absurd hno List.not_mem_nil
  | count + 1, xs, piece, hpiece => by
    rcases List.mem_cons.mp hpiece with rfl | hpiece
    · exact List.length_take_le width xs
    · exact length_le_of_mem_chunks count _ piece hpiece

theorem Key.parse_bytes_eq_ok_iff {bs key : Bytes} {field : String} :
    parse (.bytes bs) field = .ok key ↔ bs.length = 32 ∧ bs = key := by
  show (if bs.length = size then Except.ok bs else Except.error (EncodingFault.keyLength field bs.length)) = _ ↔ _
  by_cases hlen : bs.length = size
  · rw [if_pos hlen, Except.ok.injEq]
    exact (and_iff_right hlen).symm
  · rw [if_neg hlen]
    exact ⟨fun hno => (nomatch hno), fun h => absurd h.1 hlen⟩

namespace Address

variable {seed program key : Bytes} {handle handle' : String} {pin pin' : Int}

/-! ## Seeds -/

theorem flatten_handleSeeds (bs : Bytes) : (handleSeeds bs).flatten = bs := by
  refine Bytes.flatten_chunks _ bs ?_
  unfold maxSeedLength
  omega

/-- The seeds of the pseudo-address of a handle and a PIN under a key. -/
def pseudoSeedsOf (seed : Bytes) (handle : String) (pin : Int) : List Bytes :=
  seed :: handleSeeds (Utf8.ofText handle) ++ [Bytes.ofNatLE 4 pin.toNat]

theorem checkHandle_eq_ok_iff : checkHandle (.text handle) = .ok () ↔ handle ≠ "" := by
  rw [checkHandle, ite_error_eq_ok, String.isEmpty_iff]
  exact and_iff_left rfl

theorem checkPin_eq_ok_iff : checkPin (.int pin) = .ok () ↔ 0 ≤ pin ∧ pin < 2 ^ 32 := by
  show (if 0 ≤ pin ∧ pin < 2 ^ 32 then _ else _) = _ ↔ _
  split
  · exact iff_of_true rfl ‹_›
  · exact iff_of_false (fun hno => nomatch hno) ‹_›

theorem pseudoSeeds_eq_ok_iff {seeds : List Bytes} :
    pseudoSeeds (.bytes seed) (.text handle) (.int pin) = .ok seeds ↔
      handle ≠ "" ∧ (0 ≤ pin ∧ pin < 2 ^ 32) ∧ seed.length = 32 ∧ pseudoSeedsOf seed handle pin = seeds := by
  simp only [pseudoSeeds, bind_eq_ok, mapError_eq_ok, Key.parse_bytes_eq_ok_iff, Value.asInt?, handleBytes]
  rw [← checkHandle_eq_ok_iff, ← checkPin_eq_ok_iff]
  constructor
  · rintro ⟨_, hhandle, _, hpin, _, ⟨⟩, key, ⟨hlen, rfl⟩, hseeds⟩
    exact ⟨hhandle, hpin, hlen, Except.ok.inj hseeds⟩
  · rintro ⟨hhandle, hpin, hlen, rfl⟩
    exact ⟨(), hhandle, (), hpin, _, rfl, seed, ⟨hlen, rfl⟩, rfl⟩

/-- Thirteen pieces of a handle fit between the key, the PIN and the bump. -/
theorem pseudoSeedsOf_fit (hseed : seed.length = 32) :
    ((pseudoSeedsOf seed handle pin).length ≤ 15 ∧ ∀ s ∈ pseudoSeedsOf seed handle pin, s.length ≤ 32) ↔
      (Utf8.ofText handle).length ≤ 416 := by
  have hnumber : (pseudoSeedsOf seed handle pin).length = ((Utf8.ofText handle).length + 31) / 32 + 2 := by
    simp [pseudoSeedsOf, handleSeeds, Bytes.length_chunks, maxSeedLength]
  have hlength : ∀ s ∈ pseudoSeedsOf seed handle pin, s.length ≤ 32 := by
    intro s hs
    simp only [pseudoSeedsOf, List.cons_append, List.mem_cons, List.mem_append, List.not_mem_nil, or_false] at hs
    rcases hs with rfl | hs | rfl
    · exact Nat.le_of_eq hseed
    · exact Bytes.length_le_of_mem_chunks _ _ s hs
    · simp
  rw [and_iff_left hlength, hnumber]
  omega

/-! ## The string that is hashed -/

def pseudoMessage (seed : Bytes) (handle : String) (pin : Int) (bump : Nat) (program : Bytes) : Bytes :=
  seed ++ Utf8.ofText handle ++ Bytes.ofNatLE 4 pin.toNat ++ [UInt8.ofNat bump] ++ program ++
    Utf8.ofText "ProgramDerivedAddress"

theorem preimage_pseudoSeedsOf (seed : Bytes) (handle : String) (pin : Int) (bump : Nat) (program : Bytes) :
    preimage (pseudoSeedsOf seed handle pin) bump program = pseudoMessage seed handle pin bump program := by
  simp [preimage, pseudoSeedsOf, pseudoMessage, flatten_handleSeeds, marker]

theorem pseudoMessage_inj {seed' program' : Bytes} {bump bump' : Nat} (hseed : seed.length = seed'.length)
    (hprogram : program.length = program'.length) (hpin : 0 ≤ pin ∧ pin < 2 ^ 32) (hpin' : 0 ≤ pin' ∧ pin' < 2 ^ 32)
    (heq : pseudoMessage seed handle pin bump program = pseudoMessage seed' handle' pin' bump' program') :
    seed = seed' ∧ handle = handle' ∧ pin = pin' ∧ program = program' := by
  obtain ⟨heq, hprograms⟩ := List.append_inj' (List.append_cancel_right heq) hprogram
  obtain ⟨heq, -⟩ := List.append_inj' heq rfl
  obtain ⟨heq, hpins⟩ := List.append_inj' heq (by simp)
  obtain ⟨hseeds, hhandles⟩ := List.append_inj heq hseed
  have := Bytes.ofNatLE_inj (by omega) (by omega) hpins
  exact ⟨hseeds, Utf8.ofText_inj hhandles, by omega, hprograms⟩

/-! ## The candidate found -/

/-- The bumps of a pseudo-address whose candidates are off the curve. -/
def pseudoBumps (seed : Bytes) (handle : String) (pin : Int) (program : Bytes) : Set Nat :=
  {bump | bump < 256 ∧ isOnCurve (Sha256.hash (pseudoMessage seed handle pin bump program)) = false}

theorem viable_pseudoSeedsOf :
    viable (pseudoSeedsOf seed handle pin) program 256 = pseudoBumps seed handle pin program := by
  simp only [viable, candidate, preimage_pseudoSeedsOf, pseudoBumps]

/-- The inputs that no pseudo-address is made of. -/
def Underivable (seed : Bytes) (handle : String) (pin : Int) (program : Bytes) : Prop :=
  handle = "" ∨ ¬(0 ≤ pin ∧ pin < 2 ^ 32) ∨ seed.length ≠ 32 ∨ program.length ≠ 32 ∨
    416 < (Utf8.ofText handle).length ∨
    ∀ bump < 256, isOnCurve (Sha256.hash (pseudoMessage seed handle pin bump program)) = true

theorem pseudo_eq_ok_iff : pseudo (.bytes seed) (.text handle) (.int pin) (.bytes program) = .ok key ↔
    (handle ≠ "" ∧ (0 ≤ pin ∧ pin < 2 ^ 32) ∧ seed.length = 32 ∧ program.length = 32 ∧
      (Utf8.ofText handle).length ≤ 416) ∧
    ∃ bump, IsGreatest (pseudoBumps seed handle pin program) bump ∧
      Sha256.hash (pseudoMessage seed handle pin bump program) = key := by
  simp only [pseudo, bind_eq_ok, mapError_eq_ok, Key.parse_bytes_eq_ok_iff, pseudoSeeds_eq_ok_iff]
  constructor
  · rintro ⟨_, ⟨hhandle, hpin, hseed, rfl⟩, _, ⟨hprogram, rfl⟩, ⟨address, bump⟩, hfind, hkey⟩
    obtain rfl : address = key := Except.ok.inj hkey
    obtain ⟨hnumber, hlength, hbump, haddress⟩ := find_eq_ok_iff.mp hfind
    rw [viable_pseudoSeedsOf] at hbump
    rw [candidate, preimage_pseudoSeedsOf] at haddress
    exact ⟨⟨hhandle, hpin, hseed, hprogram, (pseudoSeedsOf_fit hseed).mp ⟨hnumber, hlength⟩⟩, bump, hbump, haddress⟩
  · rintro ⟨⟨hhandle, hpin, hseed, hprogram, hbytes⟩, bump, hbump, rfl⟩
    rw [← viable_pseudoSeedsOf] at hbump
    obtain ⟨hnumber, hlength⟩ := (pseudoSeedsOf_fit hseed).mpr hbytes
    refine ⟨_, ⟨hhandle, hpin, hseed, rfl⟩, _, ⟨hprogram, rfl⟩, _,
      find_eq_ok_iff.mpr ⟨hnumber, hlength, hbump, rfl⟩, ?_⟩
    rw [candidate, preimage_pseudoSeedsOf]
    rfl

/-- The string that is hashed for the candidate where the search of a pseudo-address ends, if it ends at one. -/
def pseudoPreimages (seed program : Bytes) (handle : String) (pin : Int) : List Bytes :=
  ((search (pseudoSeedsOf seed handle pin) program 256).map fun found =>
    preimage (pseudoSeedsOf seed handle pin) found.2 program).toList

theorem length_of_pseudo (h : pseudo (.bytes seed) (.text handle) (.int pin) (.bytes program) = .ok key) :
    key.length = 32 := by
  obtain ⟨-, bump, -, rfl⟩ := pseudo_eq_ok_iff.mp h
  exact Sha256.length_hash _

theorem mem_pseudoPreimages {bump : Nat} (hbump : IsGreatest (pseudoBumps seed handle pin program) bump) :
    pseudoMessage seed handle pin bump program ∈ pseudoPreimages seed program handle pin := by
  have hsearch : search (pseudoSeedsOf seed handle pin) program 256 = some (_, bump) :=
    search_eq_some_iff.mpr ⟨viable_pseudoSeedsOf ▸ hbump, rfl⟩
  rw [pseudoPreimages, hsearch, ← preimage_pseudoSeedsOf]
  exact List.mem_singleton_self _

/-- A pseudo-address binds handle and PIN, or the strings that were hashed for the two addresses collide. -/
theorem pseudo_binds (h : pseudo (.bytes seed) (.text handle) (.int pin) (.bytes program) = .ok key)
    (h' : pseudo (.bytes seed) (.text handle') (.int pin') (.bytes program) = .ok key) :
    handle = handle' ∧ pin = pin' ∨
      Algorithm.sha256.Collides
        (pseudoPreimages seed program handle pin ++ pseudoPreimages seed program handle' pin') := by
  obtain ⟨⟨-, hpin, -⟩, bump, hbump, hkey⟩ := pseudo_eq_ok_iff.mp h
  obtain ⟨⟨-, hpin', -⟩, bump', hbump', hkey'⟩ := pseudo_eq_ok_iff.mp h'
  refine (Algorithm.eq_or_collides (a := .sha256) (List.mem_append_left _ (mem_pseudoPreimages hbump))
    (List.mem_append_right _ (mem_pseudoPreimages hbump')) (hkey.trans hkey'.symm)).imp_left fun heq => ?_
  obtain ⟨-, hhandle, hpins, -⟩ := pseudoMessage_inj rfl rfl hpin hpin' heq
  exact ⟨hhandle, hpins⟩

/-! ## Domain -/

theorem exists_isGreatest_pseudoBumps {bump : Nat} (hbump : bump ∈ pseudoBumps seed handle pin program) :
    ∃ bump, IsGreatest (pseudoBumps seed handle pin program) bump := by
  rw [← viable_pseudoSeedsOf] at hbump ⊢
  cases hsearch : search (pseudoSeedsOf seed handle pin) program 256 with
  | some found => exact ⟨found.2, (search_eq_some_iff.mp hsearch).1⟩
  | none => exact absurd ((search_eq_none_iff.mp hsearch bump hbump.1).symm.trans hbump.2) (by decide)

theorem exists_pseudo_iff : (∃ key, pseudo (.bytes seed) (.text handle) (.int pin) (.bytes program) = .ok key) ↔
    ¬Underivable seed handle pin program := by
  simp only [Underivable, not_or, not_not, Nat.not_lt, pseudo_eq_ok_iff]
  constructor
  · rintro ⟨key, ⟨hhandle, hpin, hseed, hprogram, hbytes⟩, bump, ⟨⟨hlt, hoff⟩, -⟩, -⟩
    refine ⟨hhandle, hpin, hseed, hprogram, hbytes, fun hall => ?_⟩
    exact absurd ((hall bump hlt).symm.trans hoff) (by decide)
  · rintro ⟨hhandle, hpin, hseed, hprogram, hbytes, hexists⟩
    push Not at hexists
    obtain ⟨bump, hlt, hoff⟩ := hexists
    obtain ⟨bump, hbump⟩ := exists_isGreatest_pseudoBumps ⟨hlt, Bool.eq_false_iff.mpr hoff⟩
    exact ⟨_, ⟨hhandle, hpin, hseed, hprogram, hbytes⟩, bump, hbump, rfl⟩

/-- The PIN is reached, and it has too many digits for the message that refuses it. -/
def Unwritable (handle : String) (pin : Int) : Prop := handle ≠ "" ∧ Radix.isLong pin = true

theorem not_unwritable_of_range (hpin : 0 ≤ pin ∧ pin < 2 ^ 32) : ¬Unwritable handle pin := by
  rintro ⟨-, hlong⟩
  have hshort : Radix.isLong pin = false := Radix.isLong_of_lt (k := 32) (by omega) (by decide)
  exact Bool.false_ne_true (hshort.symm.trans hlong)

theorem underivable_of_unwritable (h : Unwritable handle pin) : Underivable seed handle pin program :=
  .inr (.inl fun hpin => not_unwritable_of_range hpin h)

theorem checkPin_eq_error {e : Error} (h : checkPin (.int pin) = .error e) :
    ¬(0 ≤ pin ∧ pin < 2 ^ 32) ∧ e = (Error.encoding (.pinRange (.int pin))).raised := by
  replace h : (if 0 ≤ pin ∧ pin < 2 ^ 32 then .ok () else .error (Error.encoding (.pinRange (.int pin))).raised :
      Except Error Unit) = .error e := h
  split at h
  · exact nomatch h
  · next hpin => exact ⟨hpin, (Except.error.inj h).symm⟩

/-- Bytes, a text and an integer are refused with an encoding error, unless its message would have to show a PIN that is
too long. -/
theorem pseudo_eq_error {e : Error} (h : pseudo (.bytes seed) (.text handle) (.int pin) (.bytes program) = .error e) :
    (∃ fault, e = .encoding fault) ∧ ¬Unwritable handle pin ∨ e = .value .tooLongToWrite ∧ Unwritable handle pin := by
  have hmapped {α : Type} {x : Except EncodingFault α} (hx : x.mapError Error.encoding = .error e) :
      ∃ fault, e = .encoding fault := by
    obtain ⟨fault, -, hfault⟩ := mapError_eq_error.mp hx
    exact ⟨fault, hfault.symm⟩
  rcases bind_eq_error.mp h with hseeds | ⟨seeds, hseeds, h⟩
  · rcases bind_eq_error.mp hseeds with hhandle | ⟨_, hhandle, hseeds⟩
    · refine .inl ⟨hmapped hhandle, fun hno => ?_⟩
      rw [checkHandle_eq_ok_iff.mpr hno.1] at hhandle
      exact nomatch hhandle
    replace hhandle := checkHandle_eq_ok_iff.mp (mapError_eq_ok.mp hhandle)
    rcases bind_eq_error.mp hseeds with hpin | ⟨_, hpin, hseeds⟩
    · obtain ⟨-, rfl⟩ := checkPin_eq_error hpin
      rcases Error.raised_cases (Error.raised_pinRange pin) with ⟨hsame, hshort⟩ | ⟨hsame, hlong⟩
      · exact .inl ⟨⟨_, hsame⟩, fun hno => hshort hno.2⟩
      · exact .inr ⟨hsame, hhandle, hlong⟩
    refine .inl ⟨?_, not_unwritable_of_range (checkPin_eq_ok_iff.mp hpin)⟩
    rcases bind_eq_error.mp hseeds with hno | ⟨_, -, hseeds⟩
    · exact nomatch hno
    rcases bind_eq_error.mp hseeds with hkey | ⟨_, -, hno⟩
    · exact hmapped hkey
    · exact nomatch hno
  obtain ⟨-, hpin, -⟩ := pseudoSeeds_eq_ok_iff.mp hseeds
  refine .inl ⟨?_, not_unwritable_of_range hpin⟩
  rcases bind_eq_error.mp h with hprogram | ⟨_, -, h⟩
  · exact hmapped hprogram
  rcases bind_eq_error.mp h with hfind | ⟨_, -, hno⟩
  · exact hmapped hfind
  · exact nomatch hno

theorem pseudo_unwritable_iff :
    pseudo (.bytes seed) (.text handle) (.int pin) (.bytes program) = .error (.value .tooLongToWrite) ↔
      Unwritable handle pin := by
  constructor
  · intro h
    rcases pseudo_eq_error h with ⟨⟨_, hno⟩, -⟩ | ⟨-, hlong⟩
    · exact nomatch hno
    · exact hlong
  · intro hlong
    cases h : pseudo (.bytes seed) (.text handle) (.int pin) (.bytes program) with
    | ok key => exact absurd (underivable_of_unwritable hlong) (exists_pseudo_iff.mp ⟨key, h⟩)
    | error e =>
      rcases pseudo_eq_error h with ⟨-, hno⟩ | ⟨rfl, -⟩
      · exact absurd hlong hno
      · rfl

theorem pseudo_refused_iff :
    (∃ fault, pseudo (.bytes seed) (.text handle) (.int pin) (.bytes program) = .error (.encoding fault)) ↔
      Underivable seed handle pin program ∧ ¬Unwritable handle pin := by
  cases h : pseudo (.bytes seed) (.text handle) (.int pin) (.bytes program) with
  | ok key => exact iff_of_false (fun ⟨_, hno⟩ => nomatch hno) fun hno => exists_pseudo_iff.mp ⟨key, h⟩ hno.1
  | error e =>
    have hunderivable : Underivable seed handle pin program := by
      by_contra hno
      obtain ⟨key, hkey⟩ := exists_pseudo_iff.mpr hno
      exact nomatch h.symm.trans hkey
    rcases pseudo_eq_error h with ⟨⟨fault, rfl⟩, hshort⟩ | ⟨rfl, hlong⟩
    · exact iff_of_true ⟨fault, rfl⟩ ⟨hunderivable, hshort⟩
    · exact iff_of_false (fun ⟨_, hno⟩ => nomatch hno) fun hno => hno.2 hlong

/-- What has a pseudo-address, what it is, and what shares it. Bytes, a text and an integer are refused if one of them
is out of its bounds or no candidate is off the curve: with an encoding error, or, when the PIN is too long for its
message, with the error about that. All others have the digest of their message at the greatest bump off the curve.
Inputs with one address are the same, or the messages at which their searches end are two strings with one digest. -/
theorem pseudo_exact (seed : Bytes) (handle : String) (pin : Int) (program : Bytes) :
    ((∃ fault, pseudo (.bytes seed) (.text handle) (.int pin) (.bytes program) = .error (.encoding fault)) ↔
      Underivable seed handle pin program ∧ ¬Unwritable handle pin) ∧
    (pseudo (.bytes seed) (.text handle) (.int pin) (.bytes program) = .error (.value .tooLongToWrite) ↔
      Unwritable handle pin) ∧
    (¬Underivable seed handle pin program → ∃ bump < 256, IsGreatest (pseudoBumps seed handle pin program) bump ∧
      pseudo (.bytes seed) (.text handle) (.int pin) (.bytes program) =
        .ok (Sha256.hash (pseudoMessage seed handle pin bump program))) ∧
    ∀ (seed' : Bytes) (handle' : String) (pin' : Int) (program' key : Bytes),
      pseudo (.bytes seed) (.text handle) (.int pin) (.bytes program) = .ok key →
      pseudo (.bytes seed') (.text handle') (.int pin') (.bytes program') = .ok key →
      (seed = seed' ∧ handle = handle' ∧ pin = pin' ∧ program = program') ∨
      ∃ bump bump', IsGreatest (pseudoBumps seed handle pin program) bump ∧
        IsGreatest (pseudoBumps seed' handle' pin' program') bump' ∧
        pseudoMessage seed handle pin bump program ≠ pseudoMessage seed' handle' pin' bump' program' ∧
        Sha256.hash (pseudoMessage seed handle pin bump program) =
          Sha256.hash (pseudoMessage seed' handle' pin' bump' program') := by
  refine ⟨pseudo_refused_iff, pseudo_unwritable_iff, fun hne => ?_, fun seed' handle' pin' program' key h h' => ?_⟩
  · obtain ⟨key, hkey⟩ := exists_pseudo_iff.mpr hne
    obtain ⟨-, bump, hbump, rfl⟩ := pseudo_eq_ok_iff.mp hkey
    exact ⟨bump, hbump.1.1, hbump, hkey⟩
  · obtain ⟨⟨-, hpin, hseed, hprogram, -⟩, bump, hbump, hkey⟩ := pseudo_eq_ok_iff.mp h
    obtain ⟨⟨-, hpin', hseed', hprogram', -⟩, bump', hbump', hkey'⟩ := pseudo_eq_ok_iff.mp h'
    by_cases heq : pseudoMessage seed handle pin bump program = pseudoMessage seed' handle' pin' bump' program'
    · exact .inl (pseudoMessage_inj (hseed.trans hseed'.symm) (hprogram.trans hprogram'.symm) hpin hpin' heq)
    · exact .inr ⟨bump, bump', hbump, hbump', heq, hkey.trans hkey'.symm⟩

/-- A handle of one character and two bytes, under the least PIN. -/
theorem pseudo_exact_accented :
    ∃ bump < 256, pseudo (.bytes (List.replicate 32 1)) (.text "é") (.int 0) (.bytes (List.replicate 32 2)) =
      .ok (Sha256.hash (pseudoMessage (List.replicate 32 1) "é" 0 bump (List.replicate 32 2))) := by
  obtain ⟨hrefused, hunwritable, haccepted, -⟩ := pseudo_exact (List.replicate 32 1) "é" 0 (List.replicate 32 2)
  have hrun : (pseudo (.bytes (List.replicate 32 1)) (.text "é") (.int 0)
      (.bytes (List.replicate 32 2))).toOption.isSome = true := by
    decide +kernel
  have hderivable : ¬Underivable (List.replicate 32 1) "é" 0 (List.replicate 32 2) := by
    intro hno
    by_cases hlong : Unwritable "é" 0
    · rw [hunwritable.mpr hlong] at hrun
      exact nomatch hrun
    · obtain ⟨fault, hfault⟩ := hrefused.mpr ⟨hno, hlong⟩
      rw [hfault] at hrun
      exact nomatch hrun
  obtain ⟨bump, hlt, -, hpseudo⟩ := haccepted hderivable
  exact ⟨bump, hlt, hpseudo⟩

/-- A PIN of 4301 digits is out of range and has no pseudo-address, and yet no encoding error says so. -/
theorem pseudo_of_long_pin :
    Underivable (List.replicate 32 1) "a" ((10 ^ 4300 : Nat) : Int) (List.replicate 32 2) ∧
    pseudo (.bytes (List.replicate 32 1)) (.text "a") (.int ((10 ^ 4300 : Nat) : Int))
      (.bytes (List.replicate 32 2)) = .error (.value .tooLongToWrite) ∧
    ¬∃ fault, pseudo (.bytes (List.replicate 32 1)) (.text "a") (.int ((10 ^ 4300 : Nat) : Int))
      (.bytes (List.replicate 32 2)) = .error (.encoding fault) := by
  have hlong := Radix.isLong_ten_pow (k := 4300) (by decide)
  generalize ((10 ^ 4300 : Nat) : Int) = pin at hlong
  have hunwritable : Unwritable "a" pin := ⟨by decide, hlong⟩
  refine ⟨underivable_of_unwritable hunwritable, pseudo_unwritable_iff.mpr hunwritable, ?_⟩
  rw [pseudo_refused_iff]
  exact fun hno => hno.2 hunwritable

end Address
end Airdrop
