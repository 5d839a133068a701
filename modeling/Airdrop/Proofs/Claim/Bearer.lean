import Airdrop.Proofs.Address
import Airdrop.Proofs.Claim.Issue
import Airdrop.Proofs.Claim.Soundness

/-!
# What presents a claim that was issued with a PIN

A record holds the key of its claimant and not how the key was found. So a claim of a distribution with PINs is accepted
from whoever has the handle and the PIN, and also from whoever hands in the pseudo-address of these as if it were a
wallet.

* `recordOf_address` : the record of a row with a PIN is that of its pseudo-address as a wallet.
* `record_at_size` : what is accepted at the size of a distribution is the record at its index.
* `exists_of_address` : the record of a row with a PIN is accepted from its address.
* `Presents` : a payload holds handle and PIN of a row, or the pseudo-address in place of both.
  `presented_by_pin_or_address` : the claims of a distribution with PINs are accepted either way, and no other way.
* `presented_without_pin` : a claim that is accepted without its handle and its PIN.
-/

namespace Airdrop.Claim

open Outcome
open Airdrop.Address (pseudo pseudoPreimages pseudo_binds)
open Airdrop.Distribution (ofRecords Built built_of_ofRecords issuedTo entry)

/-! ## Rows with PINs -/

section
variable {σ : Type} {draw : StateM σ Int} {integration : String} {target program : Bytes} {index : Nat}
  {rows : List Claimant} {s s' : σ} {prepared : List (Claimant × Leaf)}

theorem isSome_pinOf {row : Claimant} {pin : Option Int} (h : (pinOf draw false row).run s = (pin, s')) :
    ∃ n, pin = some n := by
  unfold pinOf at h
  rw [if_neg Bool.false_ne_true] at h
  split at h <;> exact ⟨_, (congrArg Prod.fst h).symm⟩

/-- Unless wallets are paid, every row has a PIN. -/
theorem Prepares.exists_pin (h : Prepares draw integration target program false index rows s prepared s') :
    ∀ x ∈ prepared, ∃ n, x.1.pin = some n := by
  induction h with
  | nil => exact fun x hx => absurd hx List.not_mem_nil
  | cons hpin _ _ ih =>
    intro x hx
    rcases List.mem_cons.mp hx with rfl | hx
    · exact isSome_pinOf hpin
    · exact ih x hx

theorem recordOf_address {row : Claimant} {l : Leaf} {pin : Int}
    (hrecord : recordOf integration target program index row = .ok l) (hpin : row.pin = some pin) :
    ∃ name key, row.handle = .whole name ∧
      pseudo (.bytes target) (.text name) (.int pin) (.bytes program) = .ok key ∧
      recordOf integration target program index { row with handle := Base58.text key, pin := none } = .ok l := by
  obtain ⟨key, kind, hkey, hkind, hdesc⟩ := recordOf_eq_ok_iff.mp hrecord
  obtain ⟨name, hname⟩ := exists_of_resolve hkey
  rw [hpin, hname] at hkey
  have hpseudo : pseudo (.bytes target) (.text name) (.int pin) (.bytes program) = .ok key := hkey
  refine ⟨name, key, hname, hpseudo, recordOf_eq_ok_iff.mpr ⟨key, kind, mapError_eq_ok.mpr ?_, hkind, hdesc⟩⟩
  exact Key.ofText_text (Address.length_of_pseudo hpseudo) _

end

/-! ## Payloads that are accepted -/

section
variable {h : Hasher} {records : List Leaf} {encodings : List Bytes} {d : Distribution} {q : Payload} {program : Value}

theorem Describes.unique {index claimant target amount edition index' claimant' target' amount' edition' : Value}
    {kind kind' : Kind} {l : Leaf} (hl : Describes index claimant target amount edition kind l)
    (hl' : Describes index' claimant' target' amount' edition' kind' l) : claimant = claimant' ∧ target = target' := by
  cases hl <;> cases hl' <;> exact ⟨rfl, rfl⟩

/-- A payload with the byte form of a row's record is paid at the row's key. -/
theorem resolve_eq_of_encode {integration : String} {seed programKey encoded : Bytes} {index : Nat} {row : Claimant}
    {l r : Leaf} (hl : leaf q program = .ok l) (henc : l.encode = .ok encoded)
    (hprogram : Key.parse program "program_id" = .ok programKey)
    (hrecord : recordOf integration seed programKey index row = .ok r) (hrenc : r.encode = .ok encoded) :
    ∃ key, resolve row.handle.toValue (Value.ofOption .int row.pin) (.bytes seed) (.bytes programKey) = .ok key ∧
      resolve q.handle.toValue (Value.ofOption .int q.pin) (.bytes seed) (.bytes programKey) = .ok key := by
  obtain ⟨target, program', claimant, kind, -, hprogram', hclaimant, -, hdesc⟩ := leaf_eq_ok_iff.mp hl
  obtain ⟨key, kind', hkey, -, hdesc'⟩ := recordOf_eq_ok_iff.mp hrecord
  obtain rfl : programKey = program' := Except.ok.inj (hprogram.symm.trans hprogram')
  have halike : l.Alike r := (Leaf.encodes_of_encode henc).alike (Leaf.encodes_of_encode hrenc)
  have hsame := (hdesc.of_alike halike hdesc'.kind_eq).1.unique hdesc'
  obtain rfl : claimant = key := Value.bytes.inj hsame.1
  obtain rfl : target = seed := Value.bytes.inj hsame.2
  exact ⟨claimant, hkey, hclaimant⟩

/-- What is accepted at the size of a distribution is the record at its index, or strings collide. No tags are needed:
the size fixes the length of the path. -/
theorem record_at_size (hb : Built h records encodings d)
    (hv : verifyBytes q d.root h program (some d.size) = .ok true) :
    ∃ l encoded proof r, leaf q program = .ok l ∧ l.encode = .ok encoded ∧ siblings q = .ok proof ∧ 0 ≤ q.index ∧
      records[q.index.toNat]? = some r ∧
      (r.encode = .ok encoded ∨
        h.algorithm.Collides (d.preimages ++ checkPreimages h encoded proof q.index.toNat)) := by
  obtain ⟨proof, l, encoded, hproof, hl, henc, hv⟩ := verifyBytes_eq_true_iff.mp hv
  obtain ⟨h0, hlt, hcases⟩ := hb.tower.own_of_verify hv
  rw [hb.length_leaves] at hlt
  have hi : q.index.toNat < encodings.length := by omega
  obtain ⟨r, hr, hrenc⟩ := hb.admitted.exists_record (List.getElem?_eq_getElem hi)
  refine ⟨l, encoded, proof, r, hl, henc, hproof, h0, hr, ?_⟩
  rcases hcases with ⟨hleaf, -⟩ | hcol
  · rw [hb.leaves_eq, List.getElem?_map, List.getElem?_eq_getElem hi, Option.map_some] at hleaf
    have hbuild : h.leafPreimage encodings[q.index.toNat] ∈
        d.preimages ++ checkPreimages h encoded proof q.index.toNat :=
      List.mem_append_left _ (hb.leafPreimage_mem (List.getElem_mem hi))
    have hcheck : h.leafPreimage encoded ∈ d.preimages ++ checkPreimages h encoded proof q.index.toNat :=
      List.mem_append_right _ List.mem_cons_self
    refine (Hasher.eq_or_collides_of_leaf_eq hbuild hcheck (Option.some.inj hleaf)).imp_left fun heq => ?_
    rw [hrenc, heq]
  · refine Or.inr (hcol.mono (List.append_subset.mpr ⟨?_, ?_⟩))
    · exact List.Subset.trans hb.preimagesOf_subset (List.subset_append_left _ _)
    · exact List.Subset.trans (List.subset_cons_self _ _) (List.subset_append_right _ _)

/-- A row with a PIN has a valid payload that is accepted without the PIN: the one of its pseudo-address as a wallet. -/
theorem exists_of_address {integration : String} {seed programKey : Bytes} {i : Nat} {row : Claimant} {r : Leaf}
    {pin : Int} (hb : Built h records encodings d) (hr : records[i]? = some r)
    (hrecord : recordOf integration seed programKey i row = .ok r) (hpin : row.pin = some pin) (hrow : row.Valid)
    (hseed : seed.length = 32) (hprogram : Key.parse program "program_id" = .ok programKey) :
    ∃ name key, row.handle = .whole name ∧
      pseudo (.bytes seed) (.text name) (.int pin) (.bytes programKey) = .ok key ∧
      ∃ q : Payload, q.Valid ∧ q.index = i ∧ q.handle = Base58.text key ∧ q.pin = none ∧
        verifyBytes q d.root h program (some d.size) = .ok true := by
  obtain ⟨name, key, hname, hkey, hwallet⟩ := recordOf_address hrecord hpin
  obtain ⟨encoded, hencoded⟩ : ∃ encoded, encodings[i]? = some encoded := by
    obtain ⟨hi, -⟩ := List.getElem?_eq_some_iff.mp hr
    rw [← hb.admitted.length_eq] at hi
    exact ⟨_, List.getElem?_eq_getElem hi⟩
  have haddress : verifyBytes (issuedTo d.kind none seed (entry d.tree r (h.leaf encoded) i)
      { row with handle := Base58.text key, pin := none }) d.root h program (some d.size) = .ok true :=
    verifyBytes_issuedTo hb hr hencoded hwallet hseed hprogram fun n hn => (Option.some.inj hn).symm
  exact ⟨name, key, hname, hkey, _, valid_issuedTo hb hr hwallet hrow.amount hrow.edition, rfl, rfl, rfl, haddress⟩

end

/-! ## Distributions with PINs -/

/-- A payload holds the handle and the PIN of a row, or, as a wallet, the pseudo-address `key` that they give. -/
def Presents (q : Payload) (row : Claimant) (key : Bytes) : Prop :=
  q.handle = row.handle ∧ q.pin = row.pin ∨ q.pin = none ∧ Key.parse q.handle.toValue "wallet handle" = .ok key

section
variable {seed programKey key : Bytes} {row : Claimant} {q : Payload} {name : String} {pin : Int}

/-- Whoever is paid at the pseudo-address of a row presents the row, or the strings hashed for two addresses collide. -/
theorem presents_of_resolve (hname : row.handle = .whole name) (hpin : row.pin = some pin)
    (hrow : pseudo (.bytes seed) (.text name) (.int pin) (.bytes programKey) = .ok key)
    (hq : resolve q.handle.toValue (Value.ofOption .int q.pin) (.bytes seed) (.bytes programKey) = .ok key) :
    Presents q row key ∨ ∃ other n, q.handle = .whole other ∧ q.pin = some n ∧ Algorithm.sha256.Collides
      (pseudoPreimages seed programKey name pin ++ pseudoPreimages seed programKey other n) := by
  cases hother : q.pin with
  | none =>
    rw [hother] at hq
    exact Or.inl (Or.inr ⟨hother, mapError_eq_ok.mp hq⟩)
  | some n =>
    obtain ⟨other, hhandle⟩ := exists_of_resolve hq
    rw [hother, hhandle] at hq
    rcases pseudo_binds hrow hq with ⟨hnames, hpins⟩ | hcol
    · refine Or.inl (Or.inl ⟨?_, ?_⟩)
      · rw [hhandle, hname, hnames]
      · rw [hother, hpin, hpins]
    · exact Or.inr ⟨other, n, hhandle, rfl, hcol⟩

end

section
variable {σ : Type} {draw : StateM σ Int} {s s' : σ} {h : Hasher} {integration : String} {target program : Value}
  {rows : List Claimant} {prepared : List (Claimant × Leaf)} {d : Distribution}

/-- **Claims with PINs are presented by handle and PIN, or by their address.** In a distribution whose rows have PINs,
every payload that is accepted at the size presents the row at its index, or strings collide that were hashed in the
build, in the check or for the two pseudo-addresses. And every row is also presented by its pseudo-address alone: a
valid payload without a PIN, which holds the address as its handle, is accepted. -/
theorem presented_by_pin_or_address (hrows : ∀ row ∈ rows, row.Valid)
    (hprepare : (prepare draw integration target program false rows).run.run s = (.ok prepared, s'))
    (hd : ofRecords h (prepared.map (·.2)) = .ok d) :
    ∃ seed programKey, Key.parse target "target" = .ok seed ∧ Key.parse program "program_id" = .ok programKey ∧
      (∀ q : Payload, verifyBytes q d.root h program (some d.size) = .ok true →
        ∃ row r name pin key l encoded proof, 0 ≤ q.index ∧ prepared[q.index.toNat]? = some (row, r) ∧
          row.handle = .whole name ∧ row.pin = some pin ∧
          pseudo (.bytes seed) (.text name) (.int pin) (.bytes programKey) = .ok key ∧
          leaf q program = .ok l ∧ l.encode = .ok encoded ∧ siblings q = .ok proof ∧
          (Presents q row key ∨
            h.algorithm.Collides (d.preimages ++ checkPreimages h encoded proof q.index.toNat) ∨
            ∃ other n, q.handle = .whole other ∧ q.pin = some n ∧ Algorithm.sha256.Collides
              (pseudoPreimages seed programKey name pin ++ pseudoPreimages seed programKey other n))) ∧
      ∀ (i : Nat) (row : Claimant) (r : Leaf), prepared[i]? = some (row, r) →
        ∃ name pin key, row.handle = .whole name ∧ row.pin = some pin ∧
          pseudo (.bytes seed) (.text name) (.int pin) (.bytes programKey) = .ok key ∧
          ∃ q : Payload, q.Valid ∧ q.index = i ∧ q.handle = Base58.text key ∧ q.pin = none ∧
            verifyBytes q d.root h program (some d.size) = .ok true := by
  obtain ⟨-, seed, programKey, hseed, hprogram, hprep⟩ := prepare_eq_ok_iff.mp hprepare
  obtain ⟨encodings, hb⟩ := built_of_ofRecords hd
  have hrow (i : Nat) (row : Claimant) (r : Leaf) (hat : prepared[i]? = some (row, r)) :
      recordOf integration seed programKey i row = .ok r ∧ ∃ pin, row.pin = some pin := by
    have hrecord := (hprep.of_getElem? i row r hat).2
    rw [Nat.zero_add] at hrecord
    exact ⟨hrecord, hprep.exists_pin _ (List.mem_of_getElem? hat)⟩
  refine ⟨seed, programKey, hseed, hprogram, fun q hv => ?_, fun i row r hat => ?_⟩
  · obtain ⟨l, encoded, proof, r, hl, henc, hproof, h0, hr, hcases⟩ := record_at_size hb hv
    rw [List.getElem?_map, Option.map_eq_some_iff] at hr
    obtain ⟨⟨row, _⟩, hat, rfl⟩ := hr
    obtain ⟨hrecord, pin, hpin⟩ := hrow _ row _ hat
    obtain ⟨name, key, hname, hkey, -⟩ := recordOf_address hrecord hpin
    refine ⟨row, _, name, pin, key, l, encoded, proof, h0, hat, hname, hpin, hkey, hl, henc, hproof, ?_⟩
    rcases hcases with hrenc | hcol
    · obtain ⟨key', hkey', hqkey⟩ := resolve_eq_of_encode hl henc hprogram hrecord hrenc
      rw [hname, hpin] at hkey'
      obtain rfl : key = key' := Except.ok.inj (hkey.symm.trans hkey')
      exact (presents_of_resolve hname hpin hkey hqkey).imp_right Or.inr
    · exact Or.inr (Or.inl hcol)
  · obtain ⟨hrecord, pin, hpin⟩ := hrow i row r hat
    have hr : (prepared.map (·.2))[i]? = some r := by
      rw [List.getElem?_map, hat]
      rfl
    have hvalid : row.Valid := hprep.valid hrows (row, r) (List.mem_of_getElem? hat)
    obtain ⟨name, key, hname, hkey, hq⟩ :=
      exists_of_address hb hr hrecord hpin hvalid (Key.length_of_parse hseed) hprogram
    exact ⟨name, pin, key, hname, hpin, hkey, hq⟩

end

/-- A contact with a drawn PIN: their claim is accepted from someone who has neither. -/
theorem presented_by_pin_or_address_one :
    ∃ prepared s' d q,
      (prepare (m := StateM Int) (fun n => (n, n + 1)) "transfer" (.bytes (List.replicate 32 1))
        (.bytes (List.replicate 32 2)) false [{ handle := "a", amount := 3 }]).run.run 5 = (.ok prepared, s') ∧
      ofRecords {} (prepared.map (·.2)) = .ok d ∧ q.Valid ∧ q.pin = none ∧
      verifyBytes q d.root {} (.bytes (List.replicate 32 2)) (some d.size) = .ok true := by
  have hrun : ((prepare (m := StateM Int) (fun n => (n, n + 1)) "transfer" (.bytes (List.replicate 32 1))
      (.bytes (List.replicate 32 2)) false [{ handle := "a", amount := 3 }]).run.run 5).1.toOption.map
      (fun prepared => (prepared.length, (ofRecords {} (prepared.map (·.2))).toOption.isSome)) = some (1, true) := by
    decide +kernel
  obtain ⟨prepared, s', hprepare, hrun⟩ := fst_toOption_map_eq_some.mp hrun
  obtain ⟨hlength, hsome⟩ := Prod.mk.inj hrun
  obtain ⟨d, hd⟩ := Option.isSome_iff_exists.mp hsome
  obtain ⟨seed, programKey, -, -, -, haddress⟩ := presented_by_pin_or_address (by
    intro row hrow
    obtain rfl := List.mem_singleton.mp hrow
    exact ⟨by decide, by decide, by simp, by simp⟩) hprepare (toOption_eq_some.mp hd)
  obtain ⟨_, _, _, -, -, -, q, hvalid, -, -, hpin, hv⟩ :=
    haddress 0 _ _ (List.getElem?_eq_getElem (hlength ▸ Nat.one_pos))
  exact ⟨prepared, s', d, q, hprepare, toOption_eq_some.mp hd, hvalid, hpin, hv⟩

/-- The claim of a contact with the PIN 5, held by someone who has only the pseudo-address. No two of the strings that
are hashed collide. -/
theorem presented_without_pin :
    ∃ (q : Payload) (prepared : List (Claimant × Leaf)) (s' : Int) (d : Distribution) (l : Leaf) (encoded : Bytes),
      (prepare (m := StateM Int) (fun n => (n, n + 1)) "transfer" (.bytes (List.replicate 32 1))
        (.bytes (List.replicate 32 2)) false [{ handle := "a", amount := 3 }]).run.run 5 = (.ok prepared, s') ∧
      ofRecords {} (prepared.map (·.2)) = .ok d ∧ q.Valid ∧
      verifyBytes q d.root {} (.bytes (List.replicate 32 2)) (some d.size) = .ok true ∧
      prepared.map (fun x => (x.1.handle, x.1.pin)) = [(.whole "a", some 5)] ∧ q.index = 0 ∧
      q.handle = "BM9hP3yTiZBHKQ1NMJP9DqYTL4rr26c6UmSs9HrUfgj1" ∧ q.pin = none ∧
      leaf q (.bytes (List.replicate 32 2)) = .ok l ∧ l.encode = .ok encoded ∧ siblings q = .ok [] ∧
      ¬ Algorithm.sha256.Collides (d.preimages ++ checkPreimages {} encoded [] 0 ++
        pseudoPreimages (List.replicate 32 1) (List.replicate 32 2) "a" 5) := by
  let q : Payload :=
    { integration := "transfer", handle := "BM9hP3yTiZBHKQ1NMJP9DqYTL4rr26c6UmSs9HrUfgj1", amount := 3, index := 0,
      target := Base58.text (List.replicate 32 1) }
  have hrun : ((prepare (m := StateM Int) (fun n => (n, n + 1)) "transfer" (.bytes (List.replicate 32 1))
      (.bytes (List.replicate 32 2)) false [{ handle := "a", amount := 3 }]).run.run 5).1.toOption.map (fun prepared =>
        (prepared.map (fun x => (x.1.handle, x.1.pin)), (ofRecords {} (prepared.map (·.2))).toOption.map fun d =>
          ((verifyBytes q d.root {} (.bytes (List.replicate 32 2)) (some d.size)).toOption,
            (leaf q (.bytes (List.replicate 32 2))).toOption.map fun l => l.encode.toOption.map fun encoded =>
              decide (Algorithm.sha256.Collides (d.preimages ++ checkPreimages {} encoded [] 0 ++
                pseudoPreimages (List.replicate 32 1) (List.replicate 32 2) "a" 5)))) ) =
      some ([(.whole "a", some 5)], some (some true, some (some false))) := by
    decide +kernel
  obtain ⟨prepared, s', hprepare, hrun⟩ := fst_toOption_map_eq_some.mp hrun
  obtain ⟨hpins, hrun⟩ := Prod.mk.inj hrun
  obtain ⟨d, hd, hrun⟩ := toOption_map_eq_some.mp hrun
  obtain ⟨hv, hrun⟩ := Prod.mk.inj hrun
  obtain ⟨l, hl, hrun⟩ := toOption_map_eq_some.mp hrun
  obtain ⟨encoded, hencoded, hfree⟩ := toOption_map_eq_some.mp hrun
  exact ⟨q, prepared, s', d, l, encoded, hprepare, hd, ⟨by decide, by decide, by decide, by simp [q], by simp [q]⟩,
    toOption_eq_some.mp hv, hpins, rfl, rfl, rfl, hl, hencoded, rfl, of_decide_eq_false hfree⟩

end Airdrop.Claim
