import Airdrop.Leaf
import Airdrop.Proofs.Number.Radix
import Airdrop.Proofs.Outcome

/-!
# The byte form of claim records

* `Encodes l bs` : the layout of each variant, with the ranges of its numbers and the widths of its keys.
  `Leaf.encode_eq_ok_iff` : encoding gives `bs` exactly then.
* `Encodes.length` : the width of each kind of record.
* `Alike` : equal, or a transfer and a candy claim with the same fields. `Encodes.alike` : records with one byte form
  are alike (`eq_of_encode_eq` : equal, if they are of one kind).
-/

namespace Airdrop

open Outcome

theorem Bytes.ofNatLE_inj {width m n : Nat} (hm : m < 256 ^ width) (hn : n < 256 ^ width)
    (heq : ofNatLE width m = ofNatLE width n) : m = n := by
  rw [← toNatLE_ofNatLE hm, heq, toNatLE_ofNatLE hn]

def Kind.width : Kind → Nat
  | transfer => 80
  | candy => 80
  | edition => 88
  | ingredient => 33

namespace Leaf

open Bytes (ofNatLE ofNatLE_inj)

/-! ## Fields -/

theorem encodeNat_eq_ok_iff {v : Value} {width : Nat} {field : String} {bs : Bytes} :
    encodeNat v width field = .ok bs ↔ ∃ n : Nat, v = .int n ∧ n < 256 ^ width ∧ ofNatLE width n = bs := by
  unfold encodeNat
  cases v with
  | int n =>
    rw [ite_error_eq_ok, not_or, Int.not_lt, Int.not_le, Except.ok.injEq]
    constructor
    · rintro ⟨⟨h0, hlt⟩, hbs⟩
      obtain ⟨m, rfl⟩ := Int.eq_ofNat_of_zero_le h0
      exact ⟨m, rfl, Int.ofNat_lt.mp (by rwa [Int.natCast_pow]), hbs⟩
    · rintro ⟨m, hm, hlt, hbs⟩
      obtain rfl := Value.int.inj hm
      exact ⟨⟨Int.natCast_nonneg m, by rwa [← Int.ofNat_lt, Int.natCast_pow] at hlt⟩, hbs⟩
  | _ => simp

theorem encodeKey_eq_ok_iff {v : Value} {field : String} {bs : Bytes} :
    encodeKey v field = .ok bs ↔ v = .bytes bs ∧ bs.length = 32 := by
  unfold encodeKey
  cases v with
  | bytes key =>
    show (if key.length = 32 then _ else _) = _ ↔ _
    by_cases hk : key.length = 32
    · rw [if_pos hk, Except.ok.injEq, Value.bytes.injEq]
      exact ⟨fun heq => ⟨heq, heq ▸ hk⟩, fun heq => heq.1⟩
    · rw [if_neg hk, Value.bytes.injEq]
      exact ⟨fun hno => (nomatch hno), fun heq => absurd (heq.1 ▸ heq.2) hk⟩
  | _ => simp

/-! ## Layouts -/

def claimBytes (index : Nat) (claimant target : Bytes) (amount : Nat) : Bytes :=
  ofNatLE 8 index ++ claimant ++ target ++ ofNatLE 8 amount

def editionBytes (index : Nat) (claimant target : Bytes) (amount serial : Nat) : Bytes :=
  claimBytes index claimant target amount ++ ofNatLE 8 serial

/-- The byte form of a record: numbers in range, keys of 32 bytes, and where they stand. -/
inductive Encodes : Leaf → Bytes → Prop
  | transfer {index amount : Nat} {claimant mint : Bytes} (hi : index < 256 ^ 8) (hc : claimant.length = 32)
      (ht : mint.length = 32) (ha : amount < 256 ^ 8) :
      Encodes (.transfer (.int index) (.bytes claimant) (.bytes mint) (.int amount))
        (claimBytes index claimant mint amount)
  | candy {index amount : Nat} {claimant config : Bytes} (hi : index < 256 ^ 8) (hc : claimant.length = 32)
      (ht : config.length = 32) (ha : amount < 256 ^ 8) :
      Encodes (.candy (.int index) (.bytes claimant) (.bytes config) (.int amount))
        (claimBytes index claimant config amount)
  | edition {index amount serial : Nat} {claimant master : Bytes} (hi : index < 256 ^ 8) (hc : claimant.length = 32)
      (ht : master.length = 32) (ha : amount < 256 ^ 8) (hs : serial < 256 ^ 8) :
      Encodes (.edition (.int index) (.bytes claimant) (.bytes master) (.int amount) (.int serial))
        (editionBytes index claimant master amount serial)
  | ingredient {mint : Bytes} {flags : Nat} (hm : mint.length = 32) (hf : flags < 256 ^ 1) :
      Encodes (.ingredient (.bytes mint) (.int flags)) (mint ++ ofNatLE 1 flags)

/-- The four fields that transfer and candy claims share, encoded one after the other. -/
theorem claimFields_eq_ok_iff {index claimant target amount : Value} {f g k m : String} {bs : Bytes} :
    (do
      let i ← encodeNat index 8 f
      let c ← encodeKey claimant g
      let t ← encodeKey target k
      let a ← encodeNat amount 8 m
      return i ++ c ++ t ++ a : Except Error Bytes) = .ok bs ↔
    ∃ (i a : Nat) (c t : Bytes), i < 256 ^ 8 ∧ c.length = 32 ∧ t.length = 32 ∧ a < 256 ^ 8 ∧ index = .int i ∧
      claimant = .bytes c ∧ target = .bytes t ∧ amount = .int a ∧ claimBytes i c t a = bs := by
  simp only [bind_eq_ok, encodeNat_eq_ok_iff, encodeKey_eq_ok_iff]
  constructor
  · rintro ⟨_, ⟨i, rfl, hi, rfl⟩, c, ⟨rfl, hc⟩, t, ⟨rfl, ht⟩, _, ⟨a, rfl, ha, rfl⟩, hbs⟩
    exact ⟨i, a, c, t, hi, hc, ht, ha, rfl, rfl, rfl, rfl, Except.ok.inj hbs⟩
  · rintro ⟨i, a, c, t, hi, hc, ht, ha, rfl, rfl, rfl, rfl, rfl⟩
    exact ⟨_, ⟨i, rfl, hi, rfl⟩, c, ⟨rfl, hc⟩, t, ⟨rfl, ht⟩, _, ⟨a, rfl, ha, rfl⟩, rfl⟩

theorem encodes_of_encode {l : Leaf} {bs : Bytes} (he : l.encode = .ok bs) : Encodes l bs := by
  cases l with
  | transfer index claimant mint amount =>
    obtain ⟨i, a, c, t, hi, hc, ht, ha, rfl, rfl, rfl, rfl, rfl⟩ := claimFields_eq_ok_iff.mp he
    exact Encodes.transfer hi hc ht ha
  | candy index claimant config amount =>
    obtain ⟨i, a, c, t, hi, hc, ht, ha, rfl, rfl, rfl, rfl, rfl⟩ := claimFields_eq_ok_iff.mp he
    exact Encodes.candy hi hc ht ha
  | edition index claimant master amount serial =>
    rw [encode] at he
    simp only [bind_eq_ok, encodeNat_eq_ok_iff, encodeKey_eq_ok_iff] at he
    obtain ⟨_, ⟨i, rfl, hi, rfl⟩, c, ⟨rfl, hc⟩, t, ⟨rfl, ht⟩, _, ⟨a, rfl, ha, rfl⟩, _, ⟨s, rfl, hs, rfl⟩, hbs⟩ := he
    exact Except.ok.inj hbs ▸ Encodes.edition hi hc ht ha hs
  | ingredient mint flags =>
    rw [encode] at he
    simp only [bind_eq_ok, encodeNat_eq_ok_iff, encodeKey_eq_ok_iff] at he
    obtain ⟨m, ⟨rfl, hm⟩, _, ⟨f, rfl, hf, rfl⟩, hbs⟩ := he
    exact Except.ok.inj hbs ▸ Encodes.ingredient hm hf
  | foreign typeName => exact nomatch he

theorem Encodes.encode_eq {l : Leaf} {bs : Bytes} (he : Encodes l bs) : l.encode = .ok bs := by
  cases he with
  | transfer hi hc ht ha => exact claimFields_eq_ok_iff.mpr ⟨_, _, _, _, hi, hc, ht, ha, rfl, rfl, rfl, rfl, rfl⟩
  | candy hi hc ht ha => exact claimFields_eq_ok_iff.mpr ⟨_, _, _, _, hi, hc, ht, ha, rfl, rfl, rfl, rfl, rfl⟩
  | edition hi hc ht ha hs =>
    rw [encode]
    simp only [bind_eq_ok, encodeNat_eq_ok_iff, encodeKey_eq_ok_iff]
    exact ⟨_, ⟨_, rfl, hi, rfl⟩, _, ⟨rfl, hc⟩, _, ⟨rfl, ht⟩, _, ⟨_, rfl, ha, rfl⟩, _, ⟨_, rfl, hs, rfl⟩, rfl⟩
  | ingredient hm hf =>
    rw [encode]
    simp only [bind_eq_ok, encodeNat_eq_ok_iff, encodeKey_eq_ok_iff]
    exact ⟨_, ⟨rfl, hm⟩, _, ⟨_, rfl, hf, rfl⟩, rfl⟩

theorem encode_eq_ok_iff {l : Leaf} {bs : Bytes} : l.encode = .ok bs ↔ Encodes l bs :=
  ⟨encodes_of_encode, Encodes.encode_eq⟩

/-! ## Widths -/

theorem length_claimBytes {index amount : Nat} {claimant target : Bytes} (hc : claimant.length = 32)
    (ht : target.length = 32) : (claimBytes index claimant target amount).length = 80 := by
  simp [claimBytes, hc, ht]

theorem length_editionBytes {index amount serial : Nat} {claimant target : Bytes} (hc : claimant.length = 32)
    (ht : target.length = 32) : (editionBytes index claimant target amount serial).length = 88 := by
  simp [editionBytes, length_claimBytes hc ht]

theorem Encodes.length {l : Leaf} {bs : Bytes} (he : Encodes l bs) : ∃ k, l.kind = .ok k ∧ bs.length = k.width := by
  cases he with
  | transfer _ hc ht _ => exact ⟨.transfer, rfl, length_claimBytes hc ht⟩
  | candy _ hc ht _ => exact ⟨.candy, rfl, length_claimBytes hc ht⟩
  | edition _ hc ht _ _ => exact ⟨.edition, rfl, length_editionBytes hc ht⟩
  | ingredient hm _ => exact ⟨.ingredient, rfl, by simp [hm, Kind.width]⟩

theorem Encodes.length_eq {l : Leaf} {bs : Bytes} {k : Kind} (he : Encodes l bs) (hk : l.kind = .ok k) :
    bs.length = k.width := by
  obtain ⟨k', hk', hlen⟩ := he.length
  rw [hk] at hk'
  exact Except.ok.inj hk' ▸ hlen

/-! ## One byte form, one record -/

theorem claimBytes_inj {i i' a a' : Nat} {c c' t t' : Bytes} (hi : i < 256 ^ 8) (hi' : i' < 256 ^ 8)
    (hc : c.length = 32) (hc' : c'.length = 32) (ht : t.length = 32) (ht' : t'.length = 32) (ha : a < 256 ^ 8)
    (ha' : a' < 256 ^ 8) (heq : claimBytes i c t a = claimBytes i' c' t' a') : i = i' ∧ c = c' ∧ t = t' ∧ a = a' := by
  unfold claimBytes at heq
  obtain ⟨heq, ha_eq⟩ := List.append_inj' heq (by simp)
  obtain ⟨heq, ht_eq⟩ := List.append_inj' heq (ht.trans ht'.symm)
  obtain ⟨hi_eq, hc_eq⟩ := List.append_inj' heq (hc.trans hc'.symm)
  exact ⟨ofNatLE_inj hi hi' hi_eq, hc_eq, ht_eq, ofNatLE_inj ha ha' ha_eq⟩

/-- Equal, or a transfer and a candy claim with the same fields. -/
inductive Alike : Leaf → Leaf → Prop
  | refl (l : Leaf) : Alike l l
  | transfer_candy (index claimant target amount : Value) :
      Alike (.transfer index claimant target amount) (.candy index claimant target amount)
  | candy_transfer (index claimant target amount : Value) :
      Alike (.candy index claimant target amount) (.transfer index claimant target amount)

theorem Alike.index?_eq {l r : Leaf} (h : Alike l r) : l.index? = r.index? := by
  cases h <;> rfl

/-- Records with one byte form are alike. -/
theorem Encodes.alike {l r : Leaf} {bs : Bytes} (hl : Encodes l bs) (hr : Encodes r bs) : Alike l r := by
  -- the widths keep apart all kinds but transfers and candy claims
  have hwidth (k k' : Kind) (hk : l.kind = .ok k) (hk' : r.kind = .ok k') : k.width = k'.width :=
    (hl.length_eq hk).symm.trans (hr.length_eq hk')
  generalize hbs : bs = bs' at hr
  cases hl with
  | transfer hi hc ht ha =>
    cases hr with
    | transfer hi' hc' ht' ha' =>
      obtain ⟨rfl, rfl, rfl, rfl⟩ := claimBytes_inj hi hi' hc hc' ht ht' ha ha' hbs
      exact Alike.refl _
    | candy hi' hc' ht' ha' =>
      obtain ⟨rfl, rfl, rfl, rfl⟩ := claimBytes_inj hi hi' hc hc' ht ht' ha ha' hbs
      exact Alike.transfer_candy _ _ _ _
    | edition | ingredient => exact absurd (hwidth _ _ rfl rfl) (by decide)
  | candy hi hc ht ha =>
    cases hr with
    | transfer hi' hc' ht' ha' =>
      obtain ⟨rfl, rfl, rfl, rfl⟩ := claimBytes_inj hi hi' hc hc' ht ht' ha ha' hbs
      exact Alike.candy_transfer _ _ _ _
    | candy hi' hc' ht' ha' =>
      obtain ⟨rfl, rfl, rfl, rfl⟩ := claimBytes_inj hi hi' hc hc' ht ht' ha ha' hbs
      exact Alike.refl _
    | edition | ingredient => exact absurd (hwidth _ _ rfl rfl) (by decide)
  | edition hi hc ht ha hs =>
    cases hr with
    | edition hi' hc' ht' ha' hs' =>
      obtain ⟨hclaim, hserial⟩ := List.append_inj' hbs (by simp)
      obtain ⟨rfl, rfl, rfl, rfl⟩ := claimBytes_inj hi hi' hc hc' ht ht' ha ha' hclaim
      obtain rfl := ofNatLE_inj hs hs' hserial
      exact Alike.refl _
    | transfer | candy | ingredient => exact absurd (hwidth _ _ rfl rfl) (by decide)
  | ingredient hm hf =>
    cases hr with
    | ingredient hm' hf' =>
      obtain ⟨rfl, hflags⟩ := List.append_inj' hbs (by simp)
      obtain rfl := ofNatLE_inj hf hf' hflags
      exact Alike.refl _
    | transfer | candy | edition => exact absurd (hwidth _ _ rfl rfl) (by decide)

/-- Records of one kind with one byte form are equal. -/
theorem eq_of_encode_eq {l r : Leaf} {bs : Bytes} (hk : l.kind = r.kind) (he : l.encode = .ok bs)
    (he' : r.encode = .ok bs) : l = r := by
  cases (encodes_of_encode he).alike (encodes_of_encode he') with
  | refl => rfl
  | transfer_candy | candy_transfer => exact nomatch hk

/-! ## Kinds and positions -/

theorem kind_of_encode {l : Leaf} {bs : Bytes} (he : l.encode = .ok bs) : ∃ k, l.kind = .ok k := by
  obtain ⟨k, hk, -⟩ := (encodes_of_encode he).length
  exact ⟨k, hk⟩

theorem int_of_index? {l : Leaf} {bs : Bytes} {v : Value} (he : l.encode = .ok bs) (hv : l.index? = some v) :
    ∃ n : Nat, v = .int n := by
  cases encodes_of_encode he with
  | @transfer index | @candy index | @edition index => exact ⟨index, (Option.some.inj hv).symm⟩
  | ingredient => exact nomatch hv

/-- The position in a record with a byte form is not long. -/
theorem isLong_of_index? {l : Leaf} {bs : Bytes} {n : Int} (he : l.encode = .ok bs) (hv : l.index? = some (.int n)) :
    Radix.isLong n = false := by
  have hbound {index : Nat} (hi : index < 256 ^ 8) (hn : Value.int index = .int n) : Radix.isLong n = false := by
    obtain rfl := Value.int.inj hn
    exact Radix.isLong_of_lt (k := 64) (Nat.lt_of_lt_of_le hi (by decide)) (by decide)
  cases encodes_of_encode he with
  | transfer hi | candy hi | edition hi => exact hbound hi (Option.some.inj hv)
  | ingredient => exact nomatch hv

theorem isIndexed_of_index? {l : Leaf} {k : Kind} {v : Value} (hk : l.kind = .ok k) (hv : l.index? = some v) :
    k.isIndexed = true := by
  cases l with
  | transfer | candy | edition =>
    obtain rfl := Except.ok.inj hk
    rfl
  | ingredient | foreign => exact nomatch hv

end Leaf
end Airdrop
