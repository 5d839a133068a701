import Airdrop.Claim.Verify
import Airdrop.Proofs.Leaf.Layout
import Airdrop.Proofs.Outcome

/-!
# The record of a claim

* `Describes index claimant target amount edition kind l` : `l` is the claim record of a kind with these fields.
  `record_eq_ok_iff` : the record is made exactly then.
* `Describes.of_alike` : of two alike records one has the fields of the other.
* `leaf_eq_ok_iff`, `verifyBytes_eq_true_iff` : the record of a payload, and when a payload is accepted.
-/

namespace Airdrop

/-- Transfer and candy claims share one layout. -/
def Kind.Interchangeable (k k' : Kind) : Prop := k = k' ∨ k = .transfer ∧ k' = .candy ∨ k = .candy ∧ k' = .transfer

namespace Claim

open Outcome

/-! ## Integrations -/

theorem integration?_name {kind : Kind} (hk : kind.isIndexed = true) : integration? kind.name = some kind := by
  cases kind with
  | transfer | candy | edition => rfl
  | ingredient => exact absurd hk Bool.false_ne_true

theorem integration?_eq_some_iff {name : String} {kind : Kind} :
    integration? name = some kind ↔ kind.isIndexed = true ∧ name = kind.name := by
  constructor
  · intro hfound
    have hname : kind.name == name := List.find?_some (p := fun k : Kind => k.name == name) hfound
    refine ⟨?_, (beq_iff_eq.mp hname).symm⟩
    have hmem : kind ∈ integrations := List.mem_of_find?_eq_some hfound
    revert hmem
    cases kind <;> decide
  · rintro ⟨hk, rfl⟩
    exact integration?_name hk

/-! ## Records -/

section
variable {index claimant target amount edition : Value} {kind kind' : Kind} {l r : Leaf}

/-- The claim record of a kind with the given fields. Only edition claims hold an edition. -/
inductive Describes (index claimant target amount edition : Value) : Kind → Leaf → Prop
  | transfer : Describes index claimant target amount edition .transfer (.transfer index claimant target amount)
  | candy : Describes index claimant target amount edition .candy (.candy index claimant target amount)
  | edition (he : edition ≠ .null) :
      Describes index claimant target amount edition .edition (.edition index claimant target amount edition)

theorem edition_eq_ok_iff {ε : Type} {e : ε} {a b : Leaf} :
    (match edition with
      | .null => .error e
      | _ => .ok a : Except ε Leaf) = .ok b ↔ edition ≠ .null ∧ a = b := by
  cases edition <;> simp

theorem record_eq_ok_iff {name : String} :
    record (.text name) index claimant target amount edition = .ok l ↔
      ∃ kind, integration? name = some kind ∧ Describes index claimant target amount edition kind l := by
  unfold record
  cases hk : integration? name with
  | none => simp [hk]
  | some kind =>
    simp only [hk, Option.some.injEq, exists_eq_left']
    cases kind with
    | transfer =>
      refine ⟨fun h => Except.ok.inj h ▸ Describes.transfer, fun h => ?_⟩
      cases h
      rfl
    | candy =>
      refine ⟨fun h => Except.ok.inj h ▸ Describes.candy, fun h => ?_⟩
      cases h
      rfl
    | edition =>
      refine edition_eq_ok_iff.trans ⟨fun h => h.2 ▸ Describes.edition h.1, fun h => ?_⟩
      cases h with
      | edition he => exact ⟨he, rfl⟩
    | ingredient => exact ⟨fun hno => (nomatch hno), fun hno => (nomatch hno)⟩

namespace Describes

theorem kind_eq (h : Describes index claimant target amount edition kind l) : l.kind = .ok kind := by
  cases h <;> rfl

theorem index?_eq (h : Describes index claimant target amount edition kind l) : l.index? = some index := by
  cases h <;> rfl

theorem target?_eq (h : Describes index claimant target amount edition kind l) : l.target? = some target := by
  cases h <;> rfl

theorem isIndexed (h : Describes index claimant target amount edition kind l) : kind.isIndexed = true := by
  cases h <;> rfl

/-- Of two alike records one has the fields of the other. -/
theorem of_alike (h : Describes index claimant target amount edition kind l) (ha : l.Alike r)
    (hr : r.kind = .ok kind') :
    Describes index claimant target amount edition kind' r ∧ kind.Interchangeable kind' := by
  cases ha with
  | refl =>
    obtain rfl := Except.ok.inj (h.kind_eq.symm.trans hr)
    exact ⟨h, Or.inl rfl⟩
  | transfer_candy =>
    cases h
    obtain rfl := Except.ok.inj hr
    exact ⟨Describes.candy, Or.inr (Or.inl ⟨rfl, rfl⟩)⟩
  | candy_transfer =>
    cases h
    obtain rfl := Except.ok.inj hr
    exact ⟨Describes.transfer, Or.inr (Or.inr ⟨rfl, rfl⟩)⟩

/-- Claim records are 80 or 88 bytes wide. -/
theorem width_mem (h : Describes index claimant target amount edition kind l) {bs : Bytes} (he : l.encode = .ok bs) :
    bs.length ∈ [80, 88] := by
  obtain ⟨k, hk, hlen⟩ := (Leaf.encodes_of_encode he).length
  obtain rfl := Except.ok.inj (h.kind_eq.symm.trans hk)
  rw [hlen]
  cases h <;> decide

end Describes
end

/-! ## Payloads -/

variable {p : Payload} {program : Value} {l : Leaf}

theorem leaf_eq_ok_iff :
    leaf p program = .ok l ↔ ∃ (target programKey claimant : Bytes) (kind : Kind),
      Key.parse p.target.toValue "target" = .ok target ∧ Key.parse program "program_id" = .ok programKey ∧
      resolve p.handle.toValue (Value.ofOption .int p.pin) (.bytes target) (.bytes programKey) = .ok claimant ∧
      integration? p.integration = some kind ∧
      Describes (.int p.index) (.bytes claimant) (.bytes target) (.int p.amount) (Value.ofOption .int p.edition) kind
        l := by
  unfold leaf
  simp only [bind_eq_ok, mapError_eq_ok, record_eq_ok_iff]
  constructor
  · rintro ⟨target, htarget, programKey, hprogram, claimant, hclaimant, kind, hkind, hl⟩
    exact ⟨target, programKey, claimant, kind, htarget, hprogram, hclaimant, hkind, hl⟩
  · rintro ⟨target, programKey, claimant, kind, htarget, hprogram, hclaimant, hkind, hl⟩
    exact ⟨target, htarget, programKey, hprogram, claimant, hclaimant, kind, hkind, hl⟩

theorem verifyBytes_eq_true_iff {root : Bytes} {h : Hasher} {size : Option Int} :
    verifyBytes p root h program size = .ok true ↔ ∃ (proof : List Bytes) (l : Leaf) (encoded : Bytes),
      siblings p = .ok proof ∧ leaf p program = .ok l ∧ l.encode = .ok encoded ∧
      Merkle.verify h (h.leaf encoded) proof p.index root size = .ok true := by
  unfold verifyBytes Leaf.hash
  simp only [bind_eq_ok, map_eq_ok]
  constructor
  · rintro ⟨proof, hproof, l, hl, _, ⟨encoded, henc, rfl⟩, hv⟩
    exact ⟨proof, l, encoded, hproof, hl, henc, hv⟩
  · rintro ⟨proof, l, encoded, hproof, hl, henc, hv⟩
    exact ⟨proof, hproof, l, hl, _, ⟨encoded, henc, rfl⟩, hv⟩

end Claim
end Airdrop
