import Airdrop.Proofs.Claim.Payload
import Airdrop.Proofs.Leaf.Fields
import Airdrop.Proofs.Merkle.Branch

/-!
# How checking a claim fails

The texts of a payload are read one after the other: Base58, the PIN, the seeds of a pseudo-address, the fields of the
record, the path. Each step has errors of its own. They are encoding errors and proof errors, but for two cases: the
handle has no UTF-8 form, or a number in the message has too many digits.

* `Payload.Shows p size n` : `n` is one of the numbers that the messages about a payload can show.
* `CannotCheck p size` : the errors of a check, each with what it takes. None of their messages shows a torn text.
* `endsIn_pseudo`, `endsIn_leaf`, `endsIn_siblings` : the steps. `endsIn_verifyBytes`, `endsIn_verify` : the check.
-/

namespace Airdrop

open Outcome
open Radix (isLong)

/-- An integer of a payload, or the size that it is checked against. -/
def Payload.Shows (p : Payload) (size : Option Int) (n : Int) : Prop :=
  n ∈ p.numbers ∨ size = some n

/-- The message of a fault can be sent. -/
def EncodingFault.IsSendable (fault : EncodingFault) : Prop := (Error.encoding fault).showsTorn = false

/-- An error which says that a claim cannot be checked. -/
inductive Claim.CannotCheck (p : Payload) (size : Option Int) : Error → Prop
  | encoding {fault : EncodingFault} (hfault : fault.IsSendable) : CannotCheck p size (.encoding fault)
  | proof (fault : ProofFault) : CannotCheck p size (.proof fault)
  | unencodable {t : TornText} {pin : Int} (hhandle : p.handle = .torn t) (hpin : p.pin = some pin) :
      CannotCheck p size (.unencodable t)
  | tooLong {n : Int} (hshown : p.Shows size n) (hlong : isLong n = true) :
      CannotCheck p size (.value .tooLongToWrite)

namespace Claim

variable {p : Payload} {size : Option Int} {program : Value} {l : Leaf}

theorem shows_amount : p.Shows size p.amount := .inl (Payload.mem_numbers.mpr (.inl rfl))

theorem shows_index : p.Shows size p.index := .inl (Payload.mem_numbers.mpr (.inr (.inl rfl)))

theorem shows_edition {n : Int} (h : p.edition = some n) : p.Shows size n :=
  .inl (Payload.mem_numbers.mpr (.inr (.inr (.inl h))))

theorem shows_pin {n : Int} (h : p.pin = some n) : p.Shows size n :=
  .inl (Payload.mem_numbers.mpr (.inr (.inr (.inr h))))

theorem CannotCheck.ite {n : Int} {e : Error} (hshown : p.Shows size n) (he : CannotCheck p size e) :
    CannotCheck p size (if isLong n then .value .tooLongToWrite else e) := by
  split
  · next hlong => exact .tooLong hshown hlong
  · exact he

theorem CannotCheck.showsTorn {e : Error} (h : CannotCheck p size e) : e.showsTorn = false := by
  cases h with
  | encoding hfault => exact hfault
  | proof | unencodable | tooLong => rfl

/-! ## Keys -/

theorem endsIn_ofBytes (bs : Bytes) (field : String) : EndsIn EncodingFault.IsSendable (Key.ofBytes bs field) := by
  unfold Key.ofBytes
  split
  · exact endsIn_ok
  · exact endsIn_error rfl

theorem endsIn_parse (v : Value) (field : String) : EndsIn EncodingFault.IsSendable (Key.parse v field) := by
  cases v with
  | text s =>
    rw [Key.parse, Key.ofText]
    split
    · exact endsIn_ofBytes _ field
    · exact endsIn_error rfl
  | bytes bs => exact endsIn_ofBytes bs field
  | _ => exact endsIn_error rfl

theorem endsIn_key (v : Value) (field : String) :
    EndsIn (CannotCheck p size) ((Key.parse v field).mapError .encoding) :=
  endsIn_mapError (endsIn_parse v field) fun _ => .encoding

/-! ## Addresses -/

theorem endsIn_checkHandle (v : Value) : EndsIn EncodingFault.IsSendable (Address.checkHandle v) := by
  unfold Address.checkHandle
  split
  · exact endsIn_error rfl
  · split
    · exact endsIn_error rfl
    · exact endsIn_ok
  · exact endsIn_ok

theorem endsIn_checkSeeds (seeds : List Bytes) : EndsIn EncodingFault.IsSendable (Address.checkSeeds seeds) := by
  unfold Address.checkSeeds
  split
  · exact endsIn_error rfl
  · split
    · exact endsIn_error rfl
    · exact endsIn_ok

theorem endsIn_find (seeds : List Bytes) (program : Bytes) :
    EndsIn EncodingFault.IsSendable (Address.find seeds program) := by
  refine endsIn_bind (endsIn_checkSeeds _) fun _ => ?_
  split
  · exact endsIn_ok
  · exact endsIn_error rfl

theorem endsIn_checkPin {pin : Int} (hpin : p.pin = some pin) :
    EndsIn (CannotCheck p size) (Address.checkPin (.int pin)) := by
  show EndsIn _ (if 0 ≤ pin ∧ pin < 2 ^ 32 then _ else _)
  split
  · exact endsIn_ok
  · refine endsIn_error ?_
    rw [Error.raised_pinRange]
    exact .ite (shows_pin hpin) (.encoding rfl)

theorem endsIn_handleBytes {pin : Int} (hpin : p.pin = some pin) :
    EndsIn (CannotCheck p size) (Address.handleBytes p.handle.toValue) := by
  cases hhandle : p.handle with
  | whole s => exact endsIn_ok
  | torn t => exact endsIn_error (.unencodable hhandle hpin)

/-- With a text for the handle and an integer for the PIN, nothing is asked of a value that it does not have. -/
theorem endsIn_pseudoSeeds {pin : Int} (hpin : p.pin = some pin) (seed : Value) :
    EndsIn (CannotCheck p size) (Address.pseudoSeeds seed p.handle.toValue (.int pin)) := by
  refine endsIn_bind (endsIn_mapError (endsIn_checkHandle _) fun _ => .encoding) fun _ => ?_
  refine endsIn_bind (endsIn_checkPin hpin) fun _ => ?_
  refine endsIn_bind (endsIn_handleBytes hpin) fun _ => ?_
  exact endsIn_bind (endsIn_key _ _) fun _ => endsIn_ok

theorem endsIn_pseudo {pin : Int} (hpin : p.pin = some pin) (seed program : Value) :
    EndsIn (CannotCheck p size) (Address.pseudo seed p.handle.toValue (.int pin) program) := by
  refine endsIn_bind (endsIn_pseudoSeeds hpin seed) fun _ => ?_
  refine endsIn_bind (endsIn_key _ _) fun _ => ?_
  exact endsIn_bind (endsIn_mapError (endsIn_find _ _) fun _ => .encoding) fun _ => endsIn_ok

theorem endsIn_resolve (p : Payload) (size : Option Int) (seed program : Value) :
    EndsIn (CannotCheck p size) (resolve p.handle.toValue (Value.ofOption .int p.pin) seed program) := by
  cases hpin : p.pin with
  | none => exact endsIn_key _ _
  | some pin => exact endsIn_pseudo hpin seed program

/-! ## The record -/

theorem endsIn_record (p : Payload) (size : Option Int) (claimant target : Bytes) :
    EndsIn (CannotCheck p size) (record (.text p.integration) (.int p.index) (.bytes claimant) (.bytes target)
      (.int p.amount) (Value.ofOption .int p.edition)) := by
  have hunknown : CannotCheck p size (Error.encoding (.unknownIntegration (.text p.integration))).raised := by
    rw [Error.raised_of_isSome rfl]
    exact .encoding rfl
  unfold record
  dsimp only
  split
  · exact endsIn_ok
  · exact endsIn_ok
  · split
    · refine endsIn_error ?_
      rw [Error.raised_editionRequired]
      exact .ite shows_index (.encoding rfl)
    · exact endsIn_ok
  · exact endsIn_error hunknown

theorem endsIn_leaf (p : Payload) (size : Option Int) (program : Value) :
    EndsIn (CannotCheck p size) (leaf p program) := by
  refine endsIn_bind (endsIn_key _ _) fun target => ?_
  refine endsIn_bind (endsIn_key _ _) fun key => ?_
  exact endsIn_bind (endsIn_resolve p size _ _) fun claimant => endsIn_record p size claimant target

/-- The numbers in the record of a payload are the payload's. -/
theorem shows_of_mem_fields (hl : leaf p program = .ok l) {f : Leaf.Field} (hf : f ∈ l.fields) {n : Int}
    (hn : f.value = .int n) : p.Shows size n := by
  obtain ⟨target, _, claimant, kind, -, -, -, -, hdesc⟩ := leaf_eq_ok_iff.mp hl
  generalize hedition : Value.ofOption Value.int p.edition = edition at hdesc
  have hserial (hserial : edition = .int n) : p.edition = some n := by
    rw [← hedition] at hserial
    cases hown : p.edition with
    | none =>
      rw [hown] at hserial
      cases hserial
    | some m =>
      rw [hown] at hserial
      exact congrArg some (Value.int.inj hserial)
  cases hdesc with
  | transfer | candy | edition =>
    simp only [Leaf.fields, List.mem_cons, List.not_mem_nil, or_false] at hf
    rcases hf with rfl | rfl | rfl | rfl | rfl
    all_goals first
      | exact Value.int.inj hn ▸ shows_index
      | exact Value.int.inj hn ▸ shows_amount
      | exact shows_edition (hserial hn)
      | cases hn

theorem endsIn_hash (hl : leaf p program = .ok l) (h : Hasher) : EndsIn (CannotCheck p size) (l.hash h) := by
  cases he : l.encode with
  | ok bs =>
    rw [Leaf.hash, he]
    exact endsIn_ok
  | error e =>
    rw [Leaf.hash, he]
    refine endsIn_error ?_
    rcases Leaf.refusal_of_encode he with ⟨⟨fault, rfl⟩, -⟩ | ⟨rfl, _, f, _, hfields, -, -, _, n, -, hn, hlong⟩
    · exact .encoding (Leaf.showsTorn_of_encode he)
    · exact .tooLong (shows_of_mem_fields hl (hfields ▸ by simp) hn) hlong

/-! ## The check -/

theorem endsIn_siblings (p : Payload) (size : Option Int) : EndsIn (CannotCheck p size) (siblings p) := by
  unfold siblings
  split
  · exact endsIn_ok
  · exact endsIn_error (.proof _)

theorem endsIn_path (p : Payload) (size : Option Int) (h : Hasher) (hash root : Bytes) (proof : List Bytes) :
    EndsIn (CannotCheck p size) (Merkle.verify h hash proof p.index root size) := by
  cases hv : Merkle.verify h hash proof p.index root size with
  | ok b => exact endsIn_ok
  | error e =>
    refine endsIn_error ?_
    rcases Merkle.checkPath_eq_error (Merkle.verify_eq_error_iff.mp hv) with ⟨⟨fault, rfl⟩, -⟩ | ⟨rfl, hunwritable⟩
    · exact .proof fault
    · obtain ⟨-, -, -, ⟨-, hlong⟩ | ⟨-, n, hn, ⟨-, hlong | hlong⟩ | ⟨-, -, hlong⟩⟩⟩ := hunwritable
      · exact .tooLong shows_index hlong
      · exact .tooLong shows_index hlong
      · exact .tooLong (.inr hn) hlong
      · exact .tooLong (.inr hn) hlong

/-- Whatever the payload, the root, the hasher, the program and the size are, the check is answered or fails with an
error of the family. -/
theorem endsIn_verifyBytes (p : Payload) (root : Bytes) (h : Hasher) (program : Value) (size : Option Int) :
    EndsIn (CannotCheck p size) (verifyBytes p root h program size) := by
  refine endsIn_bind (endsIn_siblings p size) fun proof => ?_
  rcases endsIn_leaf p size program with ⟨l, hl⟩ | ⟨e, he, hl⟩ <;> rw [hl]
  · rw [ok_bind]
    exact endsIn_bind (endsIn_hash hl h) fun hash => endsIn_path p size h hash root proof
  · exact endsIn_error he

theorem endsIn_verify (p : Payload) (root : RawText) (h : Hasher) (program : Value) (size : Option Int) :
    EndsIn (CannotCheck p size) (verify p root h program size) := by
  have hroot : EndsIn EncodingFault.IsSendable (rootOfText root) := by
    unfold rootOfText
    split
    · exact endsIn_ok
    · exact endsIn_error rfl
  exact endsIn_bind (endsIn_mapError hroot fun _ => .encoding) fun root => endsIn_verifyBytes p root h program size

end Claim
end Airdrop
