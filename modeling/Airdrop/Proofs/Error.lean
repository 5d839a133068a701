import Airdrop.Error
import Airdrop.Proofs.Number.Radix
import Airdrop.Proofs.Value

/-!
# Errors and their messages

An error is raised with its message, or else it is the error about the integer that is too long for it.

* `raised_eq_or` : what is raised is the error itself or the error about the integer.
* `message?_raised` : what is raised has its message, if its kind has one.
* `raised_eq` : an error that shows one integer is raised as it is unless the integer is long. `raised_cases` : the two
  cases, for this and for errors that show two integers.
-/

namespace Airdrop.Error

open Radix

theorem raised_eq_or (e : Error) : e.raised = e ∨ e.raised = value .tooLongToWrite ∧ e.message? = none := by
  unfold raised
  split
  · next h => exact .inr ⟨rfl, Option.isNone_iff_eq_none.mp (Bool.and_eq_true_iff.mp h).2⟩
  · exact .inl rfl

theorem raised_of_isSome {e : Error} (h : e.message?.isSome = true) : e.raised = e := by
  rw [raised, if_neg]
  simp [Option.isSome_iff_ne_none.mp h]

theorem message?_raised {e : Error} (h : e.hasMessage = true) : e.raised.message?.isSome = true := by
  rcases raised_eq_or e with heq | ⟨heq, -⟩
  · rw [heq]
    unfold raised at heq
    split at heq
    · subst heq
      rfl
    · next hne => simpa [h, Option.isSome_iff_ne_none] using hne
  · rw [heq]
    rfl

theorem raised_raised (e : Error) : e.raised.raised = e.raised := by
  rcases raised_eq_or e with heq | ⟨heq, -⟩ <;> rw [heq]
  · exact heq
  · rfl

/-- What is raised, where `long` says that an integer in the message is too long. -/
theorem raised_cases {e : Error} {long : Prop} [Decidable long]
    (h : e.raised = if long then value .tooLongToWrite else e) :
    e.raised = e ∧ ¬long ∨ e.raised = value .tooLongToWrite ∧ long := by
  by_cases hlong : long
  · exact .inr ⟨h.trans (if_pos hlong), hlong⟩
  · exact .inl ⟨h.trans (if_neg hlong), hlong⟩

/-- An error whose message shows one integer. -/
theorem raised_eq {e : Error} {n : Int} {f : String → String} (hkind : e.hasMessage = true)
    (hmessage : e.message? = (integerText? n).map f) :
    e.raised = if isLong n then value .tooLongToWrite else e := by
  unfold raised
  rw [hkind, hmessage]
  by_cases hn : isLong n = true
  · rw [integerText?_of_isLong hn, hn]
    rfl
  · rw [integerText?_eq_some (Bool.eq_false_of_not_eq_true hn), if_neg hn]
    rfl

theorem raised_doesNotFit (field : String) (bits : Nat) (n : Int) :
    (encoding (.doesNotFit field bits n)).raised =
      if isLong n then value .tooLongToWrite else encoding (.doesNotFit field bits n) :=
  raised_eq rfl rfl

theorem raised_misplaced (position : Nat) (n : Int) :
    (encoding (.misplaced position n)).raised =
      if isLong n then value .tooLongToWrite else encoding (.misplaced position n) :=
  raised_eq rfl rfl

theorem raised_indexRange (n : Int) (size : Nat) :
    (indexRange n size).raised = if isLong n then value .tooLongToWrite else indexRange n size :=
  raised_eq rfl rfl

theorem raised_unreachable (length : Nat) (n : Int) :
    (proof (.unreachable length n)).raised =
      if isLong n then value .tooLongToWrite else proof (.unreachable length n) :=
  raised_eq rfl rfl

theorem raised_depthMismatch (length : Nat) (n : Int) :
    (proof (.depthMismatch length n)).raised =
      if isLong n then value .tooLongToWrite else proof (.depthMismatch length n) :=
  raised_eq rfl rfl

/-- The one message with two integers. -/
theorem raised_outside (index size : Int) :
    (proof (.outside index size)).raised =
      if isLong index ∨ isLong size then value .tooLongToWrite else proof (.outside index size) := by
  simp only [raised, hasMessage, message?, ProofFault.message?, integerText?, Bool.true_and]
  cases isLong index <;> cases isLong size <;> rfl

theorem raised_pinRange (n : Int) :
    (encoding (.pinRange (.int n))).raised =
      if isLong n then value .tooLongToWrite else encoding (.pinRange (.int n)) :=
  raised_eq (f := fun n => "pin out of u32 range: " ++ n) rfl (by rw [← Value.displayText?_int]; rfl)

theorem raised_editionRequired (n : Int) :
    (encoding (.editionRequired (.int n))).raised =
      if isLong n then value .tooLongToWrite else encoding (.editionRequired (.int n)) :=
  raised_eq (f := fun n => "claim " ++ n ++ ": edition is required") rfl (by rw [← Value.displayText?_int]; rfl)

end Airdrop.Error
