import Spillway.Journal
/-!
Writing all of some slices to a file, from an offset on. What the file took is taken off the front,
and the rest is offered again behind it. An interrupted write is made again, a write that takes
nothing is a failure, and a store that claims more than it was offered makes the transfer crash, as
does a position or a count that leaves 64 bits.
-/

set_option linter.unusedVariables false

namespace Spillway

/-- How a transfer ended, the count of written bytes that it kept, and the stage after it. -/
structure Transfer (σ π : Type) where
  finish : Answer Unit
  written : Nat
  stage : Stage σ π

namespace Store

variable {σ π : Type}

/-- What a write that takes nothing is answered with. -/
def stalled : Failure := ⟨.writeZero, "failed to write whole buffer"⟩

/-- Transfers what is left of the slices when `taken` bytes of them have been written behind
`offset`. The count stood at `before` when the transfer began. -/
def transferFrom (store : Store σ) (offset before : Nat) (slices : List Extent) (taken : Nat)
    (stage : Stage σ π) : Transfer σ π :=
  if Extent.totalSize slices = 0 then ⟨.done (), before + taken, stage⟩
  else
    match Word.add? offset taken with
    | none => ⟨.crashed, before + taken, stage.crash⟩
    | some position =>
      match call : store.writeOn slices position stage with
      | (.crashed, after) => ⟨.crashed, before + taken, after⟩
      | (.failed failure, after) =>
        if failure.cause = .interrupted then transferFrom store offset before slices taken after
        else ⟨.failed failure, before + taken, after⟩
      | (.done n, after) =>
        if n = 0 then ⟨.failed stalled, before + taken, after⟩
        else if (Word.add? (before + taken) n).isNone then ⟨.crashed, before + taken, after.crash⟩
        else if Extent.totalSize slices < n then ⟨.crashed, before + taken + n, after.crash⟩
        else transferFrom store offset before (Extent.advance n slices) (taken + n) after
termination_by (Extent.totalSize slices, store.patience stage.file)
decreasing_by
  · rename_i interrupted
    apply Prod.Lex.right
    simp only [writeOn, Prod.mk.injEq] at call
    have less := store.patience_lt stage.file slices position
      ⟨failure.text, by rw [call.1, ← interrupted]⟩
    rw [← call.2]
    exact less
  · apply Prod.Lex.left
    simp only [Extent.totalSize_advance]
    omega

/-- A transfer goes on after a write according to its answer. -/
theorem transferFrom_write (store : Store σ) {offset before : Nat} {slices : List Extent}
    {taken position : Nat} {stage after : Stage σ π} {answer : Answer Nat}
    (some : Extent.totalSize slices ≠ 0) (found : Word.add? offset taken = Option.some position)
    (call : store.writeOn slices position stage = (answer, after)) :
    store.transferFrom offset before slices taken stage =
      match answer with
      | .crashed => ⟨.crashed, before + taken, after⟩
      | .failed failure =>
        if failure.cause = .interrupted then store.transferFrom offset before slices taken after
        else ⟨.failed failure, before + taken, after⟩
      | .done n =>
        if n = 0 then ⟨.failed stalled, before + taken, after⟩
        else if (Word.add? (before + taken) n).isNone then ⟨.crashed, before + taken, after.crash⟩
        else if Extent.totalSize slices < n then ⟨.crashed, before + taken + n, after.crash⟩
        else store.transferFrom offset before (Extent.advance n slices) (taken + n) after := by
  rw [transferFrom, if_neg some, found]
  simp only
  split <;> rename_i same <;> rw [call] at same <;> cases same <;> rfl

/-- Transfers all of the slices to `offset`, and adds what was taken to the count `written`. -/
def transfer (store : Store σ) (slices : List Extent) (offset written : Nat) (stage : Stage σ π) :
    Transfer σ π :=
  store.transferFrom offset written slices 0 stage

end Store
end Spillway
