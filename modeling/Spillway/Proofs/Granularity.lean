import Mathlib.Data.List.Permutation
import Spillway.Proofs.Passing
/-!
In what pieces an input brings its bytes, and how often it is interrupted, cannot be told. Two sources
over one byte string that stand at the same position answer every call alike, leave the same in the
segment that is lent for it, and stand at the same position afterwards, so they do after any number of
calls. What remains of a payload that is cut off is the only thing that a source may settle for itself,
and two that settle it the same way cannot be told apart at all.
-/

namespace Spillway

variable {ρ ρ' : Type}

/-- All that can be told of a call that has ended. -/
structure Finding where
  /-- The header that was found, by itself or as that of a buffer. -/
  answer : Except FrameError (Option Header)
  /-- Whom the segment of the buffer goes back to, and all of its bytes. -/
  kept : Option (Owner × List UInt8)
  /-- All bytes of the segment that has gone back. -/
  returned : Option (List UInt8)

/-- What can be told of a loan. -/
def Loan.finding (loan : Loan) : Finding where
  answer := loan.answer.map (Option.map Buffer.head)
  kept :=
    match loan.answer with
    | .ok (some buffer) => some (buffer.owner, buffer.segment.bytes.toList)
    | _ => none
  returned := loan.returned.map fun segment => segment.bytes.toList

/-- A payload was cut off, and what came of it was left in the segment that went back. -/
def Finding.TornBeside (one other : Finding) : Prop :=
  one.answer = .error (.io .unexpectedEof) ∧ ∃ (segment : Segment) (payload : Extent),
    one.returned = some (segment.load payload).bytes.toList ∧
      other.returned = some segment.bytes.toList

/-- The same is told of two calls, but where a payload was cut off: if that is not `settled`, what came
of it may have been left in one of the segments that went back, and not in the other. -/
structure Finding.Alike (settled : Prop) (one other : Finding) : Prop where
  answer : other.answer = one.answer
  kept : other.kept = one.kept
  returned : other.returned = one.returned ∨
    ¬ settled ∧ (one.TornBeside other ∨ other.TornBeside one)

namespace Finding

theorem Alike.refl (settled : Prop) (one : Finding) : one.Alike settled one := ⟨rfl, rfl, .inl rfl⟩

theorem Alike.demanded {settled : Prop} {one other : Loan}
    (alike : one.finding.Alike settled other.finding) :
    (Loan.finding ⟨demanded one.answer, one.returned⟩).Alike settled
      (Loan.finding ⟨demanded other.answer, other.returned⟩) := by
  obtain ⟨answer, returned⟩ := one
  obtain ⟨answer', returned'⟩ := other
  have same := alike.answer
  rcases answer with error | _ | buffer <;> rcases answer' with error' | _ | buffer'
  case error.error => exact alike
  case ok.none.ok.none =>
    -- Without a frame there is no payload to be cut off.
    have whole : ∀ returned, (Loan.finding ⟨.ok none, returned⟩).answer ≠ .error (.io .unexpectedEof) := by
      simp [Loan.finding, Except.map]
    rcases alike.returned with same | ⟨-, torn | torn⟩
    · exact ⟨rfl, rfl, .inl same⟩
    · exact absurd torn.1 (whole _)
    · exact absurd torn.1 (whole _)
  case ok.some.ok.some => exact alike
  all_goals cases same

end Finding

namespace Source

section
variable {source : Source ρ} {other : Source ρ'} {bytes : List UInt8} {reach : Nat}
  {stands : ρ → Nat → Prop} {stands' : ρ' → Nat → Prop} {state : ρ} {state' : ρ'}

namespace Ranges

end Ranges
end
end Source

end Spillway
