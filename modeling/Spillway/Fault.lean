import Spillway.Cause
/-!
Faults that strike at given calls: the call with a certain number fails, or moves nothing.
-/

namespace Spillway

/-- What happens to the call with this number: a failure, or without a cause, nothing at all. -/
structure Fault where
  call : Nat
  cause : Option Cause
  deriving Repr, DecidableEq

namespace Fault

/-- The fault that strikes at a call. -/
def find? (faults : List Fault) (call : Nat) : Option Fault :=
  faults.find? fun fault => fault.call == call

/-- The number of faults that have not struck before a call. -/
def ahead (faults : List Fault) (call : Nat) : Nat :=
  faults.countP fun fault => call ≤ fault.call

theorem ahead_succ_le (faults : List Fault) (call : Nat) :
    ahead faults (call + 1) ≤ ahead faults call := by
  apply List.countP_mono_left
  intro fault _ later
  simp only [decide_eq_true_eq] at *
  omega

/-- A fault that strikes is behind afterwards. -/
theorem ahead_succ_lt {faults : List Fault} {call : Nat} {fault : Fault}
    (found : find? faults call = some fault) : ahead faults (call + 1) < ahead faults call := by
  induction faults with
  | nil => cases found
  | cons first rest ih =>
    simp only [ahead, List.countP_cons] at ih ⊢
    by_cases struck : first.call = call
    · subst struck
      have rest_le := ahead_succ_le rest first.call
      simp only [ahead] at rest_le
      rw [if_neg (by simp), if_pos (by simp)]
      omega
    · have rest_lt := ih (by simpa [find?, struck] using found)
      have same : call + 1 ≤ first.call ↔ call ≤ first.call := by omega
      simp only [same]
      omega

end Fault
end Spillway
