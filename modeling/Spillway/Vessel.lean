import Spillway.Fault
import Spillway.Sink
/-!
Outputs that hold what they take. A vessel may take bytes in chunks only, may be full from some size
on, and may be struck by faults at given writes.
-/

namespace Spillway

/-- Bytes taken so far, and how more are taken. -/
structure Vessel where
  contents : Extent
  /-- The number of writes so far. -/
  writes : Nat
  /-- The most bytes that one write takes. -/
  chunk : Option Nat
  /-- The size at which the vessel is full. -/
  limit : Option Nat
  faults : List Fault
  deriving Repr

namespace Vessel

/-- The most of `size` bytes that the next write takes; nothing if the vessel is full. -/
def room (vessel : Vessel) (size : Nat) : Option Nat :=
  let offered := match vessel.chunk with
    | none => size
    | some chunk => min size chunk
  match vessel.limit with
  | none => some offered
  | some limit =>
    if limit ≤ vessel.contents.size then none
    else some (min offered (limit - vessel.contents.size))

/-- Takes the first of the offered bytes. -/
def write (vessel : Vessel) (bytes : Extent) : Except Cause Nat × Vessel :=
  let counted := { vessel with writes := vessel.writes + 1 }
  match Fault.find? vessel.faults vessel.writes with
  | some ⟨_, some cause⟩ => (.error cause, counted)
  | some ⟨_, none⟩ => (.ok 0, counted)
  | none =>
    match vessel.room bytes.size with
    | none => (.error .storageFull, counted)
    | some n => (.ok n, { counted with contents := vessel.contents ++ bytes.take n })

theorem room_le {vessel : Vessel} {size n : Nat} (taken : vessel.room size = some n) :
    n ≤ size := by
  have offered :
      (match vessel.chunk with | none => size | some chunk => min size chunk) ≤ size := by
    split <;> omega
  simp only [room] at taken
  split at taken
  · cases taken
    exact offered
  · split at taken
    · cases taken
    · cases taken
      omega

theorem write_le (vessel : Vessel) (bytes : Extent) (n : Nat)
    (taken : (vessel.write bytes).1 = .ok n) : n ≤ bytes.size := by
  unfold write at taken
  split at taken
  · cases taken
  · cases taken
    exact Nat.zero_le _
  · split at taken
    · cases taken
    · rename_i room
      cases taken
      exact room_le room

theorem ahead_write_lt (vessel : Vessel) (bytes : Extent)
    (interrupted : (vessel.write bytes).1 = .error .interrupted) :
    Fault.ahead (vessel.write bytes).2.faults (vessel.write bytes).2.writes <
      Fault.ahead vessel.faults vessel.writes := by
  unfold write at *
  split at interrupted
  · rename_i found
    exact Fault.ahead_succ_lt found
  · cases interrupted
  · split at interrupted <;> cases interrupted

/-- Vessels as a sink. -/
def sink : Sink Vessel where
  write := write
  patience vessel := Fault.ahead vessel.faults vessel.writes
  write_le := write_le
  patience_lt := ahead_write_lt

end Vessel
end Spillway
