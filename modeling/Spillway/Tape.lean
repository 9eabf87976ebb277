import Spillway.Fault
import Spillway.Source
/-!
Inputs over bytes that are there already. A tape has a position, may hand out its bytes in chunks,
and may be struck by faults at given reads or moves. It can be moved behind its end, where reads
bring nothing, but not out of its reach.
-/

namespace Spillway

/-- Bytes to be read, and where reading has come to. -/
structure Tape where
  bytes : Extent
  position : Nat
  /-- The number of reads so far. -/
  reads : Nat
  /-- The number of moves so far. -/
  moves : Nat
  /-- The most bytes that one read brings. -/
  chunk : Option Nat
  readFaults : List Fault
  moveFaults : List Fault
  /-- Positions that cannot be moved to begin here. -/
  reach : Nat
  deriving Repr

namespace Tape

/-- A tape at its start, without faults. -/
def ofExtent (bytes : Extent) (reach : Nat) : Tape := ⟨bytes, 0, 0, 0, none, [], [], reach⟩

/-- The most bytes that the next read can bring, if `wanted` are wanted. -/
def offer (tape : Tape) (wanted : Nat) : Nat :=
  match tape.chunk with
  | none => wanted
  | some chunk => min wanted chunk

/-- Reads up to `wanted` bytes. -/
def read (tape : Tape) (wanted : Nat) : Except Cause Extent × Tape :=
  let counted := { tape with reads := tape.reads + 1 }
  match Fault.find? tape.readFaults tape.reads with
  | some ⟨_, some cause⟩ => (.error cause, counted)
  | some ⟨_, none⟩ => (.ok .empty, counted)
  | none =>
    let found := (tape.bytes.drop tape.position).take (tape.offer wanted)
    (.ok found, { counted with position := tape.position + found.size })

def move (tape : Tape) (position : Nat) : Except Cause Unit × Tape :=
  let counted := { tape with moves := tape.moves + 1 }
  match Fault.find? tape.moveFaults tape.moves with
  | some ⟨_, some cause⟩ => (.error cause, counted)
  | some ⟨_, none⟩ => (.ok (), counted)
  | none =>
    if tape.reach ≤ position then (.error .invalidInput, counted)
    else (.ok (), { counted with position })

theorem read_le (tape : Tape) (wanted : Nat) (bytes : Extent)
    (brought : (tape.read wanted).1 = .ok bytes) : bytes.size ≤ wanted := by
  unfold read at brought
  split at brought
  · cases brought
  · cases brought
    exact Nat.zero_le _
  · cases brought
    simp only [Extent.size_take, offer]
    split <;> omega

theorem ahead_read_lt (tape : Tape) (wanted : Nat)
    (interrupted : (tape.read wanted).1 = .error .interrupted) :
    Fault.ahead (tape.read wanted).2.readFaults (tape.read wanted).2.reads <
      Fault.ahead tape.readFaults tape.reads := by
  unfold read at *
  split at interrupted
  · rename_i found
    exact Fault.ahead_succ_lt found
  · cases interrupted
  · cases interrupted

/-- Tapes as a source that keeps torn payloads or not. -/
def sourceKeeping (keepsTorn : Bool) : Source Tape where
  read := read
  seek := move
  skip tape distance := tape.move (tape.position + distance)
  patience tape := Fault.ahead tape.readFaults tape.reads
  keepsTorn
  read_le := read_le
  patience_lt := ahead_read_lt

/-- Tapes as a source. A torn payload is kept, as by any input that brings what it has. -/
def source : Source Tape := sourceKeeping true

end Tape
end Spillway
