import Spillway.Cause
import Spillway.Segment
/-!
The surroundings of a spooler: a file that is written at given positions, and the pools that segments
come from. Nothing is promised about a store's answers. A write may take any part of what it is
offered, or claim more than that; the one law is that it is interrupted only finitely often in a
row, which `Store.patience` bounds. A transfer to a file that is interrupted for ever does not end;
up to any moment of it, the calls are those made on a file that comes to a failure after that moment.
-/

namespace Spillway

/-- A file with state `σ`. -/
structure Store (σ : Type) where
  /-- The number of bytes in the file. -/
  length : σ → Answer Nat
  /-- Offers slices to be written one behind the other from a position on, and says how many bytes
  were taken. -/
  write : σ → (slices : List Extent) → (position : Nat) → Answer Nat × σ
  /-- Cuts or extends the file to a length. -/
  truncate : σ → (length : Nat) → Answer Unit × σ
  /-- Makes lasting what has been written. -/
  sync : σ → Answer Unit × σ
  /-- Bounds the interruptions that are still to come in a row. -/
  patience : σ → Nat
  patience_lt : ∀ file slices position, (write file slices position).1.Interrupted →
    patience (write file slices position).2 < patience file

/-- The pools that segments go back to, with their joint state `π`. -/
structure Pool (π : Type) where
  /-- The pool of a number takes a segment back. Says whether it crashed over it. -/
  reclaim : π → (number : Nat) → Segment → Bool × π

/-- The surroundings of a spooler. -/
structure Surroundings (σ π : Type) extends Store σ, Pool π

end Spillway
