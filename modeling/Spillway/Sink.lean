import Spillway.Frame
/-!
Plain outputs, which take bytes one call after the other. A call may take fewer bytes than it is
offered, may fail, or may be interrupted; an output is interrupted only finitely often in a row,
which `Sink.patience` bounds. Writing all of some bytes goes on until they are taken, and a frame is
its header and then its payload, written in this way.
-/

set_option linter.unusedVariables false

namespace Spillway

/-- An output with state `ω`. -/
structure Sink (ω : Type) where
  /-- Offers bytes, and says how many of them were taken. -/
  write : ω → Extent → Except Cause Nat × ω
  /-- Bounds the interruptions that are still to come in a row. -/
  patience : ω → Nat
  write_le : ∀ state bytes n, (write state bytes).1 = .ok n → n ≤ bytes.size
  patience_lt : ∀ state bytes, (write state bytes).1 = .error .interrupted →
    patience (write state bytes).2 < patience state

namespace Sink

variable {ω : Type}

/-- Writes all of `bytes`. Nothing is called for no bytes, an interrupted call is made again, and a
call that takes nothing is a failure. -/
def writeAll (sink : Sink ω) (bytes : Extent) (state : ω) : Except Cause Unit × ω :=
  if bytes.size = 0 then (.ok (), state)
  else
    match call : sink.write state bytes with
    | (.error cause, after) =>
      if cause = .interrupted then writeAll sink bytes after else (.error cause, after)
    | (.ok n, after) =>
      if n = 0 then (.error .writeZero, after) else writeAll sink (bytes.drop n) after
termination_by (bytes.size, sink.patience state)
decreasing_by
  · rename_i interrupted
    subst interrupted
    apply Prod.Lex.right
    have less := sink.patience_lt state bytes (by simp [call])
    simpa [call] using less
  · apply Prod.Lex.left
    simp only [Extent.size_drop]
    omega

/-- Writes a buffer as one frame, and says how many bytes that took. -/
def writeFrame (sink : Sink ω) (buffer : Buffer) (state : ω) : Except FrameError Nat × ω :=
  match buffer.encode with
  | .error error => (.error error, state)
  | .ok frame =>
    match sink.writeAll (.ofList frame.header.toBytes) state with
    | (.error cause, after) => (.error (.io cause), after)
    | (.ok (), headed) =>
      match sink.writeAll frame.payload headed with
      | (.error cause, after) => (.error (.io cause), after)
      | (.ok (), after) => (.ok frame.size, after)

/-- The output that keeps everything it is offered. -/
def keep : Sink Extent where
  write kept bytes := (.ok bytes.size, kept ++ bytes)
  patience _ := 0
  write_le kept bytes n taken := by cases taken; exact Nat.le_refl _
  patience_lt kept bytes interrupted := by cases interrupted

end Sink
end Spillway
