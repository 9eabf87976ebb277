import Spillway.Buffer
/-!
Plain inputs, which hand out bytes one call after the other and can be moved to another position. A
call may bring fewer bytes than it is asked for, may fail, or may be interrupted; no bytes mean the
end of the input. On them: reading a header, a frame, the frame at an offset, and passing over a
frame. A segment that is lent for reading either comes back inside a buffer or is handed back.
-/

set_option linter.unusedVariables false

namespace Spillway

/-- An input with state `ρ`. -/
structure Source (ρ : Type) where
  /-- Brings up to so many bytes. -/
  read : ρ → Nat → Except Cause Extent × ρ
  /-- Moves to an offset from the start. -/
  seek : ρ → Nat → Except Cause Unit × ρ
  /-- Moves ahead by so many bytes. -/
  skip : ρ → Nat → Except Cause Unit × ρ
  /-- Bounds the interruptions that are still to come in a row. -/
  patience : ρ → Nat
  /-- A payload that is cut off leaves its first bytes in the segment it was read into. An input
  that knows how much it holds leaves the segment alone. -/
  keepsTorn : Bool
  read_le : ∀ state wanted bytes, (read state wanted).1 = .ok bytes → bytes.size ≤ wanted
  patience_lt : ∀ state wanted, (read state wanted).1 = .error .interrupted →
    patience (read state wanted).2 < patience state

/-- How a run of reads ended: all bytes are there, the input ended before, or a read failed. -/
inductive Supply where
  | full
  | ended
  | failed (cause : Cause)
  deriving Repr, DecidableEq

/-- What became of a segment lent for reading a frame: the answer, and the segment if it has to go
back to its owner now. -/
structure Loan where
  answer : Except FrameError (Option Buffer)
  returned : Option Segment

namespace Source

variable {ρ : Type}

/-- Reads until `wanted` bytes are there. Nothing is called for no bytes, and an interrupted call is
made again. -/
def gather (source : Source ρ) (wanted : Nat) (state : ρ) : Extent × Supply × ρ :=
  if wanted = 0 then (.empty, .full, state)
  else
    match call : source.read state wanted with
    | (.error cause, after) =>
      if cause = .interrupted then gather source wanted after else (.empty, .failed cause, after)
    | (.ok bytes, after) =>
      if bytes.size = 0 then (.empty, .ended, after)
      else
        let rest := gather source (wanted - bytes.size) after
        (bytes ++ rest.1, rest.2)
termination_by (wanted, source.patience state)
decreasing_by
  · rename_i interrupted
    subst interrupted
    apply Prod.Lex.right
    have less := source.patience_lt state wanted (by simp [call])
    simpa [call] using less
  · apply Prod.Lex.left
    omega

/-- The next header, or nothing at the end of the input. An end within the header is an error. -/
def header (source : Source ρ) (state : ρ) : Except FrameError (Option Header) × ρ :=
  match source.gather Header.width state with
  | (bytes, .full, after) => ((Header.ofBytes bytes.toList).map some, after)
  | (bytes, .ended, after) =>
    (if bytes.size = 0 then .ok none else .error .truncatedHeader, after)
  | (_, .failed cause, after) => (.error (.io cause), after)

/-- A segment after a payload of which only `bytes` came. -/
def torn (source : Source ρ) (segment : Segment) (bytes : Extent) : Segment :=
  if source.keepsTorn then segment.load bytes else segment

/-- The next frame, read into `segment`. -/
def frame (source : Source ρ) (segment : Segment) (owner : Owner) (state : ρ) : Loan × ρ :=
  match source.header state with
  | (.error error, after) => (⟨.error error, some segment⟩, after)
  | (.ok none, after) => (⟨.ok none, some segment⟩, after)
  | (.ok (some header), headed) =>
    if segment.capacity < header.length then
      (⟨.error (.sizeMismatch header.length segment.capacity), some segment⟩, headed)
    else
      match source.gather header.length headed with
      | (bytes, .failed cause, after) =>
        (⟨.error (.io cause), some (source.torn segment bytes)⟩, after)
      | (bytes, .ended, after) =>
        (⟨.error (.io .unexpectedEof), some (source.torn segment bytes)⟩, after)
      | (bytes, .full, after) =>
        match Buffer.ofSegment (segment.load bytes) owner header.kind header.length with
        | .error error => (⟨.error error, none⟩, after)
        | .ok buffer => (⟨.ok (some { buffer with compressed := header.compressed }), none⟩, after)

/-- The frame at `offset`, where an end of the input is an error. -/
def frameAt (source : Source ρ) (offset : Nat) (segment : Segment) (owner : Owner) (state : ρ) :
    Loan × ρ :=
  match source.seek state offset with
  | (.error cause, after) => (⟨.error (.io cause), some segment⟩, after)
  | (.ok (), found) =>
    match source.frame segment owner found with
    | (⟨.ok none, returned⟩, after) => (⟨.error (.io .unexpectedEof), returned⟩, after)
    | other => other

/-- Passes over the next frame, and gives its header, or nothing at the end of the input. -/
def pass (source : Source ρ) (state : ρ) : Except FrameError (Option Header) × ρ :=
  match source.header state with
  | (.ok (some header), headed) =>
    match source.skip headed header.length with
    | (.error cause, after) => (.error (.io cause), after)
    | (.ok (), after) => (.ok (some header), after)
  | other => other

end Source
end Spillway
