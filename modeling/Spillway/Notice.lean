import Spillway.SpillError
import Spillway.Text.Quoted
/-!
What a spooler reports about its work for people to read, each report with a level and a wording.
-/

namespace Spillway

/-- How much a report matters. -/
inductive Level where
  | trace
  | debug
  | info
  | warn
  deriving Repr, DecidableEq

def Level.name : Level → String
  | .trace => "TRACE"
  | .debug => "DEBUG"
  | .info => "INFO"
  | .warn => "WARN"

/-- A report. -/
inductive Notice where
  /-- A writer begins, at the end of the file, on a thread of this name. -/
  | starting (cursor : Nat) (threadName : String)
  /-- A writer has no more to do. -/
  | exiting (cursor : Nat)
  /-- A request is about to be written. -/
  | spilling (buffers bytes cursor : Nat)
  /-- A gathered write has ended, with so many bytes taken. -/
  | wrote (bytes frames cursor : Nat)
  /-- A request failed after so many bytes of whole frames. -/
  | failed (buffers start bytes : Nat) (error : SpillError)
  /-- The file has been cut back after a failure. -/
  | truncated (cursor : Nat)
  /-- The file could not be cut back after a failure. -/
  | unrepaired (cursor : Nat) (failure : Failure)
  /-- A writer turned out to have crashed. -/
  | crashed
  deriving Repr, DecidableEq

namespace Notice

def level : Notice → Level
  | starting .. | exiting _ => .info
  | spilling .. | truncated _ => .debug
  | wrote .. => .trace
  | failed .. | unrepaired .. | crashed => .warn

def text : Notice → String
  | starting cursor threadName =>
    s!"spill writer starting at offset {cursor} on thread " ++ Text.quoted threadName
  | exiting cursor => s!"spill writer exiting after writing up to offset {cursor}"
  | spilling buffers bytes cursor =>
    s!"spilling {buffers} buffers ({bytes} bytes) at offset {cursor}"
  | wrote bytes frames cursor => s!"wrote {bytes} bytes of {frames} frames at offset {cursor}"
  | failed buffers start bytes error =>
    s!"spilling {buffers} buffers at offset {start} failed after {bytes} bytes: " ++ error.message
  | truncated cursor => s!"truncated spill file to offset {cursor}"
  | unrepaired cursor failure =>
    s!"failed to truncate spill file to offset {cursor}, refusing further spills: " ++ failure.text
  | crashed => "spill writer thread panicked"

end Notice
end Spillway
