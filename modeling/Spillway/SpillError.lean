import Spillway.FrameError
/-!
The errors that answer a spill request as a whole.
-/

namespace Spillway

/-- Why a request was not carried out. -/
inductive SpillError where
  /-- The file failed. -/
  | io (cause : Cause)
  /-- A buffer of the request cannot be framed. -/
  | frame (error : FrameError)
  /-- There is no writer any more. -/
  | closed
  /-- The file could not be cut back after an earlier failure. -/
  | poisoned
  deriving Repr, DecidableEq

namespace SpillError

def name : SpillError → String
  | io _ => "StdIo"
  | frame _ => "Frame"
  | closed => "Closed"
  | poisoned => "Poisoned"

/-- The words for an error. -/
def message : SpillError → String
  | io cause => cause.text
  | frame error => error.message
  | closed => "The spiller has been closed."
  | poisoned => "The spill file could not be repaired after a failed write."

/-- The cause that an error comes down to. -/
def cause : SpillError → Cause
  | io cause => cause
  | frame (.io cause) => cause
  | frame _ => .invalidData
  | closed => .brokenPipe
  | poisoned => .other

/-- The JSON form: the name alone, or the name with what the error holds. -/
def toJson (error : SpillError) : String :=
  match error with
  | io cause => Json.object [(error.name, Json.object [("kind", Json.quote cause.text)])]
  | frame inner => Json.object [(error.name, inner.toJson)]
  | closed | poisoned => Json.quote error.name

end SpillError
end Spillway
