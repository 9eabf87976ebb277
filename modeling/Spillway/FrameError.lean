import Spillway.Cause
import Spillway.Json.Text
/-!
What can go wrong with a single frame or the buffer it is made of, each error with its wording and
its JSON form.
-/

namespace Spillway

/-- Why a frame or a buffer cannot be made, written or read. -/
inductive FrameError where
  /-- The payload does not fit into the segment that is to hold it. -/
  | sizeMismatch (length capacity : Nat)
  /-- The input ends within a header. -/
  | truncatedHeader
  /-- No kind has this tag. -/
  | unknownKind (tag : Nat)
  /-- Flag bits are set that mean nothing. -/
  | invalidFlags (flags : Nat)
  /-- The event flag says other than the kind. -/
  | eventFlagMismatch
  /-- The payload is longer than a header can say. -/
  | lengthOverflow (length : Nat)
  /-- The bytes could not be moved. -/
  | io (cause : Cause)
  deriving Repr, DecidableEq

namespace FrameError

def name : FrameError → String
  | sizeMismatch .. => "SizeMismatch"
  | truncatedHeader => "TruncatedHeader"
  | unknownKind _ => "UnknownDataType"
  | invalidFlags _ => "InvalidFlags"
  | eventFlagMismatch => "EventFlagMismatch"
  | lengthOverflow _ => "LengthOverflow"
  | io _ => "Io"

/-- The words for an error. Flags are shown as four hexadecimal digits. -/
def message : FrameError → String
  | sizeMismatch length capacity =>
    s!"Buffer length {length} exceeds the destination capacity of {capacity} bytes."
  | truncatedHeader => "The frame header is truncated."
  | unknownKind tag => s!"Unknown buffer data type {tag}."
  | invalidFlags flags => "Invalid frame flags 0x" ++ String.ofList (Hex.ofNat 4 flags) ++ "."
  | eventFlagMismatch => "The event flag does not match the buffer data type."
  | lengthOverflow length =>
    s!"Payload length {length} exceeds the maximum frame payload length."
  | io cause => cause.text

/-- The JSON form: the name alone, or the name with what the error holds. -/
def toJson (error : FrameError) : String :=
  match error with
  | sizeMismatch length capacity =>
    Json.object [(error.name,
      Json.object [("length", Json.number length), ("capacity", Json.number capacity)])]
  | unknownKind n | invalidFlags n | lengthOverflow n => Json.object [(error.name, Json.number n)]
  | io cause => Json.object [(error.name, Json.object [("kind", Json.quote cause.text)])]
  | truncatedHeader | eventFlagMismatch => Json.quote error.name

end FrameError
end Spillway
