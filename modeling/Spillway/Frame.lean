import Spillway.Buffer
/-!
Encoded frames: the bytes of a header and the payload behind it, which is not copied.
-/

namespace Spillway

/-- A buffer in the form in which it is written. -/
structure Frame where
  header : Header
  payload : Extent
  deriving Repr

namespace Frame

/-- The parts of a frame, to be gathered by one write. -/
def slices (frame : Frame) : List Extent := [.ofList frame.header.toBytes, frame.payload]

def size (frame : Frame) : Nat := Header.width + frame.payload.size

/-- The bytes of a frame in one piece. -/
def toExtent (frame : Frame) : Extent := .ofList frame.header.toBytes ++ frame.payload

end Frame

/-- The frame of a buffer, refused if it cannot have a header. -/
def Buffer.encode (buffer : Buffer) : Except FrameError Frame :=
  match buffer.header with
  | .error error => .error error
  | .ok header => .ok ⟨header, buffer.readable⟩

@[simp] theorem Frame.size_toExtent (frame : Frame) : frame.toExtent.size = frame.size := by
  simp [toExtent, size]

end Spillway
