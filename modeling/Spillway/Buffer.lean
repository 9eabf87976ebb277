import Spillway.Header
import Spillway.Segment
/-!
Buffers: the first bytes of a segment, with a kind. A buffer never claims more bytes than its
segment has. Its segment goes back to its owner when the buffer is let go.
-/

namespace Spillway

/-- Whom a segment goes back to: one of the pools, which reclaims it, or nobody, and its memory is
freed. -/
inductive Owner where
  | pool (number : Nat := 0)
  | nobody
  deriving Repr, DecidableEq

/-- The first `size` bytes of a segment, as content of some kind. -/
structure Buffer where
  segment : Segment
  owner : Owner
  kind : Kind
  size : Nat
  compressed : Bool
  size_le : size ≤ segment.capacity
  deriving Repr

namespace Buffer

/-- A buffer on a segment, refused if it would be larger than the segment. -/
def ofSegment (segment : Segment) (owner : Owner) (kind : Kind) (size : Nat) :
    Except FrameError Buffer :=
  if h : size ≤ segment.capacity then .ok ⟨segment, owner, kind, size, false, h⟩
  else .error (.sizeMismatch size segment.capacity)

/-- The payload. -/
def readable (buffer : Buffer) : Extent := buffer.segment.bytes.take buffer.size

/-- The header that goes before the payload, refused if it cannot say the length. -/
def header (buffer : Buffer) : Except FrameError Header :=
  if Header.maxLength < buffer.size then .error (.lengthOverflow buffer.size)
  else .ok ⟨buffer.kind, buffer.compressed, buffer.size⟩

/-- The length of the buffer once it is framed. -/
def frameSize (buffer : Buffer) : Nat := Header.width + buffer.size

def describe (buffer : Buffer) : String :=
  "Buffer \x7b data_type: " ++ buffer.kind.name ++ s!", size: {buffer.size}, compressed: " ++
    Json.bool buffer.compressed ++ " \x7d"

@[simp] theorem size_readable (buffer : Buffer) : buffer.readable.size = buffer.size := by
  have := buffer.size_le
  simp only [readable, Extent.size_take, Segment.capacity] at *
  omega

end Buffer
end Spillway
