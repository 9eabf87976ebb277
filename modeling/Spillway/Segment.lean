import Spillway.Extent
/-!
Memory segments: a fixed number of bytes that may be written in place. An access outside of the
segment has no result. No segment holds as many as `Word.half` bytes.
-/

namespace Spillway

/-- A region of memory of fixed size, with one owner at a time. -/
structure Segment where
  bytes : Extent
  size_lt : bytes.size < Word.half
  deriving Repr

namespace Segment

def capacity (segment : Segment) : Nat := segment.bytes.size

/-- A segment of the given bytes, if so many fit into memory. -/
def ofExtent? (bytes : Extent) : Option Segment :=
  if h : bytes.size < Word.half then some ⟨bytes, h⟩ else none

/-- The segment with `patch` in place of its bytes from `index` on, if it ends inside. -/
def overwrite? (segment : Segment) (index : Nat) (patch : Extent) : Option Segment :=
  if index + patch.size ≤ segment.capacity then
    ofExtent? (segment.bytes.overwrite index patch)
  else none

/-- The segment with `bytes` in place of its first ones; what would not fit is left out. -/
def load (segment : Segment) (bytes : Extent) : Segment where
  bytes := bytes.take segment.capacity ++ segment.bytes.drop bytes.size
  size_lt := by
    have := segment.size_lt
    simp only [Extent.size_append, Extent.size_take, Extent.size_drop, capacity]
    omega

/-- Puts a 32-bit number at `index`. -/
def putInt? (segment : Segment) (index : Nat) (value : Int) : Option Segment :=
  segment.overwrite? index (.ofList (Word.toBytes 4 (Word.ofSigned 4 value)))

/-- The 32-bit number at `index`. -/
def getInt? (segment : Segment) (index : Nat) : Option Int :=
  if index + 4 ≤ segment.capacity then
    some (Word.toSigned 4 (Word.ofBytes ((segment.bytes.drop index).take 4).toList))
  else none

def describe (segment : Segment) : String :=
  s!"MemorySegment \x7b capacity: {segment.capacity} \x7d"

@[simp] theorem capacity_load (segment : Segment) (bytes : Extent) :
    (segment.load bytes).capacity = segment.capacity := by
  simp only [load, capacity, Extent.size_append, Extent.size_take, Extent.size_drop]
  omega

end Segment
end Spillway
