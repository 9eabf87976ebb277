import Spillway.Store
/-!
Files that keep their bytes. A file in memory takes slices one by one and grows as needed. A write
that would reach half of the machine's span crashes: the slices before it stay, and no later call
on the contents comes back. A file on a disk takes all slices at once, and refuses too many of them
and positions that are too far.
-/

namespace Spillway

/-- A file in memory. -/
structure Memory where
  contents : Extent
  /-- A call has crashed. -/
  broken : Bool
  deriving Repr

namespace Memory

/-- Puts slices one behind the other, as far as they fit into memory. Gives where the last one ends,
if all fit, and the contents. -/
def place : (contents : Extent) → (position : Nat) → List Extent → Option Nat × Extent
  | contents, position, [] => (some position, contents)
  | contents, position, slice :: rest =>
    if Word.half ≤ position + slice.size then (none, contents)
    else place (contents.overwrite position slice) (position + slice.size) rest

def write (memory : Memory) (slices : List Extent) (position : Nat) : Answer Nat × Memory :=
  if memory.broken then (.crashed, memory)
  else
    match place memory.contents position slices with
    | (some stop, contents) => (.done (stop - position), ⟨contents, false⟩)
    | (none, contents) => (.crashed, ⟨contents, true⟩)

/-- Cuts the contents, or fills them up with zeros. -/
def truncate (memory : Memory) (length : Nat) : Answer Unit × Memory :=
  if memory.broken then (.crashed, memory)
  else if Word.half ≤ length then (.crashed, { memory with broken := true })
  else (.done (), { memory with contents := memory.contents.resize length })

theorem not_interrupted_write (memory : Memory) (slices : List Extent) (position : Nat) :
    ¬ (memory.write slices position).1.Interrupted := by
  rintro ⟨text, interrupted⟩
  unfold write at interrupted
  split at interrupted
  · cases interrupted
  · split at interrupted <;> cases interrupted

/-- A file in memory as a store. There is nothing to sync. -/
def store : Store Memory where
  length memory := if memory.broken then .crashed else .done memory.contents.size
  write := write
  truncate := truncate
  sync memory := (.done (), memory)
  patience _ := 0
  patience_lt memory slices position interrupted :=
    absurd interrupted (not_interrupted_write memory slices position)

end Memory

/-- A file on a disk. -/
structure Disk where
  contents : Extent
  deriving Repr

namespace Disk

/-- The most slices that one write takes. -/
def maxSlices : Nat := 1024

/-- What a length is refused with that no file can have. -/
def lengthRefused : Failure :=
  ⟨.invalidInput, "number too large to fit in target type"⟩

/-- Positions that cannot be moved to begin here: a file on a disk that can be read back has at most
0xffffffff pages of 4096 bytes, and its end is the last position. -/
def reach : Nat := 0xffffffff001

/-- Writes the joined slices. Writing nothing does not extend the file. -/
def write (disk : Disk) (slices : List Extent) (position : Nat) : Answer Nat × Disk :=
  if maxSlices < slices.length ∨ Word.half ≤ position + Extent.totalSize slices then
    (.failed (.ofCause .invalidInput), disk)
  else if Extent.totalSize slices = 0 then (.done 0, disk)
  else
    (.done (Extent.totalSize slices), ⟨disk.contents.overwrite position (.concat slices)⟩)

/-- Cuts the contents, or fills them up with zeros. -/
def truncate (disk : Disk) (length : Nat) : Answer Unit × Disk :=
  if Word.half ≤ length then (.failed lengthRefused, disk)
  else (.done (), ⟨disk.contents.resize length⟩)

theorem not_interrupted_write (disk : Disk) (slices : List Extent) (position : Nat) :
    ¬ (disk.write slices position).1.Interrupted := by
  rintro ⟨text, interrupted⟩
  unfold write at interrupted
  split at interrupted
  · cases interrupted
  · split at interrupted <;> cases interrupted

/-- A file on a disk as a store. -/
def store : Store Disk where
  length disk := .done disk.contents.size
  write := write
  truncate := truncate
  sync disk := (.done (), disk)
  patience _ := 0
  patience_lt disk slices position interrupted :=
    absurd interrupted (not_interrupted_write disk slices position)

end Disk

/-- A file of either sort. -/
inductive Medium where
  | memory (memory : Memory)
  | disk (disk : Disk)
  deriving Repr

namespace Medium

def inMemory (contents : Extent) : Medium := .memory ⟨contents, false⟩

def onDisk (contents : Extent) : Medium := .disk ⟨contents⟩

/-- The bytes of a file, unless a crash has made them inaccessible. -/
def contents? : Medium → Option Extent
  | .memory m => if m.broken then none else some m.contents
  | .disk d => some d.contents

/-- Positions for reading that are refused begin here. -/
def reach : Medium → Nat
  | .memory _ => Word.span
  | .disk _ => Disk.reach

/-- Whether a frame that is cut off by the end of the file leaves its first bytes in the segment it
is read into. What is in memory is known to be too short before anything is copied. -/
def keepsTorn : Medium → Bool
  | .memory _ => false
  | .disk _ => true

/-- A file of either sort as a store. -/
def store : Store Medium where
  length
    | .memory m => Memory.store.length m
    | .disk d => Disk.store.length d
  write file slices position :=
    match file with
    | .memory m =>
      let done := m.write slices position
      (done.1, .memory done.2)
    | .disk d =>
      let done := d.write slices position
      (done.1, .disk done.2)
  truncate file length :=
    match file with
    | .memory m =>
      let done := m.truncate length
      (done.1, .memory done.2)
    | .disk d =>
      let done := d.truncate length
      (done.1, .disk done.2)
  sync file := (.done (), file)
  patience _ := 0
  patience_lt file slices position interrupted := by
    cases file with
    | memory m => exact absurd interrupted (m.not_interrupted_write slices position)
    | disk d => exact absurd interrupted (d.not_interrupted_write slices position)

end Medium
end Spillway
