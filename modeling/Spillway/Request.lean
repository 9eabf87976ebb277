import Spillway.Frame
import Spillway.Json.Shape
/-!
Requests and the index entries they are answered with. A request is an ordered list of buffers with
the coordinates they will be looked up by; its entries say where each frame starts, one behind the
other from the offset at which the first is written.
-/

namespace Spillway

/-- A buffer with the coordinates it will be looked up by. -/
structure Item where
  buffer : Buffer
  /-- The number of the buffer within its subpartition. -/
  index : UInt32
  subpartition : UInt32
  deriving Repr

/-- Where a spilled buffer landed. -/
structure Entry where
  subpartition : UInt32
  index : UInt32
  /-- Where the header of its frame starts. -/
  offset : Nat
  deriving Repr, DecidableEq

/-- Buffers to be spilled together, in this order. -/
structure Request where
  items : List Item
  deriving Repr

namespace Item

def frameSize (item : Item) : Nat := item.buffer.frameSize

def describe (item : Item) : String :=
  "BufferWithIdentity \x7b buffer: " ++ item.buffer.describe ++
    s!", buffer_index: {item.index.toNat}, subpartition_id: {item.subpartition.toNat} \x7d"

end Item

namespace Entry

/-- The JSON fields, all of which must be there. -/
def shape : Json.Shape Entry where
  fields := [
    ⟨"subpartition_id", fun token e =>
      (token.toNat UInt32.size).map fun n => { e with subpartition := UInt32.ofNat n }⟩,
    ⟨"buffer_index", fun token e =>
      (token.toNat UInt32.size).map fun n => { e with index := UInt32.ofNat n }⟩,
    ⟨"file_offset", fun token e => (token.toNat Word.span).map fun n => { e with offset := n }⟩]
  blank := ⟨0, 0, 0⟩
  complete := true

def ofJson (text : String) : Except Json.Malformed Entry := shape.read text

def toJson (entry : Entry) : String :=
  Json.object [
    ("subpartition_id", Json.number entry.subpartition.toNat),
    ("buffer_index", Json.number entry.index.toNat),
    ("file_offset", Json.number entry.offset)]

end Entry

namespace Request

/-- The number of bytes that the request takes once it is written. -/
def framedSize (request : Request) : Nat := Word.total (request.items.map Item.frameSize)

/-- The error of the first item that cannot be framed. -/
def refusal? (request : Request) : Option FrameError :=
  request.items.findSome? fun item =>
    match item.buffer.header with
    | .error error => some error
    | .ok _ => none

/-- The entries of items written one behind the other from `start` on, unless an offset leaves 64
bits, which crashes whoever asks for them. As everywhere, this takes overflow checks to be on. -/
def entriesFrom? : (start : Nat) → List Item → Option (List Entry)
  | _, [] => some []
  | start, item :: rest =>
    match Word.add? start item.frameSize with
    | none => none
    | some next => (entriesFrom? next rest).map (⟨item.subpartition, item.index, start⟩ :: ·)

/-- The entries of a request whose first frame is written at `start`. -/
def entries? (request : Request) (start : Nat) : Option (List Entry) :=
  entriesFrom? start request.items

def describe (request : Request) : String :=
  "SpillRequest \x7b items: [" ++ String.intercalate ", " (request.items.map Item.describe) ++
    "] \x7d"

end Request
end Spillway
