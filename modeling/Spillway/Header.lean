import Spillway.FrameError
import Spillway.Kind
import Spillway.Word
/-!
Frame headers and their eight bytes: the tag of the kind in two, flags in two, the length of the
payload in four, each with the least significant byte first. Reading checks the tag, the flag bits,
the event flag and the length, in this order, and names the first that is wrong. Writing cuts a
length down to four bytes, and only lengths up to `Header.maxLength` are read.
-/

namespace Spillway

/-- What stands before a payload: its kind, whether it is compressed, and its length. -/
structure Header where
  kind : Kind
  compressed : Bool
  length : Nat
  deriving Repr, DecidableEq

namespace Header

/-- The number of bytes of a header. -/
def width : Nat := 8

/-- The longest payload that a frame can carry. -/
def maxLength : Nat := 0x7fffffff

/-- The flag bits: one for a compressed payload, one for an event. -/
def flags (header : Header) : Nat :=
  (if header.compressed then 1 else 0) + (if header.kind.isEvent then 2 else 0)

/-- The length of the whole frame, unless it leaves 64 bits. -/
def frameSize? (header : Header) : Option Nat := Word.add? width header.length

def toBytes (header : Header) : List UInt8 :=
  Word.toBytes 2 header.kind.tag ++ Word.toBytes 2 header.flags ++ Word.toBytes 4 header.length

/-- A header from the numbers that its fields hold. -/
def ofFields (tag flags length : Nat) : Except FrameError Header :=
  match Kind.ofTag? tag with
  | none => .error (.unknownKind tag)
  | some kind =>
    if 4 ≤ flags then .error (.invalidFlags flags)
    else if decide (2 ≤ flags) != kind.isEvent then .error .eventFlagMismatch
    else if maxLength < length then .error (.lengthOverflow length)
    else .ok ⟨kind, flags % 2 == 1, length⟩

/-- The header that the first eight bytes hold. -/
def ofBytes (bytes : List UInt8) : Except FrameError Header :=
  if bytes.length < width then .error .truncatedHeader
  else
    ofFields (Word.ofBytes (bytes.take 2)) (Word.ofBytes ((bytes.drop 2).take 2))
      (Word.ofBytes ((bytes.drop 4).take 4))

@[simp] theorem length_toBytes (header : Header) : header.toBytes.length = width := by
  simp [toBytes, width]

end Header
end Spillway
