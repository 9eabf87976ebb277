import Spillway.Json.Shape
import Spillway.Json.Text
/-!
The settings of a spooler, and their JSON form, in which each may be left out.
-/

namespace Spillway

/-- How a spooler works. -/
structure Settings where
  /-- The name of the thread that writes. -/
  threadName : String
  /-- The most slices for one gathered write. A buffer takes two, for its header and its payload. -/
  maxSlices : Nat
  /-- The file is synced after every request. -/
  syncEach : Bool
  deriving Repr, DecidableEq

namespace Settings

/-- The settings that hold where none are given. -/
def standard : Settings := ⟨"spill-writer", 1024, false⟩

instance : Inhabited Settings := ⟨standard⟩

/-- The fewest slices that a write must be able to take: those of one frame. -/
def minSlices : Nat := 2

/-- The most frames that one write gathers. -/
def framesPerWrite (settings : Settings) : Nat := max settings.maxSlices minSlices / 2

/-- The JSON fields. -/
def shape : Json.Shape Settings where
  fields := [
    ⟨"thread_name", fun token s => token.toText.map fun name => { s with threadName := name }⟩,
    ⟨"max_io_slices", fun token s =>
      (token.toNat Word.span).map fun n => { s with maxSlices := n }⟩,
    ⟨"sync_on_spill", fun token s => token.toBool.map fun b => { s with syncEach := b }⟩]
  blank := standard
  complete := false

def ofJson (text : String) : Except Json.Malformed Settings := shape.read text

def toJson (settings : Settings) : String :=
  Json.object [
    ("thread_name", Json.quote settings.threadName),
    ("max_io_slices", Json.number settings.maxSlices),
    ("sync_on_spill", Json.bool settings.syncEach)]

theorem framesPerWrite_pos (settings : Settings) : 0 < settings.framesPerWrite := by
  simp only [framesPerWrite, minSlices]
  omega

end Settings
end Spillway
