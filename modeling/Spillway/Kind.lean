/-!
The kinds of content a buffer carries. The place of a kind in `Kind.all` is the tag that stands for
it in a frame header, so the order is part of the file format.
-/

namespace Spillway

/-- What a buffer carries: records, one of several control events, or nothing. -/
inductive Kind where
  | none
  | data
  | event
  | priorityEvent
  | alignedBarrier
  | timeoutableBarrier
  | recoveryCompletion
  | recoveryMetadata
  | endOfSegment
  deriving Repr, DecidableEq

namespace Kind

instance : Inhabited Kind := ⟨none⟩

/-- Every kind, in the order of the tags. -/
def all : List Kind :=
  [none, data, event, priorityEvent, alignedBarrier, timeoutableBarrier, recoveryCompletion,
   recoveryMetadata, endOfSegment]

/-- The number that stands for a kind in a frame header. -/
def tag : Kind → Nat
  | none => 0
  | data => 1
  | event => 2
  | priorityEvent => 3
  | alignedBarrier => 4
  | timeoutableBarrier => 5
  | recoveryCompletion => 6
  | recoveryMetadata => 7
  | endOfSegment => 8

/-- The kind that a number stands for. -/
def ofTag? (tag : Nat) : Option Kind := all[tag]?

def name : Kind → String
  | none => "None"
  | data => "DataBuffer"
  | event => "EventBuffer"
  | priorityEvent => "PriorityEventBuffer"
  | alignedBarrier => "AlignedCheckpointBarrier"
  | timeoutableBarrier => "TimeoutableAlignedCheckpointBarrier"
  | recoveryCompletion => "RecoveryCompletion"
  | recoveryMetadata => "RecoveryMetadata"
  | endOfSegment => "EndOfSegment"

def isData (kind : Kind) : Bool := kind == data

def isEvent : Kind → Bool
  | none | data => false
  | _ => true

/-- Must be delivered ahead of the data queued before it. -/
def hasPriority (kind : Kind) : Bool := kind == priorityEvent

/-- Blocks the channel it came by until it is consumed. -/
def blocksUpstream (kind : Kind) : Bool := kind == alignedBarrier || kind == timeoutableBarrier

/-- The consumer must be told before it arrives. -/
def needsAnnouncement (kind : Kind) : Bool := kind == timeoutableBarrier

@[simp] theorem ofTag?_tag (kind : Kind) : ofTag? kind.tag = some kind := by
  cases kind <;> rfl

theorem tag_le (kind : Kind) : kind.tag ≤ 8 := by
  cases kind <;> decide

/-- A number stands for a kind exactly if it is that kind's tag. -/
theorem ofTag?_eq_some_iff {tag : Nat} {kind : Kind} : ofTag? tag = some kind ↔ kind.tag = tag := by
  constructor
  · intro found
    have small : tag < 9 := (List.getElem?_eq_some_iff.mp found).1
    have tags : ∀ t : Fin 9, (ofTag? t.val).map Kind.tag = some t.val := by decide
    simpa [found] using tags ⟨tag, small⟩
  · rintro rfl
    exact ofTag?_tag kind

theorem ofTag?_eq_none_iff {tag : Nat} : ofTag? tag = Option.none ↔ 8 < tag := by
  simp only [ofTag?, List.getElem?_eq_none_iff]
  exact Iff.rfl

end Kind
end Spillway
