import Spillway.Instrument
import Spillway.Notice
import Spillway.Request
import Spillway.Store
/-!
The stage that spoolers act on: the file, the pool, and a journal of everything that happened on
them. Every effect goes through this module, so the journal is complete: each call on the file with
its answer, each segment that went back with the file as it was then, each count, report and reply.
The journal is kept with the newest event first; the views `calls`, `releases`, `replies` and
`notices` give the events of one sort in the order in which they happened.
-/

namespace Spillway

/-- What a request is answered with: an entry for each buffer, or the reason why there is none. -/
abbrev Reply : Type := Except SpillError (List Entry)

/-- A call on a file, and what it came to. -/
inductive Call where
  | write (position : Nat) (slices : List Extent) (answer : Answer Nat)
  | truncate (length : Nat) (answer : Answer Unit)
  | sync (answer : Answer Unit)
  deriving Repr, DecidableEq

def Call.hasCrashed : Call → Bool
  | .write _ _ answer => answer == .crashed
  | .truncate _ answer | .sync answer => answer == .crashed

/-- Something that happened. -/
inductive Event (σ : Type) where
  /-- The file was called. -/
  | called (call : Call)
  /-- A segment went back to its owner, while the file was in the given state. -/
  | released (owner : Owner) (segment : Segment) (file : σ)
  /-- An instrument went up. -/
  | counted (instrument : Instrument) (amount : Nat)
  /-- Something was reported. -/
  | noted (notice : Notice)
  /-- The request with this ticket was answered. -/
  | replied (ticket : Nat) (reply : Reply)
  /-- A pool crashed, or a check of the spooler's own. -/
  | crashed

def Event.isCrash {σ : Type} : Event σ → Bool
  | .called call => call.hasCrashed
  | .crashed => true
  | _ => false

/-- A file, a pool, and what has happened to them, newest first. -/
structure Stage (σ π : Type) where
  file : σ
  pool : π
  journal : List (Event σ)

namespace Stage

variable {σ π : Type}

/-- A stage on which nothing has happened. -/
def start (file : σ) (pool : π) : Stage σ π := ⟨file, pool, []⟩

/-- The stage after one more event. -/
def record (stage : Stage σ π) (event : Event σ) : Stage σ π :=
  { stage with journal := event :: stage.journal }

def note (stage : Stage σ π) (notice : Notice) : Stage σ π := stage.record (.noted notice)

def crash (stage : Stage σ π) : Stage σ π := stage.record .crashed

def count (stage : Stage σ π) (instrument : Instrument) (amount : Nat) : Stage σ π :=
  stage.record (.counted instrument amount)

def reply (stage : Stage σ π) (ticket : Nat) (reply : Reply) : Stage σ π :=
  stage.record (.replied ticket reply)

/-- The events, oldest first. -/
def events (stage : Stage σ π) : List (Event σ) := stage.journal.reverse

def calls (stage : Stage σ π) : List Call :=
  stage.events.filterMap fun
    | .called call => some call
    | _ => none

/-- The segments that went back, each with its owner and the file as it was then. -/
def releases (stage : Stage σ π) : List (Owner × Segment × σ) :=
  stage.events.filterMap fun
    | .released owner segment file => some (owner, segment, file)
    | _ => none

/-- The reports. -/
def notices (stage : Stage σ π) : List Notice :=
  stage.events.filterMap fun
    | .noted notice => some notice
    | _ => none

/-- The replies by ticket. -/
def replies (stage : Stage σ π) : List (Nat × Reply) :=
  stage.events.filterMap fun
    | .replied ticket reply => some (ticket, reply)
    | _ => none

/-- The reply to the request with a ticket. -/
def reply? (stage : Stage σ π) (ticket : Nat) : Option Reply :=
  stage.journal.findSome? fun
    | .replied t reply => if t = ticket then some reply else none
    | _ => none

/-- How often something crashed: a call on the file, a pool, or a check of the spooler's own. -/
def crashes (stage : Stage σ π) : Nat := stage.journal.countP Event.isCrash

/-- How far an instrument has gone up. -/
def total (stage : Stage σ π) (instrument : Instrument) : Nat :=
  Word.total (stage.journal.map fun
    | .counted i amount => if i = instrument then amount else 0
    | _ => 0)

end Stage

namespace Store

variable {σ π : Type}

/-- Writes to the file of a stage. -/
def writeOn (store : Store σ) (slices : List Extent) (position : Nat) (stage : Stage σ π) :
    Answer Nat × Stage σ π :=
  let done := store.write stage.file slices position
  (done.1, { stage with file := done.2 }.record (.called (.write position slices done.1)))

/-- Cuts or extends the file of a stage. -/
def truncateOn (store : Store σ) (length : Nat) (stage : Stage σ π) : Answer Unit × Stage σ π :=
  let done := store.truncate stage.file length
  (done.1, { stage with file := done.2 }.record (.called (.truncate length done.1)))

/-- Syncs the file of a stage. -/
def syncOn (store : Store σ) (stage : Stage σ π) : Answer Unit × Stage σ π :=
  let done := store.sync stage.file
  (done.1, { stage with file := done.2 }.record (.called (.sync done.1)))

end Store

namespace Pool

variable {σ π : Type}

/-- Gives a segment back to its owner, and says whether that crashed. Memory that nobody owns is
freed. -/
def giveBack (pool : Pool π) (owner : Owner) (segment : Segment) (stage : Stage σ π) :
    Bool × Stage σ π :=
  let stage := stage.record (.released owner segment stage.file)
  match owner with
  | .nobody => (false, stage)
  | .pool number =>
    let done := pool.reclaim stage.pool number segment
    let stage := { stage with pool := done.2 }
    (done.1, if done.1 then stage.crash else stage)

/-- Lets a buffer go: its segment goes back to its owner. -/
def release (pool : Pool π) (buffer : Buffer) (stage : Stage σ π) : Bool × Stage σ π :=
  pool.giveBack buffer.owner buffer.segment stage

/-- Lets buffers go, one after the other, and says whether that crashed. A crash over one of them
does not keep the others. -/
def releaseAll (pool : Pool π) : List Buffer → Stage σ π → Bool × Stage σ π
  | [], stage => (false, stage)
  | buffer :: rest, stage =>
    let first := pool.release buffer stage
    let later := pool.releaseAll rest first.2
    (first.1 || later.1, later.2)

end Pool
end Spillway
