import Spillway.Settings
import Spillway.Transfer
/-!
The writer, which appends the buffers of requests to a file. It writes them in batches, each with
one gathered write, gives every buffer's segment back as soon as its frame is in the file, and moves
its cursor on by whole frames only. A request that fails is cut back to the last whole frame. When that
fails too, the writer is poisoned and refuses everything from then on. When a call crashes, the
buffers at hand are let go in order, and the writer is dead.
-/

namespace Spillway

/-- How far a spooler has come, for everyone to see. -/
structure Progress where
  /-- Where the next frame goes. -/
  cursor : Nat
  /-- The number of bytes written so far. -/
  written : Nat
  deriving Repr, DecidableEq

/-- A writer between two requests. -/
structure Writer where
  settings : Settings
  /-- The end of the last frame that is known to be in the file. -/
  cursor : Nat
  /-- The file could not be cut back after a failure. -/
  poisoned : Bool
  progress : Progress
  deriving Repr

/-- How a piece of a writer's work ended. -/
inductive Outcome where
  | done
  | failed (error : SpillError)
  | crashed
  deriving Repr, DecidableEq

/-- A piece of a writer's work: how it ended, and what it left. -/
structure Work (σ π : Type) where
  outcome : Outcome
  writer : Writer
  stage : Stage σ π

/-- How far a batch was committed: the bytes of its whole frames, and whether a pool crashed. -/
structure Commit (σ π : Type) where
  bytes : Nat
  crashed : Bool
  stage : Stage σ π

/-- What a request came to: a reply, unless the writer died over it. -/
structure Verdict (σ π : Type) where
  reply? : Option Reply
  writer : Writer
  stage : Stage σ π

def Request.buffers (request : Request) : List Buffer := request.items.map Item.buffer

/-- A list cut into batches of `n`; the last may have fewer. -/
def batches {α : Type} (n : Nat) (xs : List α) : List (List α) :=
  if n = 0 ∨ xs.length ≤ n then (if xs.isEmpty then [] else [xs])
  else xs.take n :: batches n (xs.drop n)
termination_by xs.length
decreasing_by
  simp only [List.length_drop]
  omega

/-- Nothing is lost by cutting into batches. -/
@[simp] theorem flatten_batches {α : Type} (n : Nat) (xs : List α) :
    (batches n xs).flatten = xs := by
  fun_induction batches n xs with
  | case1 xs _ none => simp_all
  | case2 xs _ some => simp
  | case3 xs _ ih => simp [ih]

namespace Writer

def start (settings : Settings) (cursor : Nat) : Writer := ⟨settings, cursor, false, ⟨cursor, 0⟩⟩

/-- The writer after so many bytes of whole frames. -/
def advance (writer : Writer) (bytes : Nat) : Writer :=
  { writer with
    cursor := writer.cursor + bytes
    progress := ⟨writer.cursor + bytes, writer.progress.written + bytes⟩ }

end Writer

namespace Stage

variable {σ π : Type}

/-- Counts and reports a request that failed when `bytes` bytes of whole frames were written from
`start` on. -/
def countFailure (stage : Stage σ π) (request : Request) (start bytes : Nat) (error : SpillError) :
    Stage σ π :=
  (stage.count .failedRequests 1).note (.failed request.items.length start bytes error)

/-- Counts a request that has been carried out. -/
def countSuccess (stage : Stage σ π) (request : Request) : Stage σ π :=
  ((stage.count .requests 1).count .buffersSpilled request.items.length).count .writeLatency 1

end Stage

namespace Surroundings

variable {σ π : Type} (env : Surroundings σ π)

/-- Lets the buffers go whose frames lie within the first `written` bytes of a batch, then the rest
of the batch. `committed` is the size of the frames before. -/
def commit (written : Nat) : (committed : Nat) → List Buffer → Stage σ π → Commit σ π
  | committed, [], stage => ⟨committed, false, stage⟩
  | committed, buffer :: rest, stage =>
    if written < committed + buffer.frameSize then
      let dropped := env.releaseAll (buffer :: rest) stage
      ⟨committed, dropped.1, dropped.2⟩
    else
      let released := env.release buffer stage
      if released.1 then ⟨committed, true, (env.releaseAll rest released.2).2⟩
      else commit written (committed + buffer.frameSize) rest released.2

/-- Commits a batch of which `written` bytes are in the file, and moves the cursor on. -/
def settleBatch (batch : List Buffer) (written : Nat) (outcome : Outcome) (writer : Writer)
    (stage : Stage σ π) : Work σ π :=
  let committed := env.commit written 0 batch stage
  if committed.crashed then ⟨.crashed, writer, committed.stage⟩
  else
    ⟨outcome, writer.advance committed.bytes, committed.stage.count .bytesWritten committed.bytes⟩

/-- Writes a batch with one gathered write. -/
def writeBatch (batch : List Buffer) (writer : Writer) (stage : Stage σ π) : Work σ π :=
  match batch.mapM Buffer.encode with
  | .error error =>
    let dropped := env.releaseAll batch stage
    ⟨if dropped.1 then .crashed else .failed (.frame error), writer, dropped.2⟩
  | .ok frames =>
    let moved := env.transfer (frames.flatMap Frame.slices) writer.cursor 0 stage
    let noted := moved.stage.note (.wrote moved.written batch.length writer.cursor)
    match moved.finish with
    | .crashed => ⟨.crashed, writer, (env.releaseAll batch moved.stage).2⟩
    | .failed failure =>
      env.settleBatch batch moved.written (.failed (.io failure.cause)) writer noted
    | .done () => env.settleBatch batch moved.written .done writer noted

/-- Writes batches in order. After a failure the remaining buffers are let go unwritten. -/
def writeBatches : List (List Buffer) → Writer → Stage σ π → Work σ π
  | [], writer, stage => ⟨.done, writer, stage⟩
  | batch :: later, writer, stage =>
    let work := env.writeBatch batch writer stage
    match work.outcome with
    | .done => writeBatches later work.writer work.stage
    | outcome =>
      let dropped := env.releaseAll later.flatten work.stage
      ⟨if dropped.1 then .crashed else outcome, work.writer, dropped.2⟩

/-- Writes the buffers of a request in batches. -/
def writeRequest (request : Request) (writer : Writer) (stage : Stage σ π) : Work σ π :=
  env.writeBatches (batches writer.settings.framesPerWrite request.buffers) writer stage

/-- Cuts the file back to the last whole frame. A writer that cannot do so is poisoned. -/
def repair (writer : Writer) (stage : Stage σ π) : Bool × Writer × Stage σ π :=
  match env.truncateOn writer.cursor stage with
  | (.done (), after) => (false, writer, after.note (.truncated writer.cursor))
  | (.failed failure, after) =>
    (false, { writer with poisoned := true }, after.note (.unrepaired writer.cursor failure))
  | (.crashed, after) => (true, writer, after)

/-- Answers a request with an error before anything is written. -/
def refuse (request : Request) (error : SpillError) (writer : Writer) (stage : Stage σ π) :
    Verdict σ π :=
  let dropped := env.releaseAll request.buffers stage
  ⟨if dropped.1 then none else some (.error error), writer, dropped.2⟩

/-- Carries out a request whose entries are known. -/
def carryOut (request : Request) (entries : List Entry) (writer : Writer) (stage : Stage σ π) :
    Verdict σ π :=
  let start := writer.cursor
  let noted := stage.note (.spilling request.items.length request.framedSize start)
  let work := env.writeRequest request writer noted
  match work.outcome with
  | .crashed => ⟨none, work.writer, work.stage⟩
  | .failed error =>
    let reported := work.stage.countFailure request start (work.writer.cursor - start) error
    let repaired := env.repair work.writer reported
    ⟨if repaired.1 then none else some (.error error), repaired.2.1, repaired.2.2⟩
  | .done =>
    if work.writer.settings.syncEach then
      match env.syncOn work.stage with
      | (.crashed, after) => ⟨none, work.writer, after⟩
      | (.failed failure, after) =>
        let error := SpillError.io failure.cause
        ⟨some (.error error), work.writer,
          after.countFailure request start (work.writer.cursor - start) error⟩
      | (.done (), after) => ⟨some (.ok entries), work.writer, after.countSuccess request⟩
    else ⟨some (.ok entries), work.writer, work.stage.countSuccess request⟩

/-- Processes a request. A poisoned writer refuses it, a buffer that cannot be framed has it
refused, and entries that leave 64 bits crash the writer before anything is written. -/
def process (request : Request) (writer : Writer) (stage : Stage σ π) : Verdict σ π :=
  if writer.poisoned then env.refuse request .poisoned writer stage
  else
    match request.refusal? with
    | some error => env.refuse request (.frame error) writer stage
    | none =>
      match request.entries? writer.cursor with
      | none => ⟨none, writer, (env.releaseAll request.buffers stage.crash).2⟩
      | some entries => env.carryOut request entries writer stage

end Surroundings
end Spillway
