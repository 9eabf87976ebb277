import Spillway.Writer
/-!
Spoolers, which take requests and have a writer carry them out in the order in which they came. A
request waits in the queue until the writer comes to it; an empty one is answered at once. Every
request is submitted with a ticket, under which its reply appears in the journal. When the writer
dies, everything that is still queued is let go and answered `closed`, and so is what comes later.
-/

namespace Spillway

/-- A request that waits, with its ticket. -/
structure Order where
  ticket : Nat
  request : Request
  deriving Repr

/-- A writer and the requests that wait for it. -/
structure Spooler where
  writer : Writer
  /-- No call has crashed under the writer. -/
  alive : Bool
  queue : List Order
  deriving Repr

namespace Spooler

/-- Where the next frame goes, as far as requests have been carried out. -/
def cursor (spooler : Spooler) : Nat := spooler.writer.progress.cursor

/-- The number of bytes that this spooler has written so far. -/
def written (spooler : Spooler) : Nat := spooler.writer.progress.written

def describe (spooler : Spooler) : String :=
  s!"MemoryDataSpiller \x7b write_cursor: {spooler.cursor}, bytes_written: {spooler.written} \x7d"

end Spooler

namespace Surroundings

variable {σ π : Type} (env : Surroundings σ π)

/-- Starts a spooler at the end of the file. No thread can have a name with a zero in it. With any other
name a thread is there: that a system may have none to give is left out. -/
def start (settings : Settings) (stage : Stage σ π) : Answer Spooler × Stage σ π :=
  match env.length stage.file with
  | .failed failure => (.failed failure, stage)
  | .crashed => (.crashed, stage)
  | .done cursor =>
    if settings.threadName.toList.contains '\x00' then (.crashed, stage)
    else
      (.done ⟨.start settings cursor, true, []⟩, stage.note (.starting cursor settings.threadName))

/-- Submits a request, and says whether that crashed the caller. A request that finds the writer
dead is let go here, and without a crash it is answered. -/
def submit (ticket : Nat) (request : Request) (spooler : Spooler) (stage : Stage σ π) :
    Bool × Spooler × Stage σ π :=
  if request.items.isEmpty then (false, spooler, stage.reply ticket (.ok []))
  else if spooler.alive then
    (false, { spooler with queue := spooler.queue ++ [⟨ticket, request⟩] }, stage)
  else
    let dropped := env.releaseAll request.buffers stage
    (dropped.1, spooler,
      if dropped.1 then dropped.2 else dropped.2.reply ticket (.error .closed))

/-- Lets waiting requests go, and answers them as closed, with nobody else in between. -/
def abandon : List Order → Stage σ π → Stage σ π
  | [], stage => stage
  | order :: later, stage =>
    abandon later
      ((env.releaseAll order.request.buffers stage).2.reply order.ticket (.error .closed))

/-- The writer carries out the oldest request in the queue. When it dies over it, the queue is disconnected
and everything in it let go in the same step: nobody submits anything in between. `Scene` has the runs in
which the caller does. The gauge of the queue's length, which is set here, is left out. -/
def step (spooler : Spooler) (stage : Stage σ π) : Spooler × Stage σ π :=
  match spooler.queue with
  | [] => (spooler, stage)
  | order :: later =>
    let verdict := env.process order.request spooler.writer stage
    match verdict.reply? with
    | some reply =>
      ({ spooler with writer := verdict.writer, queue := later },
        verdict.stage.reply order.ticket reply)
    | none =>
      (⟨verdict.writer, false, []⟩,
        env.abandon later (verdict.stage.reply order.ticket (.error .closed)))

/-- The writer takes so many steps. -/
def steps : Nat → Spooler → Stage σ π → Spooler × Stage σ π
  | 0, spooler, stage => (spooler, stage)
  | n + 1, spooler, stage =>
    let next := env.step spooler stage
    steps n next.1 next.2

/-- The writer carries out everything in the queue. -/
def settle (spooler : Spooler) (stage : Stage σ π) : Spooler × Stage σ π :=
  env.steps spooler.queue.length spooler stage

/-- Ends a spooler after everything in the queue, and hands the file back. There is nothing to hand
back once the writer is dead. -/
def close (spooler : Spooler) (stage : Stage σ π) : Except SpillError Unit × Stage σ π :=
  let settled := env.settle spooler stage
  if settled.1.alive then (.ok (), settled.2.note (.exiting settled.1.writer.cursor))
  else (.error .closed, settled.2)

/-- Gives a spooler up after everything in the queue. -/
def discard (spooler : Spooler) (stage : Stage σ π) : Stage σ π :=
  let settled := env.settle spooler stage
  settled.2.note (if settled.1.alive then .exiting settled.1.writer.cursor else .crashed)

end Surroundings
end Spillway
