import Spillway.Spooler
/-!
Work side by side. All that a writer does to its stage is done by a few deeds: it calls the file, lets
buffers go, counts and reports. If every single deed is answered alike on two stages that are related,
and leaves them related, then so does all work that is made of such deeds. The two writers may differ
in what work never looks at. There is one lemma for each function of the writer, up to `process`, so
that two spoolers can be compared by looking at single deeds only.
-/

namespace Spillway

variable {σ τ π ρ : Type}

/-- What is let go, counted and reported on related stages is answered alike, and leaves them
related. -/
structure Surroundings.Abreast (left : Surroundings σ π) (right : Surroundings τ ρ)
    (R : Stage σ π → Stage τ ρ → Prop) : Prop where
  release : ∀ {a b}, R a b → ∀ buffer,
    (right.release buffer b).1 = (left.release buffer a).1 ∧
      R (left.release buffer a).2 (right.release buffer b).2
  note : ∀ {a b}, R a b → ∀ notice, R (a.note notice) (b.note notice)
  count : ∀ {a b}, R a b → ∀ instrument amount,
    R (a.count instrument amount) (b.count instrument amount)
  crash : ∀ {a b}, R a b → R a.crash b.crash

/-- Writes and cuts on related stages are answered alike as well, and leave them related. -/
structure Surroundings.Tandem (left : Surroundings σ π) (right : Surroundings τ ρ)
    (R : Stage σ π → Stage τ ρ → Prop) : Prop extends Abreast left right R where
  write : ∀ {a b}, R a b → ∀ slices position,
    (right.writeOn slices position b).1 = (left.writeOn slices position a).1 ∧
      R (left.writeOn slices position a).2 (right.writeOn slices position b).2
  truncate : ∀ {a b}, R a b → ∀ length,
    (right.truncateOn length b).1 = (left.truncateOn length a).1 ∧
      R (left.truncateOn length a).2 (right.truncateOn length b).2

/-- And so are syncs. -/
structure Surroundings.Lockstep (left : Surroundings σ π) (right : Surroundings τ ρ)
    (R : Stage σ π → Stage τ ρ → Prop) : Prop extends Tandem left right R where
  sync : ∀ {a b}, R a b →
    (right.syncOn b).1 = (left.syncOn a).1 ∧ R (left.syncOn a).2 (right.syncOn b).2

/-- A change of writers in what no work looks at. -/
structure Writer.Aside (change : Writer → Writer) : Prop where
  cursor : ∀ writer, (change writer).cursor = writer.cursor
  poisoned : ∀ writer, (change writer).poisoned = writer.poisoned
  frames : ∀ writer, (change writer).settings.framesPerWrite = writer.settings.framesPerWrite
  advance : ∀ writer bytes, (change writer).advance bytes = change (writer.advance bytes)
  poison : ∀ writer,
    { change writer with poisoned := true } = change { writer with poisoned := true }

/-- Transfers that ended alike, on related stages. -/
structure Transfer.Tandem (R : Stage σ π → Stage τ ρ → Prop) (left : Transfer σ π)
    (right : Transfer τ ρ) : Prop where
  finish : right.finish = left.finish
  written : right.written = left.written
  stage : R left.stage right.stage

structure Commit.Tandem (R : Stage σ π → Stage τ ρ → Prop) (left : Commit σ π)
    (right : Commit τ ρ) : Prop where
  bytes : right.bytes = left.bytes
  crashed : right.crashed = left.crashed
  stage : R left.stage right.stage

/-- Pieces of work that ended alike, on related stages, by writers that differ by a change. -/
structure Work.Tandem (R : Stage σ π → Stage τ ρ → Prop) (change : Writer → Writer)
    (left : Work σ π) (right : Work τ ρ) : Prop where
  outcome : right.outcome = left.outcome
  writer : right.writer = change left.writer
  stage : R left.stage right.stage

structure Verdict.Tandem (R : Stage σ π → Stage τ ρ → Prop) (change : Writer → Writer)
    (left : Verdict σ π) (right : Verdict τ ρ) : Prop where
  reply : right.reply? = left.reply?
  writer : right.writer = change left.writer
  stage : R left.stage right.stage

theorem Writer.aside_id : Writer.Aside id :=
  ⟨fun _ => rfl, fun _ => rfl, fun _ => rfl, fun _ _ => rfl, fun _ => rfl⟩

namespace Surroundings.Abreast

variable {left : Surroundings σ π} {right : Surroundings τ ρ} {R : Stage σ π → Stage τ ρ → Prop}
  {a : Stage σ π} {b : Stage τ ρ}

theorem tandem_releaseAll (abreast : left.Abreast right R) (same : R a b) (buffers : List Buffer) :
    (right.releaseAll buffers b).1 = (left.releaseAll buffers a).1 ∧
      R (left.releaseAll buffers a).2 (right.releaseAll buffers b).2 := by
  induction buffers generalizing a b with
  | nil => exact ⟨rfl, same⟩
  | cons buffer rest ih =>
    obtain ⟨first, handed⟩ := abreast.release same buffer
    obtain ⟨later, all⟩ := ih handed
    exact ⟨by simp only [Pool.releaseAll, first, later], all⟩

theorem tandem_commit (abreast : left.Abreast right R) (same : R a b) (written committed : Nat)
    (batch : List Buffer) :
    (left.commit written committed batch a).Tandem R (right.commit written committed batch b) := by
  induction batch generalizing committed a b with
  | nil => exact ⟨rfl, rfl, same⟩
  | cons buffer rest ih =>
    obtain ⟨alike, handed⟩ := abreast.release same buffer
    simp only [commit, alike]
    split
    · obtain ⟨crashed, dropped⟩ := abreast.tandem_releaseAll same (buffer :: rest)
      exact ⟨rfl, crashed, dropped⟩
    · split
      · exact ⟨rfl, rfl, (abreast.tandem_releaseAll handed rest).2⟩
      · exact ih handed _

variable {change : Writer → Writer}

theorem tandem_settleBatch (abreast : left.Abreast right R) (aside : Writer.Aside change)
    (same : R a b) (batch : List Buffer) (written : Nat) (outcome : Outcome) (writer : Writer) :
    (left.settleBatch batch written outcome writer a).Tandem R change
      (right.settleBatch batch written outcome (change writer) b) := by
  obtain ⟨bytes, crashed, committed⟩ := abreast.tandem_commit same written 0 batch
  simp only [settleBatch, bytes, crashed, aside.advance]
  split
  · exact ⟨rfl, rfl, committed⟩
  · exact ⟨rfl, rfl, abreast.count committed _ _⟩

theorem tandem_refuse (abreast : left.Abreast right R) (change : Writer → Writer) (same : R a b)
    (request : Request) (error : SpillError) (writer : Writer) :
    (left.refuse request error writer a).Tandem R change
      (right.refuse request error (change writer) b) := by
  obtain ⟨alike, dropped⟩ := abreast.tandem_releaseAll same request.buffers
  exact ⟨by simp only [refuse, alike], rfl, dropped⟩

theorem tandem_countFailure (abreast : left.Abreast right R) (same : R a b) (request : Request)
    (start bytes : Nat) (error : SpillError) :
    R (a.countFailure request start bytes error) (b.countFailure request start bytes error) :=
  abreast.note (abreast.count same _ _) _

theorem tandem_countSuccess (abreast : left.Abreast right R) (same : R a b) (request : Request) :
    R (a.countSuccess request) (b.countSuccess request) :=
  abreast.count (abreast.count (abreast.count same _ _) _ _) _ _

end Surroundings.Abreast

namespace Surroundings.Tandem

variable {left : Surroundings σ π} {right : Surroundings τ ρ} {R : Stage σ π → Stage τ ρ → Prop}
  {a : Stage σ π} {b : Stage τ ρ}

theorem tandem_writeOn (tandem : left.Tandem right R) (same : R a b) {slices : List Extent}
    {position : Nat} {answer : Answer Nat} {after : Stage σ π}
    (call : left.writeOn slices position a = (answer, after)) :
    ∃ other, right.writeOn slices position b = (answer, other) ∧ R after other := by
  obtain ⟨alike, later⟩ := tandem.write same slices position
  rw [call] at alike later
  exact ⟨_, Prod.ext alike rfl, later⟩

theorem tandem_truncateOn (tandem : left.Tandem right R) (same : R a b) {length : Nat}
    {answer : Answer Unit} {after : Stage σ π} (call : left.truncateOn length a = (answer, after)) :
    ∃ other, right.truncateOn length b = (answer, other) ∧ R after other := by
  obtain ⟨alike, later⟩ := tandem.truncate same length
  rw [call] at alike later
  exact ⟨_, Prod.ext alike rfl, later⟩

theorem tandem_transferFrom (tandem : left.Tandem right R) (offset before : Nat)
    (slices : List Extent) (taken : Nat) (same : R a b) :
    (left.transferFrom offset before slices taken a).Tandem R
      (right.transferFrom offset before slices taken b) := by
  fun_induction left.transferFrom offset before slices taken a generalizing b with
  | case1 slices taken a none =>
    rw [Store.transferFrom, if_pos none]
    exact ⟨rfl, rfl, same⟩
  | case2 slices taken a some overflow =>
    rw [Store.transferFrom, if_neg some, overflow]
    exact ⟨rfl, rfl, tandem.crash same⟩
  | case3 slices taken a some position found after call =>
    obtain ⟨other, call', later⟩ := tandem.tandem_writeOn same call
    rw [right.transferFrom_write some found call']
    exact ⟨rfl, rfl, later⟩
  | case4 slices taken a some position found failure after call interrupted ih =>
    obtain ⟨other, call', later⟩ := tandem.tandem_writeOn same call
    rw [right.transferFrom_write some found call']
    simp only [if_pos interrupted]
    exact ih later
  | case5 slices taken a some position found failure after call fatal =>
    obtain ⟨other, call', later⟩ := tandem.tandem_writeOn same call
    rw [right.transferFrom_write some found call']
    simp only [if_neg fatal]
    exact ⟨rfl, rfl, later⟩
  | case6 slices taken a some position found after call =>
    obtain ⟨other, call', later⟩ := tandem.tandem_writeOn same call
    rw [right.transferFrom_write some found call']
    exact ⟨rfl, rfl, later⟩
  | case7 slices taken a some position found n after call nonzero overflow =>
    obtain ⟨other, call', later⟩ := tandem.tandem_writeOn same call
    rw [right.transferFrom_write some found call']
    simp only [if_neg nonzero, if_pos overflow]
    exact ⟨rfl, rfl, tandem.crash later⟩
  | case8 slices taken a some position found n after call nonzero counted overclaimed =>
    obtain ⟨other, call', later⟩ := tandem.tandem_writeOn same call
    rw [right.transferFrom_write some found call']
    simp only [if_neg nonzero, if_neg counted, if_pos overclaimed]
    exact ⟨rfl, rfl, tandem.crash later⟩
  | case9 slices taken a some position found n after call nonzero counted within ih =>
    obtain ⟨other, call', later⟩ := tandem.tandem_writeOn same call
    rw [right.transferFrom_write some found call']
    simp only [if_neg nonzero, if_neg counted, if_neg within]
    exact ih later

variable {change : Writer → Writer}

theorem tandem_writeBatch (tandem : left.Tandem right R) (aside : Writer.Aside change)
    (same : R a b) (batch : List Buffer) (writer : Writer) :
    (left.writeBatch batch writer a).Tandem R change
      (right.writeBatch batch (change writer) b) := by
  unfold writeBatch
  cases batch.mapM Buffer.encode with
  | error error =>
    obtain ⟨alike, dropped⟩ := tandem.tandem_releaseAll same batch
    exact ⟨by simp only [alike], rfl, dropped⟩
  | ok frames =>
    obtain ⟨finish, written, moved⟩ := tandem.tandem_transferFrom writer.cursor 0
      (frames.flatMap Frame.slices) 0 same
    simp only [Store.transfer, aside.cursor, finish, written]
    generalize left.transferFrom writer.cursor 0 (frames.flatMap Frame.slices) 0 a = transfer
      at finish written moved ⊢
    have noted := tandem.note moved (.wrote transfer.written batch.length writer.cursor)
    cases transfer.finish with
    | crashed => exact ⟨rfl, rfl, (tandem.tandem_releaseAll moved batch).2⟩
    | failed failure => exact tandem.tandem_settleBatch aside noted batch _ _ writer
    | done value => exact tandem.tandem_settleBatch aside noted batch _ _ writer

theorem tandem_writeBatches (tandem : left.Tandem right R) (aside : Writer.Aside change)
    (same : R a b) (batches : List (List Buffer)) (writer : Writer) :
    (left.writeBatches batches writer a).Tandem R change
      (right.writeBatches batches (change writer) b) := by
  induction batches generalizing writer a b with
  | nil => exact ⟨rfl, rfl, same⟩
  | cons batch later ih =>
    obtain ⟨outcome, moved, after⟩ := tandem.tandem_writeBatch aside same batch writer
    simp only [writeBatches, outcome, moved]
    cases (left.writeBatch batch writer a).outcome with
    | done => exact ih after _
    | failed error =>
      obtain ⟨alike, dropped⟩ := tandem.tandem_releaseAll after later.flatten
      exact ⟨by simp only [alike], rfl, dropped⟩
    | crashed =>
      obtain ⟨alike, dropped⟩ := tandem.tandem_releaseAll after later.flatten
      exact ⟨by simp only [alike], rfl, dropped⟩

theorem tandem_writeRequest (tandem : left.Tandem right R) (aside : Writer.Aside change)
    (same : R a b) (request : Request) (writer : Writer) :
    (left.writeRequest request writer a).Tandem R change
      (right.writeRequest request (change writer) b) := by
  rw [writeRequest, writeRequest, aside.frames]
  exact tandem.tandem_writeBatches aside same _ writer

theorem tandem_repair (tandem : left.Tandem right R) (aside : Writer.Aside change) (same : R a b)
    (writer : Writer) :
    (right.repair (change writer) b).1 = (left.repair writer a).1 ∧
      (right.repair (change writer) b).2.1 = change (left.repair writer a).2.1 ∧
      R (left.repair writer a).2.2 (right.repair (change writer) b).2.2 := by
  cases call : left.truncateOn writer.cursor a with
  | mk answer after =>
    obtain ⟨other, call', cut⟩ := tandem.tandem_truncateOn same call
    simp only [repair, aside.cursor, call, call']
    cases answer with
    | done value => exact ⟨rfl, rfl, tandem.note cut _⟩
    | failed failure =>
      refine ⟨rfl, ?_, tandem.note cut _⟩
      simp only [← aside.poison, aside.cursor]
    | crashed => exact ⟨rfl, rfl, cut⟩

end Surroundings.Tandem

namespace Surroundings.Lockstep

variable {left : Surroundings σ π} {right : Surroundings τ ρ} {R : Stage σ π → Stage τ ρ → Prop}
  {a : Stage σ π} {b : Stage τ ρ} {change : Writer → Writer}

theorem tandem_syncOn (lockstep : left.Lockstep right R) (same : R a b) {answer : Answer Unit}
    {after : Stage σ π} (call : left.syncOn a = (answer, after)) :
    ∃ other, right.syncOn b = (answer, other) ∧ R after other := by
  obtain ⟨alike, later⟩ := lockstep.sync same
  rw [call] at alike later
  exact ⟨_, Prod.ext alike rfl, later⟩

theorem tandem_carryOut (lockstep : left.Lockstep right R) (aside : Writer.Aside change)
    (each : ∀ writer, (change writer).settings.syncEach = writer.settings.syncEach) (same : R a b)
    (request : Request) (entries : List Entry) (writer : Writer) :
    (left.carryOut request entries writer a).Tandem R change
      (right.carryOut request entries (change writer) b) := by
  have tandem := lockstep.toTandem
  have wrote := tandem.tandem_writeRequest aside (tandem.note same
    (.spilling request.items.length request.framedSize writer.cursor)) request writer
  simp only [carryOut, aside.cursor]
  generalize left.writeRequest request writer
    (a.note (.spilling request.items.length request.framedSize writer.cursor)) = work at wrote ⊢
  obtain ⟨outcome, moved, after⟩ := wrote
  simp only [outcome, moved, aside.cursor, each]
  cases work.outcome with
  | crashed => exact ⟨rfl, rfl, after⟩
  | failed error =>
    obtain ⟨alike, repaired, cut⟩ := tandem.tandem_repair aside
      (tandem.tandem_countFailure after request writer.cursor
        (work.writer.cursor - writer.cursor) error) work.writer
    exact ⟨by simp only [alike], repaired, cut⟩
  | done =>
    simp only
    split
    · cases call : left.syncOn work.stage with
      | mk answer last =>
        obtain ⟨other, call', synced⟩ := lockstep.tandem_syncOn after call
        rw [call']
        cases answer with
        | crashed => exact ⟨rfl, rfl, synced⟩
        | failed failure => exact ⟨rfl, rfl, tandem.tandem_countFailure synced _ _ _ _⟩
        | done value => exact ⟨rfl, rfl, tandem.tandem_countSuccess synced _⟩
    · exact ⟨rfl, rfl, tandem.tandem_countSuccess after _⟩

theorem tandem_process (lockstep : left.Lockstep right R) (aside : Writer.Aside change)
    (each : ∀ writer, (change writer).settings.syncEach = writer.settings.syncEach) (same : R a b)
    (request : Request) (writer : Writer) :
    (left.process request writer a).Tandem R change
      (right.process request (change writer) b) := by
  have tandem := lockstep.toTandem
  simp only [process, aside.poisoned, aside.cursor]
  split
  · exact tandem.tandem_refuse change same request .poisoned writer
  · split
    · exact tandem.tandem_refuse change same request _ writer
    · split
      · exact ⟨rfl, rfl, (tandem.tandem_releaseAll (tandem.crash same) request.buffers).2⟩
      · exact lockstep.tandem_carryOut aside each same request _ writer

end Surroundings.Lockstep
end Spillway
