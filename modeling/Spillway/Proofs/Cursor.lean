import Spillway.Proofs.Answers
import Spillway.Proofs.Completion
/-!
The cursor only moves on, and nothing happens before it. No trust in the file is needed for this: a
journal says how far the writer had come at each of its moments (`cursorAt`), and how much the file
says it took of the batch at hand (`pendingIn`). Every write is made behind the cursor by what is
pending, every cut exactly at the cursor, and every report names the cursor as it is. `Writer.Books`
says this of a writer and the stage it works on. There is one lemma about it for each function of the
writer, up to `Reaches.booked` for whole runs.
-/

namespace Spillway

variable {σ π : Type}

/-- The bytes of whole frames that are counted as written in a journal. -/
def writtenIn : List (Event σ) → Nat
  | [] => 0
  | .counted .bytesWritten amount :: older => writtenIn older + amount
  | _ :: older => writtenIn older

/-- The bytes that the file took, as far as it says so, since frames were last counted as written. That
is done once for each batch, when it is settled. -/
def pendingIn : List (Event σ) → Nat
  | [] => 0
  | .counted .bytesWritten _ :: _ => 0
  | .called call :: older => pendingIn older + call.taken
  | _ :: older => pendingIn older

/-- Where the next frame goes after the events of a journal, for a writer that began at `start`. -/
def cursorAt (start : Nat) (journal : List (Event σ)) : Nat := start + writtenIn journal

/-- A report names the cursor as it is, and what is pending, where it names them. -/
def Notice.Agrees (cursor pending : Nat) : Notice → Prop
  | .starting c _ | .exiting c | .spilling _ _ c | .truncated c | .unrepaired c _ => c = cursor
  | .wrote bytes _ c => c = cursor ∧ bytes = pending
  | .failed _ start bytes _ => start + bytes = cursor
  | .crashed => True

/-- If the last thing that happened is a write, it was made behind the cursor by what was pending; if
it is a cut, it was made at the cursor; if it is a report, it agrees with both. -/
def InPlace (start : Nat) : List (Event σ) → Prop
  | .called (.write position _ _) :: older => position = cursorAt start older + pendingIn older
  | .called (.truncate length _) :: older => length = cursorAt start older
  | .noted notice :: older => notice.Agrees (cursorAt start older) (pendingIn older)
  | _ => True

/-- A writer that began at `start` stands where the journal says, for everyone to see, with so many
bytes pending, and everything so far happened in its place. -/
structure Writer.Books (writer : Writer) (start pending : Nat) (journal : List (Event σ)) : Prop where
  cursor : writer.cursor = cursorAt start journal
  progress : writer.progress = ⟨writer.cursor, writtenIn journal⟩
  pending : pendingIn journal = pending
  inPlace : AtEveryMoment (InPlace start) journal

/-- Work after which the books are in order. Only a crash leaves something pending. -/
def Work.Booked (start : Nat) (work : Work σ π) : Prop :=
  ∃ pending, work.writer.Books start pending work.stage.journal ∧
    (work.outcome ≠ .crashed → pending = 0)

def Verdict.Booked (start : Nat) (verdict : Verdict σ π) : Prop :=
  ∃ pending, verdict.writer.Books start pending verdict.stage.journal ∧
    (verdict.reply?.isSome → pending = 0)

def Session.Booked (start : Nat) (s : Session σ π) : Prop :=
  ∃ pending, s.spooler.writer.Books start pending s.stage.journal ∧
    (s.spooler.alive = true → pending = 0)

theorem writtenIn_append (new old : List (Event σ)) :
    writtenIn (new ++ old) = writtenIn old + writtenIn new := by
  induction new with
  | nil => rfl
  | cons event new ih =>
    cases event with
    | counted instrument amount =>
      cases instrument <;> simp only [List.cons_append, writtenIn, ih, Nat.add_assoc]
    | called _ | released _ _ _ | noted _ | replied _ _ | crashed => exact ih

theorem writtenIn_releaseAll (pool : Pool π) (buffers : List Buffer) (stage : Stage σ π) :
    writtenIn (pool.releaseAll buffers stage).2.journal = writtenIn stage.journal := by
  induction buffers generalizing stage with
  | nil => rfl
  | cons buffer rest ih =>
    rw [Pool.releaseAll, ih, pool.journal_release]
    split <;> rfl

theorem cursorAt_mono (start : Nat) {older journal : List (Event σ)} (earlier : older <:+ journal) :
    cursorAt start older ≤ cursorAt start journal := by
  obtain ⟨new, rfl⟩ := earlier
  simp only [cursorAt, writtenIn_append]
  omega

namespace Writer.Books

variable {writer : Writer} {start pending : Nat} {journal : List (Event σ)}

/-- One more event that is in its place and counts no bytes. -/
theorem cons (books : writer.Books start pending journal) {event : Event σ} {later : Nat}
    (written : writtenIn (event :: journal) = writtenIn journal)
    (left : pendingIn (event :: journal) = later) (here : InPlace start (event :: journal)) :
    writer.Books start later (event :: journal) := by
  obtain ⟨cursor, progress, -, inPlace⟩ := books
  refine ⟨?_, ?_, left, atEveryMoment_cons.mpr ⟨here, inPlace⟩⟩
  · rw [cursor, cursorAt, cursorAt, written]
  · rw [progress, written]

theorem crash (books : writer.Books start pending journal) :
    writer.Books start pending (.crashed :: journal) := books.cons rfl books.pending trivial

theorem reply (books : writer.Books start pending journal) (ticket : Nat) (reply : Reply) :
    writer.Books start pending (.replied ticket reply :: journal) :=
  books.cons rfl books.pending trivial

theorem released (books : writer.Books start pending journal) (owner : Owner) (segment : Segment)
    (file : σ) : writer.Books start pending (.released owner segment file :: journal) :=
  books.cons rfl books.pending trivial

theorem note (books : writer.Books start pending journal) {notice : Notice}
    (agrees : notice.Agrees writer.cursor pending) :
    writer.Books start pending (.noted notice :: journal) := by
  rw [books.cursor, ← books.pending] at agrees
  exact books.cons rfl books.pending agrees

theorem called (books : writer.Books start pending journal) {call : Call}
    (here : InPlace start (.called call :: journal)) :
    writer.Books start (pending + call.taken) (.called call :: journal) :=
  books.cons rfl (by rw [pendingIn, books.pending]) here

theorem count (books : writer.Books start pending journal) {instrument : Instrument}
    (other : instrument ≠ .bytesWritten) (amount : Nat) :
    writer.Books start pending (.counted instrument amount :: journal) := by
  cases instrument with
  | bytesWritten => exact absurd rfl other
  | buffersSpilled | requests | failedRequests | writeLatency | queueLength =>
    exact books.cons rfl books.pending trivial

/-- Whole frames are counted when the writer moves on by them, and nothing is pending any more. -/
theorem advance (books : writer.Books start pending journal) (bytes : Nat) :
    (writer.advance bytes).Books start 0 (.counted .bytesWritten bytes :: journal) := by
  obtain ⟨cursor, progress, -, inPlace⟩ := books
  refine ⟨?_, ?_, rfl, atEveryMoment_cons.mpr ⟨trivial, inPlace⟩⟩
  · simp only [Writer.advance, cursorAt, writtenIn, cursor, Nat.add_assoc]
  · simp only [Writer.advance, writtenIn, progress]

theorem poison (books : writer.Books start pending journal) :
    { writer with poisoned := true }.Books start pending journal :=
  ⟨books.cursor, books.progress, books.pending, books.inPlace⟩

theorem release {stage : Stage σ π} (books : writer.Books start pending stage.journal)
    (pool : Pool π) (buffer : Buffer) :
    writer.Books start pending (pool.release buffer stage).2.journal := by
  have handed := books.released buffer.owner buffer.segment stage.file
  rw [pool.journal_release]
  split
  · exact handed.crash
  · exact handed

theorem releaseAll {stage : Stage σ π} (books : writer.Books start pending stage.journal)
    (pool : Pool π) (buffers : List Buffer) :
    writer.Books start pending (pool.releaseAll buffers stage).2.journal := by
  induction buffers generalizing stage with
  | nil => exact books
  | cons buffer rest ih => exact ih (books.release pool buffer)

theorem countFailure {stage : Stage σ π} (books : writer.Books start pending stage.journal)
    (request : Request) {first bytes : Nat} (reached : first + bytes = writer.cursor)
    (error : SpillError) :
    writer.Books start pending (stage.countFailure request first bytes error).journal := by
  have counted := books.count (show Instrument.failedRequests ≠ .bytesWritten by decide) 1
  exact counted.note reached

theorem countSuccess {stage : Stage σ π} (books : writer.Books start pending stage.journal)
    (request : Request) :
    writer.Books start pending (stage.countSuccess request).journal := by
  have requests := books.count (show Instrument.requests ≠ .bytesWritten by decide) 1
  have buffers := requests.count (show Instrument.buffersSpilled ≠ .bytesWritten by decide)
    request.items.length
  exact buffers.count (show Instrument.writeLatency ≠ .bytesWritten by decide) 1

end Writer.Books

namespace Surroundings

variable (env : Surroundings σ π) {start : Nat} {writer : Writer}

/-! ## A transfer, a batch, a request -/

theorem books_writeOn {pending position : Nat} {slices : List Extent} {answer : Answer Nat}
    {stage after : Stage σ π} (books : writer.Books start pending stage.journal)
    (found : Word.add? writer.cursor pending = some position)
    (call : env.writeOn slices position stage = (answer, after)) :
    writer.Books start (pending + (Call.write position slices answer).taken) after.journal := by
  obtain ⟨rfl, -⟩ := Word.add?_eq_some_iff.mp found
  cases call
  apply books.called
  rw [InPlace, books.cursor, books.pending]

/-- A transfer that goes on from the cursor, behind what is pending. -/
theorem books_transferFrom {offset : Nat} (before : Nat) (slices : List Extent) {taken : Nat}
    {stage : Stage σ π} (same : writer.cursor = offset) (books : writer.Books start taken stage.journal) :
    ∃ pending, writer.Books start pending
        (env.transferFrom offset before slices taken stage).stage.journal ∧
      ((env.transferFrom offset before slices taken stage).finish ≠ .crashed →
        (env.transferFrom offset before slices taken stage).written = before + pending) := by
  subst same
  fun_induction env.transferFrom writer.cursor before slices taken stage with
  | case1 slices taken stage none => exact ⟨taken, books, fun _ => rfl⟩
  | case2 slices taken stage some overflow => exact ⟨taken, books.crash, by simp⟩
  | case3 slices taken stage some position found after call =>
    exact ⟨_, env.books_writeOn books found call, by simp⟩
  | case4 slices taken stage some position found failure after call interrupted ih =>
    exact ih (env.books_writeOn books found call)
  | case5 slices taken stage some position found failure after call fatal =>
    exact ⟨taken, env.books_writeOn books found call, fun _ => rfl⟩
  | case6 slices taken stage some position found after call =>
    exact ⟨taken, env.books_writeOn books found call, fun _ => rfl⟩
  | case7 slices taken stage some position found n after call nonzero overflow =>
    exact ⟨_, (env.books_writeOn books found call).crash, by simp⟩
  | case8 slices taken stage some position found n after call nonzero counted overclaimed =>
    exact ⟨_, (env.books_writeOn books found call).crash, by simp⟩
  | case9 slices taken stage some position found n after call nonzero counted within ih =>
    exact ih (env.books_writeOn books found call)

theorem books_commit {pending : Nat} (written committed : Nat) (batch : List Buffer)
    {stage : Stage σ π} (books : writer.Books start pending stage.journal) :
    writer.Books start pending (env.commit written committed batch stage).stage.journal := by
  rw [(env.commit_releases written committed batch stage).2]
  exact books.releaseAll env.toPool batch

theorem booked_settleBatch {pending : Nat} (batch : List Buffer) (written : Nat) (outcome : Outcome)
    {stage : Stage σ π} (books : writer.Books start pending stage.journal) :
    (env.settleBatch batch written outcome writer stage).Booked start := by
  have committed := env.books_commit written 0 batch books
  simp only [settleBatch]
  split
  · exact ⟨pending, committed, by simp⟩
  · exact ⟨0, committed.advance _, fun _ => rfl⟩

theorem booked_writeBatch (batch : List Buffer) {stage : Stage σ π}
    (books : writer.Books start 0 stage.journal) :
    (env.writeBatch batch writer stage).Booked start := by
  unfold writeBatch
  cases batch.mapM Buffer.encode with
  | error error => exact ⟨0, books.releaseAll env.toPool batch, fun _ => rfl⟩
  | ok frames =>
    obtain ⟨pending, moved, written⟩ := env.books_transferFrom 0
      (frames.flatMap Frame.slices) rfl books
    simp only [Store.transfer]
    generalize env.transferFrom writer.cursor 0 (frames.flatMap Frame.slices) 0 stage = transfer
      at moved written
    -- What was taken for the batch is reported before anything of it is let go.
    have noted : transfer.finish ≠ .crashed → writer.Books start pending
        (transfer.stage.note (.wrote transfer.written batch.length writer.cursor)).journal :=
      fun calm => moved.note ⟨rfl, by rw [written calm, Nat.zero_add]⟩
    cases finish : transfer.finish with
    | crashed => exact ⟨pending, moved.releaseAll env.toPool batch, by simp⟩
    | failed failure => exact env.booked_settleBatch batch _ _ (noted (by simp [finish]))
    | done value => exact env.booked_settleBatch batch _ _ (noted (by simp [finish]))

theorem booked_writeBatches (batches : List (List Buffer)) {stage : Stage σ π}
    (books : writer.Books start 0 stage.journal) :
    (env.writeBatches batches writer stage).Booked start := by
  fun_induction env.writeBatches batches writer stage with
  | case1 writer stage => exact ⟨0, books, fun _ => rfl⟩
  | case2 batch later writer stage work done ih =>
    obtain ⟨pending, first, settled⟩ := env.booked_writeBatch batch books
    obtain rfl := settled (by rw [done]; simp)
    exact ih first
  | case3 batch later writer stage work dropped fails =>
    obtain ⟨pending, first, settled⟩ := env.booked_writeBatch batch books
    refine ⟨pending, first.releaseAll env.toPool later.flatten, fun calm => settled ?_⟩
    intro crashed
    apply calm
    simp [work, crashed]

theorem booked_spill (request : Request) {stage : Stage σ π}
    (books : writer.Books start 0 stage.journal) : (env.spill request writer stage).Booked start := by
  have reported : writer.Books start 0
      (stage.note (.spilling request.items.length request.framedSize writer.cursor)).journal :=
    books.note rfl
  exact env.booked_writeBatches _ reported

theorem booked_repair {stage : Stage σ π} (books : writer.Books start 0 stage.journal) :
    (env.repair writer stage).2.1.Books start 0 (env.repair writer stage).2.2.journal := by
  let cut := Call.truncate writer.cursor (env.truncateOn writer.cursor stage).1
  have here : InPlace start (.called cut :: stage.journal) := books.cursor
  have called : writer.Books start 0 (env.truncateOn writer.cursor stage).2.journal :=
    books.called here
  unfold repair
  cases truncated : env.truncateOn writer.cursor stage with
  | mk answer after =>
    rw [truncated] at called
    cases answer with
    | done value => exact called.note rfl
    | failed failure => exact called.poison.note rfl
    | crashed => exact called

theorem booked_refuse (request : Request) (error : SpillError) {stage : Stage σ π}
    (books : writer.Books start 0 stage.journal) :
    (env.refuse request error writer stage).Booked start :=
  ⟨0, books.releaseAll env.toPool request.buffers, fun _ => rfl⟩

theorem booked_carryOut (request : Request) (entries : List Entry) {stage : Stage σ π}
    (books : writer.Books start 0 stage.journal) :
    (env.carryOut request entries writer stage).Booked start := by
  have wrote : (env.writeRequest request writer
      (stage.note (.spilling request.items.length request.framedSize writer.cursor))).Booked start :=
    env.booked_spill request books
  have moved : writer.cursor ≤ (env.writeRequest request writer
      (stage.note (.spilling request.items.length request.framedSize writer.cursor))).writer.cursor :=
    (env.further_writeBatches _ writer _).cursor
  simp only [carryOut]
  generalize env.writeRequest request writer
    (stage.note (.spilling request.items.length request.framedSize writer.cursor)) = work
    at wrote moved
  obtain ⟨pending, after, settled⟩ := wrote
  have further : writer.cursor + (work.writer.cursor - writer.cursor) = work.writer.cursor :=
    Nat.add_sub_cancel' moved
  cases outcome : work.outcome with
  | crashed => exact ⟨pending, after, by simp⟩
  | failed error =>
    obtain rfl := settled (by rw [outcome]; simp)
    exact ⟨0, env.booked_repair (after.countFailure request further error), fun _ => rfl⟩
  | done =>
    obtain rfl := settled (by rw [outcome]; simp)
    simp only
    split
    · have here : InPlace start (.called (.sync (env.syncOn work.stage).1) :: work.stage.journal) :=
        trivial
      have called : work.writer.Books start 0 (env.syncOn work.stage).2.journal :=
        after.called here
      cases synced : env.syncOn work.stage with
      | mk answer last =>
        rw [synced] at called
        cases answer with
        | crashed => exact ⟨0, called, fun _ => rfl⟩
        | failed failure => exact ⟨0, called.countFailure request further _, fun _ => rfl⟩
        | done value => exact ⟨0, called.countSuccess request, fun _ => rfl⟩
    · exact ⟨0, after.countSuccess request, fun _ => rfl⟩

theorem booked_process (request : Request) {stage : Stage σ π}
    (books : writer.Books start 0 stage.journal) :
    (env.process request writer stage).Booked start := by
  unfold process
  split
  · exact env.booked_refuse request _ books
  · split
    · exact env.booked_refuse request _ books
    · split
      · exact ⟨0, books.crash.releaseAll env.toPool request.buffers, fun _ => rfl⟩
      · exact env.booked_carryOut request _ books

/-! ## Runs -/

theorem books_abandon {pending : Nat} (orders : List Order) {stage : Stage σ π}
    (books : writer.Books start pending stage.journal) :
    writer.Books start pending (env.abandon orders stage).journal := by
  induction orders generalizing stage with
  | nil => exact books
  | cons order later ih =>
    exact ih ((books.releaseAll env.toPool order.request.buffers).reply order.ticket _)

theorem booked_hand (request : Request) {s : Session σ π} (booked : s.Booked start) :
    (env.hand request s).Booked start := by
  obtain ⟨pending, books, settled⟩ := booked
  simp only [hand, submit]
  split
  · exact ⟨pending, books.reply _ _, settled⟩
  · split
    · exact ⟨pending, books, settled⟩
    · have dropped := books.releaseAll env.toPool request.buffers
      split
      · exact ⟨pending, dropped, settled⟩
      · exact ⟨pending, dropped.reply _ _, settled⟩

theorem booked_work {s : Session σ π} (orderly : s.Orderly) (booked : s.Booked start) :
    (env.work s).Booked start := by
  obtain ⟨pending, books, settled⟩ := booked
  simp only [work, step]
  split
  · exact ⟨pending, books, settled⟩
  · rename_i order later queued
    obtain rfl := settled (orderly.alive_of_queue (by simp [queued]))
    obtain ⟨left, after, answered⟩ := env.booked_process order.request books
    split
    · rename_i reply replied
      exact ⟨left, after.reply _ _, fun _ => answered (by rw [replied]; rfl)⟩
    · exact ⟨left, env.books_abandon later (after.reply _ _), by simp⟩

variable {env} {settings : Settings} {file : σ} {pool : π}

/-- The books are in order in every session, from what the file first said its length is. -/
theorem Reaches.booked {s : Session σ π} (reached : env.Reaches settings file pool s) :
    ∃ start, env.length file = .done start ∧ s.Booked start := by
  apply reached.rule
  · intro spooler stage started
    obtain ⟨cursor, length, rfl, rfl⟩ := spooler_start started
    have fresh : (Writer.start settings cursor).Books cursor 0 ([] : List (Event σ)) := by
      refine ⟨rfl, rfl, rfl, fun moment suffix => ?_⟩
      rw [List.suffix_nil.mp suffix]
      trivial
    exact ⟨cursor, length, 0, fresh.note rfl, fun _ => rfl⟩
  · rintro s request - ⟨start, length, booked⟩
    exact ⟨start, length, env.booked_hand request booked⟩
  · rintro s reached ⟨start, length, booked⟩
    exact ⟨start, length, env.booked_work reached.orderly booked⟩
  · rintro s notice parting ⟨start, length, pending, books, settled⟩
    refine ⟨start, length, pending, books.note ?_, settled⟩
    rcases parting with rfl | rfl
    · exact rfl
    · trivial
  · rintro s - ⟨start, length, pending, books, settled⟩
    exact ⟨start, length, pending, books, by simp [Session.shut]⟩

/-- A session whose books are in order is seen to have come as far as its journal says. -/
theorem cursor_of_booked {s : Session σ π} (booked : s.Booked start) :
    s.spooler.writer.cursor = cursorAt start s.stage.journal ∧
      s.spooler.cursor = cursorAt start s.stage.journal := by
  obtain ⟨pending, books, -⟩ := booked
  refine ⟨books.cursor, ?_⟩
  rw [Spooler.cursor, books.progress, ← books.cursor]

/-- What was in its place at every moment was not done before an earlier cursor. -/
theorem above_of_inPlace {journal : List (Event σ)}
    (inPlace : AtEveryMoment (InPlace start) journal) {call : Call} {older earlier : List (Event σ)}
    (moment : .called call :: older <:+ journal) (before : earlier <:+ older) :
    call.Above (cursorAt start earlier) := by
  have here := inPlace _ moment
  have low := cursorAt_mono start before
  cases call with
  | write position slices answer =>
    have position_eq : position = cursorAt start older + pendingIn older := here
    show cursorAt start earlier ≤ position
    omega
  | truncate length answer =>
    have length_eq : length = cursorAt start older := here
    show cursorAt start earlier ≤ length
    omega
  | sync answer => trivial

/-- Whatever the file answers, in every session: each write was made at the cursor of its moment,
behind what the file said it took of the batch at hand; each cut was made at the cursor of its
moment, and each report names it; the cursor that everyone sees is the writer's and what the journal
says, is not below the length that the file claimed at first, and does not fall, whatever happens
next; and so no call was made below where the cursor had been at any moment before. -/
theorem nothing_happens_before_the_cursor {s : Session σ π}
    (reached : env.Reaches settings file pool s) :
    ∃ start, env.length file = .done start ∧
      (∀ position slices answer older,
        .called (.write position slices answer) :: older <:+ s.stage.journal →
          position = cursorAt start older + pendingIn older) ∧
      (∀ length answer older, .called (.truncate length answer) :: older <:+ s.stage.journal →
        length = cursorAt start older) ∧
      (∀ notice older, .noted notice :: older <:+ s.stage.journal →
        notice.Agrees (cursorAt start older) (pendingIn older)) ∧
      s.spooler.cursor = s.spooler.writer.cursor ∧
      s.spooler.cursor = cursorAt start s.stage.journal ∧ start ≤ s.spooler.cursor ∧
      (∀ acts, s.spooler.cursor ≤ (env.run acts s).spooler.cursor) ∧
      (∀ ending, s.spooler.cursor ≤ (env.finish ending s).spooler.cursor) ∧
      ∀ call older earlier, .called call :: older <:+ s.stage.journal → earlier <:+ older →
        call.Above (cursorAt start earlier) := by
  obtain ⟨start, length, booked⟩ := reached.booked
  obtain ⟨kept, seen⟩ := cursor_of_booked booked
  -- Every later session has the same start, and a journal on top of this one.
  have later : ∀ {t : Session σ π}, env.Reaches settings file pool t →
      s.stage.journal <:+ t.stage.journal → s.spooler.cursor ≤ t.spooler.cursor := by
    intro t reached' grown
    obtain ⟨start', length', booked'⟩ := reached'.booked
    obtain rfl : start = start' := by simpa [length] using length'
    rw [seen, (cursor_of_booked booked').2]
    exact cursorAt_mono start grown
  obtain ⟨pending, books, -⟩ := booked
  refine ⟨start, length, fun position slices answer older moment => books.inPlace _ moment,
    fun length answer older moment => books.inPlace _ moment,
    fun notice older moment => books.inPlace _ moment, seen.trans kept.symm, seen, ?_,
    fun acts => later (reached.run acts) (env.suffix_run acts s),
    fun ending => later (.finish ending reached) (env.suffix_finish ending s),
    fun call older earlier moment before => above_of_inPlace books.inPlace moment before⟩
  rw [seen]
  exact Nat.le_add_right _ _

/-- A file of three bytes claims to have a hundred, and takes only five bytes of the first write. A
frame of eleven bytes goes behind the hundred, and nothing happens before them. -/
theorem nothing_happens_before_a_claimed_length :
    let file : Planned Memory :=
      ⟨⟨.ofList [1, 2, 3], false⟩, { Plan.none with script := [.atMost 5], length := some 100 }⟩
    let stage := (exercise.start .standard (.start file ())).2
    let handed :=
      exercise.hand ⟨[threeBytes]⟩ (.fresh ⟨.start .standard 100, true, []⟩ stage)
    let spilt := exercise.work handed
    spilt.spooler.cursor = 111 ∧
      ∀ call older, .called call :: older <:+ spilt.stage.journal → call.Above 100 := by
  intro file stage handed spilt
  have reached : exercise.Reaches .standard file () spilt :=
    .act .step (.act (.submit _) (.start rfl))
  have mild : file.plan.Mild := ⟨by decide, rfl, by decide, rfl⟩
  obtain ⟨entries, moved, after, -, processed, moves, -⟩ := filled_process takes_exercise
    Pool.calm_quiet ⟨[threeBytes]⟩ (.start .standard 100) stage (by decide)
    (fun each => absurd each (by decide)) rfl ⟨rfl, mild⟩ (by decide)
  obtain ⟨start, length, -, -, -, same, -, -, -, -, above⟩ :=
    nothing_happens_before_the_cursor reached
  obtain rfl : 100 = start := Answer.done.inj length
  refine ⟨?_, fun call older moment => above call older [] moment List.nil_suffix⟩
  have queued : handed.spooler.queue = [⟨0, ⟨[threeBytes]⟩⟩] := rfl
  have worked := exercise.work_of_reply queued processed
  have cursor : spilt.spooler.writer = moved := congrArg (fun s => s.spooler.writer) worked
  rw [same, cursor, moves.cursor]
  decide

end Surroundings
end Spillway
