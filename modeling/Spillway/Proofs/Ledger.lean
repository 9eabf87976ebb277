import Spillway.Proofs.Cursor
import Spillway.Proofs.Release
/-!
The accounts of what a spooler has written. Three of them are kept side by side: the progress that
everyone sees, the instrument that counts bytes, and the writer's own cursor. A fourth can be read off
the journal. When the write of a batch has ended, this is reported; then the buffers of the batch go
back one by one; and if nothing crashed over them, those whose frames are whole within what the file
took were committed (`committedIn`). `Tallied` says that a journal counts the bytes of exactly these
frames. It is kept by every batch of every request, wherever a call or a pool crashes, and it holds in
every session.
-/

namespace Spillway

variable {σ π : Type}

/-- A batch whose write has ended, and whose buffers are being let go. -/
structure Settling where
  /-- The bytes that the file took of the batch. -/
  taken : Nat
  frames : Nat
  /-- The buffers that have gone back so far. -/
  gone : Nat

/-- The batch that is being let go at the end of a journal. -/
def settlingIn : List (Event σ) → Option Settling
  | .noted (.wrote bytes frames _) :: _ => some ⟨bytes, frames, 0⟩
  | .released _ _ _ :: older =>
    (settlingIn older).map fun batch => { batch with gone := batch.gone + 1 }
  | _ => none

/-- The buffers of the batch that has just been let go as a whole, as far as their frames are whole
within what the file took. Among `buffers`, which go back in order, they are the last ones gone. -/
def settledIn (buffers : List Buffer) (journal : List (Event σ)) : List Buffer :=
  match settlingIn journal with
  | none => []
  | some batch =>
    if batch.gone = batch.frames then
      let last := (buffers.take (handovers journal).length).drop
        ((handovers journal).length - batch.frames)
      last.take (wholeWithin batch.taken last)
    else []

/-- The buffers that were let go as written by commits that ran to their end: something else than a
crash came next. `buffers` are those that go back, in their order. -/
def committedIn (buffers : List Buffer) : List (Event σ) → List Buffer
  | [] => []
  | event :: older =>
    committedIn buffers older ++ if event.isCrash then [] else settledIn buffers older

/-- A journal counts the bytes of the frames that were committed, and ends while the batch `settling`
is being let go, if there is one. -/
structure Tallied (buffers : List Buffer) (settling : Option Settling) (journal : List (Event σ)) :
    Prop where
  written : writtenIn journal = framesSize (committedIn buffers journal)
  settling : settlingIn journal = settling

/-- The accounts of a writer and of the stage it works on agree, where the file said that it was `start`
bytes long at first, and `buffers` are those that go back, in their order. -/
structure Writer.Balances (writer : Writer) (start : Nat) (buffers : List Buffer)
    (stage : Stage σ π) : Prop where
  /-- Everyone sees the cursor behind all that has been written. -/
  cursor : writer.progress.cursor = start + writer.progress.written
  counted : writer.progress.written = stage.total .bytesWritten
  committed : writer.progress.written = framesSize (committedIn buffers stage.journal)
  own : writer.progress.cursor = writer.cursor

/-- Nothing that is accounted for in a session is taken back in a later one. -/
structure Session.Grows (s later : Session σ π) : Prop where
  cursor : s.spooler.cursor ≤ later.spooler.cursor
  written : s.spooler.written ≤ later.spooler.written
  counted : s.stage.total .bytesWritten ≤ later.stage.total .bytesWritten

/-- An event that counts no bytes and does not report the end of a write. -/
def Event.IsPlain : Event σ → Prop
  | .counted .bytesWritten _ => False
  | .noted (.wrote _ _ _) => False
  | _ => True

theorem total_bytesWritten (stage : Stage σ π) :
    stage.total .bytesWritten = writtenIn stage.journal := by
  unfold Stage.total
  induction stage.journal with
  | nil => rfl
  | cons event older ih =>
    rw [List.map_cons, Word.total_cons, ih]
    cases event with
    | counted instrument amount => cases instrument <;> simp [writtenIn, Nat.add_comm]
    | called _ | released _ _ _ | noted _ | replied _ _ | crashed => simp [writtenIn]

theorem Event.IsTransfer.isPlain {event : Event σ} (transfer : event.IsTransfer) :
    event.IsPlain := by
  cases event with
  | called _ | crashed => trivial
  | released _ _ _ | counted _ _ | noted _ | replied _ _ => exact transfer.elim

theorem Event.IsPlain.writtenIn_cons {event : Event σ} (plain : event.IsPlain)
    (journal : List (Event σ)) : writtenIn (event :: journal) = writtenIn journal := by
  cases event with
  | counted instrument amount =>
    cases instrument with
    | bytesWritten => exact plain.elim
    | buffersSpilled | requests | failedRequests | writeLatency | queueLength => rfl
  | called _ | released _ _ _ | noted _ | replied _ _ | crashed => rfl

/-- A batch is not settled before all its buffers are gone. -/
theorem settledIn_of_lt {journal : List (Event σ)} {batch : Settling}
    (settling : settlingIn journal = some batch) (early : batch.gone < batch.frames)
    (buffers : List Buffer) : settledIn buffers journal = [] := by
  simp only [settledIn, settling, if_neg (Nat.ne_of_lt early)]

/-- A batch whose buffers are all gone is settled by the frames that are whole within what was taken. -/
theorem settledIn_of_gone {journal : List (Event σ)} {buffers batch : List Buffer}
    {taken before : Nat} (settling : settlingIn journal = some ⟨taken, batch.length, batch.length⟩)
    (handed : (handovers journal).length = before + batch.length)
    (next : batch <+: buffers.drop before) :
    settledIn buffers journal = batch.take (wholeWithin taken batch) := by
  have last : (buffers.take (before + batch.length)).drop before = batch := by
    rw [List.drop_take, Nat.add_sub_cancel_left, ← List.prefix_iff_eq_take.mp next]
  simp only [settledIn, settling, if_true, handed, Nat.add_sub_cancel, last]

theorem settledIn_append {buffers : List Buffer} {journal : List (Event σ)}
    (inside : (handovers journal).length ≤ buffers.length) (more : List Buffer) :
    settledIn (buffers ++ more) journal = settledIn buffers journal := by
  simp only [settledIn, List.take_append_of_le_length inside]

theorem committedIn_append {buffers : List Buffer} {journal : List (Event σ)}
    (inside : (handovers journal).length ≤ buffers.length) (more : List Buffer) :
    committedIn (buffers ++ more) journal = committedIn buffers journal := by
  induction journal with
  | nil => rfl
  | cons event older ih =>
    have before : (handovers older).length ≤ buffers.length := by
      have grown := handovers_append [event] older
      rw [List.singleton_append] at grown
      rw [grown, List.length_append] at inside
      omega
    rw [committedIn, committedIn, ih before, settledIn_append before]

namespace Tallied

variable {buffers : List Buffer} {settling : Option Settling} {journal : List (Event σ)}

theorem more (tallied : Tallied buffers settling journal) (event : Event σ)
    (plain : writtenIn (event :: journal) = writtenIn journal)
    (early : event.isCrash = true ∨ settledIn buffers journal = []) :
    Tallied buffers (settlingIn (event :: journal)) (event :: journal) := by
  have same : committedIn buffers (event :: journal) = committedIn buffers journal := by
    rcases early with crash | none
    · rw [committedIn, if_pos crash, List.append_nil]
    · rw [committedIn, none, ite_self, List.append_nil]
  exact ⟨by rw [plain, same, tallied.written], rfl⟩

theorem cons (tallied : Tallied buffers none journal) {event : Event σ} (plain : event.IsPlain) :
    Tallied buffers none (event :: journal) := by
  have next := tallied.more event (plain.writtenIn_cons journal)
    (.inr (by simp only [settledIn, tallied.settling]))
  refine ⟨next.written, ?_⟩
  cases event with
  | released owner segment file => rw [settlingIn, tallied.settling, Option.map_none]
  | noted notice =>
    cases notice with
    | wrote _ _ _ => exact plain.elim
    | _ => rfl
  | called _ | counted _ _ | replied _ _ | crashed => rfl

theorem append (tallied : Tallied buffers none journal) {new : List (Event σ)}
    (plain : ∀ event ∈ new, event.IsPlain) : Tallied buffers none (new ++ journal) := by
  induction new with
  | nil => exact tallied
  | cons event new ih =>
    have before := ih fun event member => plain event (List.mem_cons_of_mem _ member)
    exact before.cons (plain event (by simp))

theorem behind (tallied : Tallied buffers none journal)
    (inside : (handovers journal).length ≤ buffers.length) (later : List Buffer) :
    Tallied (buffers ++ later) none journal :=
  ⟨by rw [tallied.written, committedIn_append inside], tallied.settling⟩

theorem crash (tallied : Tallied buffers none journal) :
    Tallied buffers none (.crashed :: journal) := tallied.cons trivial

theorem called (tallied : Tallied buffers none journal) (call : Call) :
    Tallied buffers none (.called call :: journal) := tallied.cons trivial

theorem reply (tallied : Tallied buffers none journal) (ticket : Nat) (reply : Reply) :
    Tallied buffers none (.replied ticket reply :: journal) := tallied.cons trivial

theorem count (tallied : Tallied buffers none journal) {instrument : Instrument}
    (other : instrument ≠ .bytesWritten) (amount : Nat) :
    Tallied buffers none (.counted instrument amount :: journal) := by
  apply tallied.cons
  cases instrument with
  | bytesWritten => exact absurd rfl other
  | buffersSpilled | requests | failedRequests | writeLatency | queueLength => trivial

/-- Buffers that are let go outside of a commit. -/
theorem releaseAll {stage : Stage σ π} (tallied : Tallied buffers none stage.journal)
    (pool : Pool π) (dropped : List Buffer) :
    Tallied buffers none (pool.releaseAll dropped stage).2.journal := by
  induction dropped generalizing stage with
  | nil => exact tallied
  | cons buffer rest ih =>
    have handed : Tallied buffers none
        (.released buffer.owner buffer.segment stage.file :: stage.journal) := tallied.cons trivial
    apply ih
    rw [pool.journal_release]
    split
    · exact handed.crash
    · exact handed

theorem countFailure {stage : Stage σ π} (tallied : Tallied buffers none stage.journal)
    (request : Request) (start bytes : Nat) (error : SpillError) :
    Tallied buffers none (stage.countFailure request start bytes error).journal := by
  have counted := tallied.count (show Instrument.failedRequests ≠ .bytesWritten by decide) 1
  exact counted.cons trivial

theorem countSuccess {stage : Stage σ π} (tallied : Tallied buffers none stage.journal)
    (request : Request) : Tallied buffers none (stage.countSuccess request).journal := by
  have requests := tallied.count (show Instrument.requests ≠ .bytesWritten by decide) 1
  have spilled := requests.count (show Instrument.buffersSpilled ≠ .bytesWritten by decide)
    request.items.length
  exact spilled.count (show Instrument.writeLatency ≠ .bytesWritten by decide) 1

/-- Buffers of a batch that is being let go. As long as nothing crashes they are gone one by one, and
no commit has run to its end before the last of them is gone. -/
theorem settle {bytes frames gone : Nat} {rest : List Buffer} {stage : Stage σ π}
    (tallied : Tallied buffers (some ⟨bytes, frames, gone⟩) stage.journal) (pool : Pool π)
    (most : gone + rest.length ≤ frames) :
    Tallied buffers
      (if (pool.releaseAll rest stage).1 then none else some ⟨bytes, frames, gone + rest.length⟩)
      (pool.releaseAll rest stage).2.journal := by
  induction rest generalizing gone stage with
  | nil => exact tallied
  | cons buffer rest ih =>
    rw [List.length_cons] at most
    have journal := pool.journal_release buffer stage
    have handed : Tallied buffers (some ⟨bytes, frames, gone + 1⟩)
        (.released buffer.owner buffer.segment stage.file :: stage.journal) := by
      have next := tallied.more (.released buffer.owner buffer.segment stage.file) rfl
        (.inr (settledIn_of_lt tallied.settling (by simp only; omega) buffers))
      rwa [settlingIn, tallied.settling, Option.map_some] at next
    simp only [Pool.releaseAll, List.length_cons]
    by_cases crash : (pool.release buffer stage).1 = true
    · rw [if_pos crash, List.singleton_append] at journal
      have crashed : Tallied buffers none (.crashed :: _) := handed.more .crashed rfl (.inl rfl)
      rw [← journal] at crashed
      simpa [crash] using crashed.releaseAll pool rest
    · rw [if_neg crash, List.nil_append] at journal
      rw [← journal] at handed
      have left := ih handed (by omega)
      simpa [crash, Nat.add_assoc, Nat.add_comm 1] using left

end Tallied

namespace Surroundings

variable (env : Surroundings σ π) {buffers batch : List Buffer}

/-- A commit that runs to its end moves the writer on by what it lets go as written. -/
theorem tallied_settleBatch {written : Nat} (outcome : Outcome) (writer : Writer)
    {stage : Stage σ π} (next : batch <+: buffers.drop (handovers stage.journal).length)
    (tallied : Tallied buffers (some ⟨written, batch.length, 0⟩) stage.journal) :
    Tallied buffers none (env.settleBatch batch written outcome writer stage).stage.journal := by
  have settled := tallied.settle env.toPool (Nat.le_of_eq (Nat.zero_add batch.length))
  obtain ⟨crashed, after⟩ := env.commit_releases written 0 batch stage
  simp only [settleBatch, crashed, after]
  by_cases crash : (env.releaseAll batch stage).1 = true
  · rw [if_pos crash] at settled ⊢
    exact settled
  · rw [if_neg crash, Nat.zero_add] at settled
    rw [if_neg crash]
    have handed := congrArg List.length (env.effect_releaseAll 0 batch stage).handovers_eq
    rw [List.length_append, List.length_map] at handed
    have bytes := env.bytes_commit written 0 batch stage (by rw [crashed]; simpa using crash)
      (Nat.zero_le _)
    rw [Nat.zero_add, Nat.sub_zero] at bytes
    refine ⟨?_, rfl⟩
    calc writtenIn (.counted .bytesWritten (env.commit written 0 batch stage).bytes ::
          (env.releaseAll batch stage).2.journal)
        = framesSize (committedIn buffers (env.releaseAll batch stage).2.journal) +
            framesSize (batch.take (wholeWithin written batch)) := by
          rw [writtenIn, settled.written, bytes]
      _ = _ := by
          rw [← framesSize_append, ← settledIn_of_gone settled.settling handed next]
          rfl

theorem tallied_writeBatch (writer : Writer) {stage : Stage σ π}
    (next : batch <+: buffers.drop (handovers stage.journal).length)
    (tallied : Tallied buffers none stage.journal) :
    Tallied buffers none (env.writeBatch batch writer stage).stage.journal := by
  unfold writeBatch
  cases batch.mapM Buffer.encode with
  | error error => exact tallied.releaseAll env.toPool batch
  | ok frames =>
    obtain ⟨new, journal, only⟩ := env.events_transferFrom writer.cursor 0
      (frames.flatMap Frame.slices) 0 stage
    have handed := (env.effect_transferFrom writer.cursor 0
      (frames.flatMap Frame.slices) 0 stage).handovers_eq
    simp only [Store.transfer]
    generalize env.transferFrom writer.cursor 0 (frames.flatMap Frame.slices) 0 stage = transfer
      at journal handed
    have moved : Tallied buffers none transfer.stage.journal := by
      rw [journal]
      exact tallied.append fun event member => (only event member).isPlain
    rw [List.map_nil, List.append_nil] at handed
    rw [← handed] at next
    -- The report opens the batch that is then let go.
    let report : Notice := .wrote transfer.written batch.length writer.cursor
    have noted : Tallied buffers (some ⟨transfer.written, batch.length, 0⟩)
        (transfer.stage.note report).journal :=
      moved.more (.noted report) rfl (.inr (by simp only [settledIn, moved.settling]))
    cases finish : transfer.finish with
    | crashed => exact moved.releaseAll env.toPool batch
    | failed failure => exact env.tallied_settleBatch _ writer next noted
    | done value => exact env.tallied_settleBatch _ writer next noted

theorem tallied_writeBatches (batches : List (List Buffer)) (writer : Writer) {stage : Stage σ π}
    (next : batches.flatten <+: buffers.drop (handovers stage.journal).length)
    (tallied : Tallied buffers none stage.journal) :
    Tallied buffers none (env.writeBatches batches writer stage).stage.journal := by
  fun_induction env.writeBatches batches writer stage with
  | case1 writer stage => exact tallied
  | case2 batch later writer stage work done ih =>
    rw [List.flatten_cons] at next
    apply ih
    · have handed := congrArg List.length (env.effect_writeBatch batch writer stage).handovers_eq
      rw [List.length_append, List.length_map] at handed
      rw [handed, ← List.drop_drop]
      obtain ⟨rest, next⟩ := next
      rw [← next, List.append_assoc, List.drop_left]
      exact List.prefix_append _ _
    · exact env.tallied_writeBatch writer ((List.prefix_append _ _).trans next) tallied
  | case3 batch later writer stage work dropped fails =>
    rw [List.flatten_cons] at next
    have first := env.tallied_writeBatch writer ((List.prefix_append _ _).trans next) tallied
    exact first.releaseAll env.toPool later.flatten

theorem tallied_repair (writer : Writer) {stage : Stage σ π}
    (tallied : Tallied buffers none stage.journal) :
    Tallied buffers none (env.repair writer stage).2.2.journal := by
  have called : Tallied buffers none (env.truncateOn writer.cursor stage).2.journal :=
    tallied.called _
  unfold repair
  cases truncated : env.truncateOn writer.cursor stage with
  | mk answer after =>
    rw [truncated] at called
    cases answer with
    | done value => exact called.cons trivial
    | failed failure => exact called.cons trivial
    | crashed => exact called

theorem tallied_carryOut {request : Request} (entries : List Entry) (writer : Writer)
    {stage : Stage σ π}
    (next : request.buffers <+: buffers.drop (handovers stage.journal).length)
    (tallied : Tallied buffers none stage.journal) :
    Tallied buffers none (env.carryOut request entries writer stage).stage.journal := by
  have wrote : Tallied buffers none (env.writeRequest request writer
      (stage.note (.spilling request.items.length request.framedSize writer.cursor))).stage.journal :=
    env.tallied_writeBatches _ writer (by rwa [flatten_batches]) (tallied.cons trivial)
  simp only [carryOut]
  generalize env.writeRequest request writer
    (stage.note (.spilling request.items.length request.framedSize writer.cursor)) = work at wrote
  cases outcome : work.outcome with
  | crashed => exact wrote
  | failed error => exact env.tallied_repair work.writer (wrote.countFailure request _ _ _)
  | done =>
    simp only
    split
    · have synced : Tallied buffers none (env.syncOn work.stage).2.journal := wrote.called _
      cases answered : env.syncOn work.stage with
      | mk answer after =>
        rw [answered] at synced
        cases answer with
        | crashed => exact synced
        | failed failure => exact synced.countFailure request _ _ _
        | done value => exact synced.countSuccess request
    · exact wrote.countSuccess request

/-- A request leaves the journal tallied, however it ends. -/
theorem tallied_process {request : Request} (writer : Writer) {stage : Stage σ π}
    (next : request.buffers <+: buffers.drop (handovers stage.journal).length)
    (tallied : Tallied buffers none stage.journal) :
    Tallied buffers none (env.process request writer stage).stage.journal := by
  unfold process
  split
  · exact tallied.releaseAll env.toPool request.buffers
  · split
    · exact tallied.releaseAll env.toPool request.buffers
    · split
      · exact tallied.crash.releaseAll env.toPool request.buffers
      · exact env.tallied_carryOut _ writer next tallied

theorem tallied_abandon (orders : List Order) {stage : Stage σ π}
    (tallied : Tallied buffers none stage.journal) :
    Tallied buffers none (env.abandon orders stage).journal := by
  induction orders generalizing stage with
  | nil => exact tallied
  | cons order later ih =>
    exact ih ((tallied.releaseAll env.toPool order.request.buffers).reply order.ticket _)

/-! ## Runs -/

theorem tallied_hand (request : Request) {s : Session σ π} (returned : s.Returned)
    (tallied : Tallied (s.submitted.flatMap Request.buffers) none s.stage.journal) :
    Tallied ((env.hand request s).submitted.flatMap Request.buffers) none
      (env.hand request s).stage.journal := by
  have inside : (handovers s.stage.journal).length ≤
      (s.submitted.flatMap Request.buffers).length := by
    have all := congrArg List.length returned.all
    rw [flatMap_handovers, List.length_map, List.length_append] at all
    omega
  have more := tallied.behind inside request.buffers
  have submitted : (env.hand request s).submitted.flatMap Request.buffers =
      s.submitted.flatMap Request.buffers ++ request.buffers := by
    simp [hand]
  rw [submitted]
  simp only [hand, submit]
  split
  · exact more.reply _ _
  · split
    · exact more
    · have dropped := more.releaseAll env.toPool request.buffers
      split
      · exact dropped
      · exact dropped.reply _ _

variable {env} {settings : Settings} {file : σ} {pool : π}

/-- The buffers of the oldest request in the queue are the next ones to go back. -/
theorem Reaches.next_buffers {s : Session σ π} (reached : env.Reaches settings file pool s)
    {order : Order} {later : List Order} (queued : s.spooler.queue = order :: later) :
    order.request.buffers <+:
      (s.submitted.flatMap Request.buffers).drop (handovers s.stage.journal).length := by
  obtain ⟨before, after, submitted, -, handed⟩ := reached.handed_before queued
  have gone : (handovers s.stage.journal).length = (before.flatMap Request.buffers).length := by
    rw [handed, flatMap_handovers, List.length_map]
  rw [submitted, gone, List.flatMap_append, List.drop_left]
  exact List.prefix_append _ _

theorem tallied_work {s : Session σ π} (reached : env.Reaches settings file pool s)
    (tallied : Tallied (s.submitted.flatMap Request.buffers) none s.stage.journal) :
    Tallied (s.submitted.flatMap Request.buffers) none (env.work s).stage.journal := by
  simp only [work, step]
  split
  · exact tallied
  · rename_i order later queued
    have processed := env.tallied_process s.spooler.writer (reached.next_buffers queued) tallied
    split
    · exact processed.reply _ _
    · exact env.tallied_abandon later (processed.reply _ _)

/-- The bytes counted in a session are those of the frames that were committed. -/
theorem Reaches.tallied {s : Session σ π} (reached : env.Reaches settings file pool s) :
    Tallied (s.submitted.flatMap Request.buffers) none s.stage.journal := by
  apply reached.rule
  · intro spooler stage started
    obtain ⟨cursor, -, -, rfl⟩ := spooler_start started
    exact ⟨rfl, rfl⟩
  · intro s request reached tallied
    exact env.tallied_hand request reached.returned tallied
  · intro s reached tallied
    exact tallied_work reached tallied
  · rintro s notice parting tallied
    rcases parting with rfl | rfl
    · exact tallied.cons trivial
    · exact tallied.cons trivial
  · intro s none tallied
    exact tallied

/-- Accounts agree when the books are in order and the journal is tallied. -/
theorem balances_of_books {start pending : Nat} {buffers : List Buffer} {writer : Writer}
    {stage : Stage σ π} (books : writer.Books start pending stage.journal)
    (tallied : Tallied buffers none stage.journal) : writer.Balances start buffers stage := by
  have written : writer.progress.written = writtenIn stage.journal := by rw [books.progress]
  have own : writer.progress.cursor = writer.cursor := by rw [books.progress]
  refine ⟨?_, ?_, ?_, own⟩
  · rw [own, books.cursor, cursorAt, written]
  · rw [written, total_bytesWritten]
  · rw [written, tallied.written]

theorem grows_of_balances {start : Nat} {buffers more : List Buffer} {s later : Session σ π}
    (now : s.spooler.writer.Balances start buffers s.stage)
    (next : later.spooler.writer.Balances start more later.stage)
    (suffix : s.stage.journal <:+ later.stage.journal) : s.Grows later := by
  have counted : s.stage.total .bytesWritten ≤ later.stage.total .bytesWritten := by
    obtain ⟨new, grown⟩ := suffix
    rw [total_bytesWritten, total_bytesWritten, ← grown, writtenIn_append]
    exact Nat.le_add_right _ _
  have written : s.spooler.written ≤ later.spooler.written := by
    rw [Spooler.written, Spooler.written, now.counted, next.counted]
    exact counted
  refine ⟨?_, written, counted⟩
  rw [Spooler.cursor, Spooler.cursor, now.cursor, next.cursor]
  exact Nat.add_le_add_left written start

/-- Whatever the file answers and wherever a call or a pool crashes, in every session the accounts
agree: the cursor that everyone sees is the length of the file at first and what has been written, and
it is the writer's own; what has been written is what the instrument counted, and the frames that were
let go as written by commits that ran to their end. It is so in the middle of a request as well, after
any number of its batches, and nothing is ever taken back. -/
theorem progress_is_exact {s : Session σ π} (reached : env.Reaches settings file pool s) :
    ∃ start, env.length file = .done start ∧
      s.spooler.writer.Balances start (s.submitted.flatMap Request.buffers) s.stage ∧
      (∀ order later done behind, s.spooler.queue = order :: later →
        batches s.spooler.writer.settings.framesPerWrite order.request.buffers = done ++ behind →
        let work := env.writeBatches done s.spooler.writer (s.stage.note
          (.spilling order.request.items.length order.request.framedSize s.spooler.writer.cursor))
        work.writer.Balances start (s.submitted.flatMap Request.buffers) work.stage ∧
          s.spooler.written ≤ work.writer.progress.written) ∧
      (∀ acts, s.Grows (env.run acts s)) ∧ ∀ ending, s.Grows (env.finish ending s) := by
  obtain ⟨start, length, pending, books, settled⟩ := reached.booked
  have now := balances_of_books books reached.tallied
  have later : ∀ {t : Session σ π}, env.Reaches settings file pool t →
      s.stage.journal <:+ t.stage.journal → s.Grows t := by
    intro t reached' suffix
    obtain ⟨start', length', pending', books', -⟩ := reached'.booked
    obtain rfl : start = start' := by simpa [length] using length'
    exact grows_of_balances now (balances_of_books books' reached'.tallied) suffix
  refine ⟨start, length, now, ?_, fun acts => later (reached.run acts) (env.suffix_run acts s),
    fun ending => later (.finish ending reached) (env.suffix_finish ending s)⟩
  intro order rest done behind queued cut work
  obtain rfl := settled (reached.orderly.alive_of_queue (by simp [queued]))
  have front : done.flatten <+: order.request.buffers := by
    rw [← flatten_batches s.spooler.writer.settings.framesPerWrite order.request.buffers, cut,
      List.flatten_append]
    exact List.prefix_append _ _
  have tallied : Tallied (s.submitted.flatMap Request.buffers) none work.stage.journal :=
    env.tallied_writeBatches done _ (front.trans (reached.next_buffers queued))
      (reached.tallied.cons trivial)
  have written : work.Booked start := env.booked_writeBatches done (books.note rfl)
  obtain ⟨pending, kept, -⟩ := written
  have middle := balances_of_books kept tallied
  refine ⟨middle, ?_⟩
  have moved : s.spooler.writer.cursor ≤ work.writer.cursor := (env.further_writeBatches done _ _).cursor
  rw [← now.own, ← middle.own, now.cursor, middle.cursor] at moved
  exact Nat.le_of_add_le_add_left moved

/-- A file holds three bytes already and takes five bytes of the first write. The two frames of a
request go behind the three bytes all the same, and every account says so. -/
theorem two_frames_are_accounted_for :
    let file : Planned Memory :=
      ⟨⟨.ofList [1, 2, 3], false⟩, { Plan.none with script := [.atMost 5] }⟩
    let stage := (exercise.start .standard (.start file ())).2
    let handed := exercise.hand ⟨[threeBytes, threeBytes]⟩
      (.fresh ⟨.start .standard 3, true, []⟩ stage)
    let spilt := exercise.work handed
    spilt.spooler.cursor = 25 ∧ spilt.spooler.written = 22 ∧
      spilt.stage.total .bytesWritten = 22 ∧
      framesSize (committedIn [threeBytes.buffer, threeBytes.buffer] spilt.stage.journal) = 22 := by
  intro file stage handed spilt
  have reached : exercise.Reaches .standard file () spilt :=
    .act .step (.act (.submit _) (.start rfl))
  have mild : file.plan.Mild := ⟨by decide, rfl, by decide, rfl⟩
  obtain ⟨entries, moved, after, -, processed, moves, -⟩ := filled_process takes_exercise
    Pool.calm_quiet ⟨[threeBytes, threeBytes]⟩ (.start .standard 3) stage (by decide)
    (fun each => absurd each (by decide)) rfl ⟨rfl, mild⟩ (by decide)
  obtain ⟨start, length, ⟨cursor, counted, committed, own⟩, -⟩ := progress_is_exact reached
  obtain rfl : 3 = start := Answer.done.inj length
  have queued : handed.spooler.queue = [⟨0, ⟨[threeBytes, threeBytes]⟩⟩] := rfl
  have worked := exercise.work_of_reply queued processed
  have writer : spilt.spooler.writer = moved := congrArg (fun s => s.spooler.writer) worked
  have stands : spilt.spooler.writer.cursor = 25 := by
    rw [writer, moves.cursor]
    decide
  have written : spilt.spooler.writer.progress.written = 22 := by omega
  exact ⟨own.trans stands, written, counted.symm.trans written, committed.symm.trans written⟩

end Surroundings
end Spillway
