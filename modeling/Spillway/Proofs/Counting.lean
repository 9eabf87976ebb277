import Spillway.Proofs.Ledger
import Spillway.Proofs.Protocol
/-!
What is counted of requests. Bytes are counted batch by batch, when it is known which frames are whole.
Everything else is counted when the writing of a request has ended: the request and its buffers if it is
answered with entries, and that it failed if a call on the file failed it. A request that is refused
before it is written comes to neither. A `Settlement` is an errand with its answer, and `Settlement.rise`
is what each instrument rises by over it; without a crash, what the instruments show is the sum of that
(`Session.Counted`). Two things follow that the instruments do not say of themselves, each with a run that
shows it: requests to a poisoned writer fail uncounted, and the frames that a failed request leaves in
the file are counted as bytes, but not as buffers.
-/

namespace Spillway

variable {σ π : Type}

/-- What an event adds to an instrument. -/
def Event.amount (instrument : Instrument) : Event σ → Nat
  | .counted i amount => if i = instrument then amount else 0
  | _ => 0

/-- An errand with an answer to its request. -/
structure Settlement where
  errand : Errand
  reply : Reply

namespace Settlement

def served (settlement : Settlement) : Bool :=
  match settlement.reply with
  | .ok _ => true
  | .error _ => false

/-- A call on the file failed the request. -/
def failed (settlement : Settlement) : Bool :=
  match settlement.reply with
  | .error (.io _) => true
  | _ => false

/-- The request was refused before it was written. -/
def refused (settlement : Settlement) : Bool :=
  match settlement.reply with
  | .error .poisoned | .error (.frame _) => true
  | _ => false

/-- The buffers whose frames were taken whole. -/
def stored (settlement : Settlement) : List Buffer := settlement.errand.stored

/-- What an instrument rises by over a request. The gauge is not counted up. -/
def rise (settlement : Settlement) : Instrument → Nat
  | .bytesWritten => framesSize settlement.stored
  | .buffersSpilled => if settlement.served then settlement.stored.length else 0
  | .requests | .writeLatency => settlement.served.toNat
  | .failedRequests => settlement.failed.toNat
  | .queueLength => 0

/-- The ways in which an errand ends with an answer. All buffers are stored if the request is served, and
there is no call for it if it is refused. -/
inductive Proper : Settlement → Prop
  | served {errand : Errand} (entries : List Entry)
      (whole : errand.stored = errand.order.request.buffers) : Proper ⟨errand, .ok entries⟩
  | failed (errand : Errand) (cause : Cause) : Proper ⟨errand, .error (.io cause)⟩
  | poisoned (order : Order) : Proper ⟨⟨order, []⟩, .error .poisoned⟩
  | unframed (order : Order) (error : FrameError) : Proper ⟨⟨order, []⟩, .error (.frame error)⟩

end Settlement

/-- A request was processed as it was settled: it has the reply, the calls were made for it, the writer
moved on behind what they stored, and the instruments rose. Bytes are counted as the writer moves on. -/
structure Verdict.Tells (verdict : Verdict σ π) (settlement : Settlement) (writer : Writer)
    (before : Stage σ π) : Prop where
  reply? : verdict.reply? = some settlement.reply
  calls_eq : verdict.stage.calls = before.calls ++ settlement.errand.calls
  cursor : verdict.writer.cursor = writer.cursor + framesSize settlement.stored
  proper : settlement.Proper
  total : ∀ instrument, instrument ≠ .bytesWritten →
    verdict.stage.total instrument = before.total instrument + settlement.rise instrument

/-- The errands of a session, each with the answers to its request. -/
def Session.settlements (s : Session σ π) : List Settlement :=
  s.errands.flatMap fun errand =>
    (s.stage.answers errand.order.ticket).map fun reply => ⟨errand, reply⟩

/-- Every errand has ended with one answer, and the instruments show what they rose by over them. -/
structure Session.Counted (s : Session σ π) : Prop where
  settled : s.settlements.map Settlement.errand = s.errands
  proper : ∀ settlement ∈ s.settlements, settlement.Proper
  total : ∀ instrument, s.stage.total instrument =
    Word.total (s.settlements.map fun settlement => settlement.rise instrument)

theorem Writer.cursor_after (writer : Writer) (buffers : List Buffer) (taken : Nat) :
    (writer.after buffers taken).cursor =
      writer.cursor + framesSize (buffers.take (wholeWithin taken buffers)) := by
  by_cases none : buffers = []
  · simp [none, after]
  · rw [after_of_some none, advance]

/-- The writer moves on behind what is stored of a request. -/
theorem Work.Attempts.cursor_eq {request : Request} {calls : List Call} {room : Prop} {writer : Writer}
    {before : Stage σ π} {work : Work σ π}
    (attempts : work.Attempts request.buffers calls room writer before)
    (calm : work.outcome ≠ .crashed) :
    work.writer.cursor = writer.cursor + framesSize (request.stored calls) := by
  rw [attempts.moved calm, Writer.cursor_after, Request.stored]

theorem Request.stored_append (request : Request) (calls later : List Call)
    (silent : takenBy later = 0) : request.stored (calls ++ later) = request.stored calls := by
  rw [stored, takenBy_append, silent, Nat.add_zero, ← stored]

/-! ## Instruments -/

section
variable (instrument : Instrument)

theorem total_record (stage : Stage σ π) (event : Event σ) :
    (stage.record event).total instrument = event.amount instrument + stage.total instrument := by
  cases event <;> rfl

@[simp] theorem total_note (stage : Stage σ π) (notice : Notice) :
    (stage.note notice).total instrument = stage.total instrument := by
  simp [Stage.note, total_record, Event.amount]

@[simp] theorem total_reply (stage : Stage σ π) (ticket : Nat) (reply : Reply) :
    (stage.reply ticket reply).total instrument = stage.total instrument := by
  simp [Stage.reply, total_record, Event.amount]

@[simp] theorem total_count (stage : Stage σ π) (i : Instrument) (amount : Nat) :
    (stage.count i amount).total instrument =
      (if i = instrument then amount else 0) + stage.total instrument :=
  total_record instrument stage (.counted i amount)

theorem total_of_event {before after : Stage σ π} {event : Event σ}
    (journal : after.journal = event :: before.journal) :
    after.total instrument = event.amount instrument + before.total instrument := by
  have more := total_record instrument before event
  rw [Stage.total, journal]
  exact more

theorem total_of_new {before after : Stage σ π} {new : List (Event σ)}
    (journal : after.journal = new ++ before.journal)
    (silent : ∀ event ∈ new, event.amount instrument = 0) :
    after.total instrument = before.total instrument := by
  induction new generalizing after with
  | nil => rw [Stage.total, journal, List.nil_append, ← Stage.total]
  | cons event new ih =>
    obtain ⟨first, rest⟩ := List.forall_mem_cons.mp silent
    let between : Stage σ π := { before with journal := new ++ before.journal }
    have added : after.total instrument = event.amount instrument + between.total instrument :=
      total_of_event instrument journal
    rw [added, first, Nat.zero_add, ih rfl rest]

@[simp] theorem total_releaseAll (pool : Pool π) (buffers : List Buffer) (stage : Stage σ π) :
    (pool.releaseAll buffers stage).2.total instrument = stage.total instrument := by
  induction buffers generalizing stage with
  | nil => rfl
  | cons buffer rest ih =>
    rw [Pool.releaseAll, ih, Stage.total, pool.journal_release]
    split
    · simp [Stage.total]
    · simp [Stage.total]

end

namespace Surroundings

variable (env : Surroundings σ π) {instrument : Instrument}

@[simp] theorem total_transfer (slices : List Extent) (offset before : Nat) (stage : Stage σ π) :
    (env.transfer slices offset before stage).stage.total instrument = stage.total instrument := by
  obtain ⟨new, journal, only⟩ := env.events_transferFrom offset before slices 0 stage
  refine total_of_new instrument journal fun event member => ?_
  have silent := only event member
  cases event with
  | counted i amount => exact silent.elim
  | called _ | released _ _ _ | noted _ | replied _ _ | crashed => rfl

theorem total_settleBatch (other : instrument ≠ .bytesWritten) (batch : List Buffer) (written : Nat)
    (outcome : Outcome) (writer : Writer) (stage : Stage σ π) :
    (env.settleBatch batch written outcome writer stage).stage.total instrument =
      stage.total instrument := by
  simp only [settleBatch, (env.commit_releases written 0 batch stage).2]
  split
  · exact total_releaseAll instrument env.toPool batch stage
  · simp [other.symm]

theorem total_writeBatch (other : instrument ≠ .bytesWritten) (batch : List Buffer) (writer : Writer)
    (stage : Stage σ π) :
    (env.writeBatch batch writer stage).stage.total instrument = stage.total instrument := by
  unfold writeBatch
  split
  · exact total_releaseAll instrument env.toPool batch stage
  · simp only
    split
    · simp
    · simp [env.total_settleBatch other]
    · simp [env.total_settleBatch other]

theorem total_writeBatches (other : instrument ≠ .bytesWritten) (batches : List (List Buffer))
    (writer : Writer) (stage : Stage σ π) :
    (env.writeBatches batches writer stage).stage.total instrument = stage.total instrument := by
  fun_induction env.writeBatches batches writer stage with
  | case1 writer stage => rfl
  | case2 batch later writer stage work done ih => exact ih.trans (env.total_writeBatch other _ _ _)
  | case3 batch later writer stage work dropped fails =>
    exact (total_releaseAll _ _ _ _).trans (env.total_writeBatch other _ _ _)

/-- While a request is written, nothing is counted but bytes. -/
theorem total_spill (other : instrument ≠ .bytesWritten) (request : Request) (writer : Writer)
    (stage : Stage σ π) :
    (env.spill request writer stage).stage.total instrument = stage.total instrument :=
  (env.total_writeBatches other _ _ _).trans (total_note _ _ _)

theorem total_syncOn (instrument : Instrument) (stage : Stage σ π) :
    (env.syncOn stage).2.total instrument = stage.total instrument :=
  (total_of_event instrument rfl).trans (Nat.zero_add _)

@[simp] theorem total_repair (writer : Writer) (stage : Stage σ π) :
    (env.repair writer stage).2.2.total instrument = stage.total instrument := by
  have called : (env.truncateOn writer.cursor stage).2.total instrument = stage.total instrument :=
    (total_of_event instrument rfl).trans (Nat.zero_add _)
  unfold repair
  split
  · rename_i truncated
    simpa [truncated] using called
  · rename_i truncated
    simpa [truncated] using called
  · rename_i truncated
    simpa [truncated] using called

/-! ## A request -/

theorem total_countFailure (other : instrument ≠ .bytesWritten) (errand : Errand) (cause : Cause)
    (stage : Stage σ π) (request : Request) (start bytes : Nat) :
    (stage.countFailure request start bytes (.io cause)).total instrument =
      stage.total instrument + (Settlement.mk errand (.error (.io cause))).rise instrument := by
  cases instrument with
  | bytesWritten => exact absurd rfl other
  | buffersSpilled | requests | failedRequests | writeLatency | queueLength =>
    simp [Stage.countFailure, Settlement.rise, Settlement.served, Settlement.failed, Nat.add_comm]

theorem total_countSuccess (other : instrument ≠ .bytesWritten) {errand : Errand}
    (whole : errand.stored = errand.order.request.buffers) (entries : List Entry) (stage : Stage σ π) :
    (stage.countSuccess errand.order.request).total instrument =
      stage.total instrument + (Settlement.mk errand (.ok entries)).rise instrument := by
  cases instrument with
  | bytesWritten => exact absurd rfl other
  | buffersSpilled | requests | failedRequests | writeLatency | queueLength =>
    simp [Stage.countSuccess, Settlement.rise, Settlement.served, Settlement.failed, Settlement.stored,
      whole, Request.buffers, Nat.add_comm]

theorem tells_refuse {order : Order} {error : SpillError}
    (proper : (Settlement.mk ⟨order, []⟩ (.error error)).Proper)
    (unfailed : (Settlement.mk ⟨order, []⟩ (.error error)).failed = false) (writer : Writer)
    (stage : Stage σ π)
    (answered : (env.refuse order.request error writer stage).reply?.isSome) :
    (env.refuse order.request error writer stage).Tells ⟨⟨order, []⟩, .error error⟩ writer stage := by
  have nothing : (Settlement.mk ⟨order, []⟩ (.error error)).stored = [] := order.request.stored_nil
  obtain ⟨after, untouched, same⟩ := refuse_eq answered
  refine ⟨by rw [same], ?_, ?_, proper, fun instrument other => ?_⟩
  · rw [same, List.append_nil]
    exact untouched.calls
  · rw [nothing]
    rfl
  · have none : (Settlement.mk ⟨order, []⟩ (.error error)).rise instrument = 0 := by
      cases instrument <;> simp [Settlement.rise, Settlement.served, unfailed, nothing]
    rw [none]
    exact total_releaseAll instrument env.toPool _ stage

/-- A request that has been written is answered with its entries or with why the file was not synced, and
counted by that. -/
theorem counted_carryOut_of_done {request : Request} (accepted : request.refusal? = none)
    (entries : List Entry) {writer : Writer} {stage : Stage σ π}
    (done : (env.spill request writer stage).outcome = .done)
    (answered : (env.carryOut request entries writer stage).reply?.isSome) :
    ∃ between : Stage σ π,
      (∀ instrument, instrument ≠ .bytesWritten →
        between.total instrument = stage.total instrument) ∧
      ((env.carryOut request entries writer stage).reply? = some (.ok entries) ∧
          (env.carryOut request entries writer stage).stage = between.countSuccess request ∨
        ∃ cause bytes,
          (env.carryOut request entries writer stage).reply? = some (.error (.io cause)) ∧
          (env.carryOut request entries writer stage).stage =
            between.countFailure request writer.cursor bytes (.io cause)) := by
  have written := fun instrument (other : instrument ≠ Instrument.bytesWritten) =>
    env.total_spill other request writer stage
  obtain ⟨-, moves⟩ := env.taken_spill accepted done
  by_cases each : writer.settings.syncEach = true
  · have same : env.carryOut request entries writer stage = _ :=
      carryOut_of_sync done (by rwa [moves.settings])
    rw [same] at answered ⊢
    have synced := fun instrument (other : instrument ≠ Instrument.bytesWritten) =>
      (env.total_syncOn instrument (env.spill request writer stage).stage).trans
        (written instrument other)
    cases call : env.syncOn (env.spill request writer stage).stage with
    | mk answer after =>
      rw [call] at answered synced
      cases answer with
      | crashed => cases answered
      | failed failure => exact ⟨after, synced, .inr ⟨_, _, rfl, rfl⟩⟩
      | done value => exact ⟨after, synced, .inl ⟨rfl, rfl⟩⟩
  · have never : writer.settings.syncEach = false := by simpa using each
    rw [carryOut_of_done done (by rwa [moves.settings])]
    exact ⟨_, written, .inl ⟨rfl, rfl⟩⟩

/-- A request that a write ends is settled as failed. -/
theorem tells_carryOut_of_failed {order : Order} {writer : Writer} {stage : Stage σ π}
    (accepted : order.request.refusal? = none) (entries : List Entry) {error : SpillError}
    (failed : (env.spill order.request writer stage).outcome = .failed error)
    (answered : (env.carryOut order.request entries writer stage).reply?.isSome) :
    ∃ calls reply, (env.carryOut order.request entries writer stage).Tells ⟨⟨order, calls⟩, reply⟩
      writer stage := by
  obtain ⟨calls, attempts⟩ := env.attempts_spill accepted writer stage
  have ended := attempts.ended
  rw [failed] at ended
  obtain ⟨-, -, cause, -, -, -, rfl⟩ := ended
  obtain ⟨answer, -, called, repaired⟩ := env.repaired_carryOut entries failed
  let cut := Call.truncate (env.spill order.request writer stage).writer.cursor answer
  obtain ⟨same, reply⟩ : (env.carryOut order.request entries writer stage).writer.cursor =
        (env.spill order.request writer stage).writer.cursor ∧
      (env.carryOut order.request entries writer stage).reply? = some (.error (.io cause)) := by
    rcases repaired with ⟨-, same, reply⟩ | ⟨_, -, same, reply⟩ | ⟨-, -, reply⟩
    · exact ⟨by rw [same], reply⟩
    · exact ⟨by rw [same], reply⟩
    · simp [reply] at answered
  have here : (env.carryOut order.request entries writer stage).writer.cursor =
      writer.cursor + framesSize (order.request.stored (calls ++ [cut])) := by
    rw [same, attempts.cursor_eq (by simp [failed]), order.request.stored_append calls [cut] rfl]
  rw [attempts.calls_eq, List.append_assoc] at called
  refine ⟨calls ++ [cut], .error (.io cause), reply, called, here, .failed _ cause,
    fun instrument other => ?_⟩
  rw [carryOut_of_failed failed, ← env.total_spill other order.request writer stage]
  refine (total_repair env _ _).trans ?_
  exact total_countFailure other ⟨order, calls ++ [cut]⟩ cause _ order.request _ _

/-- A request that has been written is settled as served, or as failed if it cannot be synced. -/
theorem tells_carryOut_of_done {order : Order} {writer : Writer} {stage : Stage σ π}
    (accepted : order.request.refusal? = none) (entries : List Entry)
    (done : (env.spill order.request writer stage).outcome = .done)
    (answered : (env.carryOut order.request entries writer stage).reply?.isSome) :
    ∃ calls reply, (env.carryOut order.request entries writer stage).Tells ⟨⟨order, calls⟩, reply⟩
      writer stage := by
  obtain ⟨calls, attempts⟩ := env.attempts_spill accepted writer stage
  obtain ⟨all, -⟩ := env.taken_by_spill accepted attempts.calls_eq
  obtain ⟨same, later, called, ends⟩ := env.calls_carryOut_of_done accepted entries done
  have silent : takenBy later = 0 := by
    rcases ends with ⟨-, rfl⟩ | ⟨-, answer, rfl⟩ <;> rfl
  have stored := order.request.stored_append calls later silent
  have whole : Errand.stored ⟨order, calls ++ later⟩ = order.request.buffers :=
    stored.trans (Request.stored_of_all (all done))
  have here : (env.carryOut order.request entries writer stage).writer.cursor =
      writer.cursor + framesSize (order.request.stored (calls ++ later)) := by
    rw [same, attempts.cursor_eq (by simp [done]), stored]
  rw [attempts.calls_eq, List.append_assoc] at called
  obtain ⟨between, unchanged, counted⟩ := env.counted_carryOut_of_done accepted entries done answered
  rcases counted with ⟨reply, stands⟩ | ⟨cause, bytes, reply, stands⟩
  · refine ⟨calls ++ later, .ok entries, reply, called, here, .served entries whole,
      fun instrument other => ?_⟩
    rw [stands, ← unchanged instrument other]
    exact total_countSuccess other whole entries between
  · refine ⟨calls ++ later, .error (.io cause), reply, called, here, .failed _ cause,
      fun instrument other => ?_⟩
    rw [stands, ← unchanged instrument other]
    exact total_countFailure other ⟨order, calls ++ later⟩ cause between order.request _ bytes

/-- A request that is processed with a reply is settled. -/
theorem tells_process {order : Order} {writer : Writer} (stage : Stage σ π)
    (answered : (env.process order.request writer stage).reply?.isSome) :
    ∃ calls reply, (env.process order.request writer stage).Tells ⟨⟨order, calls⟩, reply⟩
      writer stage := by
  by_cases accepts : writer.Accepts order.request
  · obtain ⟨entries, -, carried⟩ := env.process_of_accepts accepts stage
    rw [carried] at answered ⊢
    cases outcome : (env.spill order.request writer stage).outcome with
    | crashed =>
      rw [carryOut_of_crashed outcome] at answered
      cases answered
    | failed error => exact env.tells_carryOut_of_failed accepts.framable entries outcome answered
    | done => exact env.tells_carryOut_of_done accepts.framable entries outcome answered
  · rcases env.process_cases_of_deaf accepts stage with same | ⟨error, same⟩ | same
    · rw [same] at answered ⊢
      exact ⟨[], _, env.tells_refuse (.poisoned order) rfl writer stage answered⟩
    · rw [same] at answered ⊢
      exact ⟨[], _, env.tells_refuse (.unframed order error) rfl writer stage answered⟩
    · rw [same] at answered
      cases answered

/-! ## Runs -/

variable {env} {settings : Settings} {file : σ} {pool : π}

theorem answers_hand (request : Request) {s : Session σ π} {ticket : Nat}
    (earlier : ticket < s.submitted.length) :
    (env.hand request s).stage.answers ticket = s.stage.answers ticket := by
  have dropped := (env.effect_releaseAll 0 request.buffers s.stage).answers_eq ticket
  have other : s.submitted.length ≠ ticket := by omega
  simp only [hand, submit]
  split
  · simp [other]
  · split
    · rfl
    · split
      · exact dropped
      · simp [other, dropped]

theorem total_hand (instrument : Instrument) (request : Request) (s : Session σ π) :
    (env.hand request s).stage.total instrument = s.stage.total instrument := by
  simp only [hand, submit]
  split
  · simp
  · split
    · rfl
    · split <;> simp

end Surroundings

theorem Session.Orderly.ticket_lt {s : Session σ π} (orderly : s.Orderly) {errand : Errand}
    (taken : errand ∈ s.errands) : errand.order.ticket < s.submitted.length := by
  obtain ⟨front, back, split⟩ := List.append_of_mem (List.mem_map_of_mem (f := Errand.order) taken)
  obtain ⟨rest, all⟩ := orderly.errands_taken
  rw [split, List.append_assoc, List.cons_append] at all
  obtain ⟨before, after, same, place, -⟩ := ordersFrom_split all
  rw [same, List.length_append, List.length_cons]
  omega

theorem Session.settlements_congr {s t : Session σ π} (errands : t.errands = s.errands)
    (answers : ∀ errand ∈ s.errands,
      t.stage.answers errand.order.ticket = s.stage.answers errand.order.ticket) :
    t.settlements = s.settlements := by
  simp only [settlements, errands]
  exact List.flatMap_congr fun errand taken => by rw [answers errand taken]

theorem Session.Counted.congr {s t : Session σ π} (counted : s.Counted) (errands : t.errands = s.errands)
    (answers : ∀ errand ∈ s.errands,
      t.stage.answers errand.order.ticket = s.stage.answers errand.order.ticket)
    (total : ∀ instrument, t.stage.total instrument = s.stage.total instrument) : t.Counted := by
  have same := Session.settlements_congr errands answers
  refine ⟨by rw [same, errands, counted.settled], by rw [same]; exact counted.proper, ?_⟩
  intro instrument
  rw [same, total, counted.total]

namespace Surroundings

variable {env : Surroundings σ π} {settings : Settings} {file : σ} {pool : π}

/-- The bytes that a step counts are those by which the writer moves on. -/
theorem bytes_work {s : Session σ π} (reached : env.Reaches settings file pool s) :
    (env.work s).stage.total .bytesWritten + s.spooler.writer.cursor =
      s.stage.total .bytesWritten + (env.work s).spooler.writer.cursor := by
  obtain ⟨start, length, _, books, -⟩ := reached.booked
  obtain ⟨later, length', _, books', -⟩ := (Reaches.act .step reached).booked
  have same : later = start := by simpa [length] using length'.symm
  have here := books.cursor
  have there : (env.work s).spooler.writer.cursor = cursorAt later (env.work s).stage.journal :=
    books'.cursor
  rw [total_bytesWritten, total_bytesWritten, here, there, cursorAt, cursorAt, same]
  omega

/-- A step in which the oldest request is answered adds its settlement. -/
theorem settlements_work {s : Session σ π} {order : Order} {later : List Order} {reply : Reply}
    (queued : s.spooler.queue = order :: later)
    (answered : (env.process order.request s.spooler.writer s.stage).reply? = some reply)
    (fresh : s.stage.answers order.ticket = [])
    (settled : s.settlements.map Settlement.errand = s.errands) {calls : List Call}
    (errands : (env.work s).errands = s.errands ++ [⟨order, calls⟩]) :
    (env.work s).settlements = s.settlements ++ [⟨⟨order, calls⟩, reply⟩] := by
  have silent := env.effect_process order.request s.spooler.writer s.stage
  have stage : (env.work s).stage =
      (env.process order.request s.spooler.writer s.stage).stage.reply order.ticket reply := by
    simp only [work, step, queued, answered]
  have before : ∀ errand ∈ s.errands, (env.work s).stage.answers errand.order.ticket =
      s.stage.answers errand.order.ticket := by
    intro errand taken
    -- What has been settled already has another ticket than what still waits for its answer.
    have other : order.ticket ≠ errand.order.ticket := by
      intro same
      rw [← settled] at taken
      obtain ⟨settlement, member, rfl⟩ := List.mem_map.mp taken
      obtain ⟨_, -, given⟩ := List.mem_flatMap.mp member
      obtain ⟨_, given, rfl⟩ := List.mem_map.mp given
      rw [← same, fresh] at given
      cases given
    rw [stage, answers_reply, if_neg other, silent.answers_eq]
  have now : (env.work s).stage.answers order.ticket = [reply] := by
    rw [stage, answers_reply, if_pos rfl, silent.answers_eq, fresh]
  simp only [Session.settlements, errands, List.flatMap_append, List.flatMap_singleton, now,
    List.map_singleton]
  congr 1
  exact List.flatMap_congr fun errand taken => by rw [before errand taken]

theorem counted_work {s : Session σ π} (reached : env.Reaches settings file pool s)
    (calm : (env.work s).stage.crashes = 0) (counted : s.Counted) : (env.work s).Counted := by
  cases queued : s.spooler.queue with
  | nil =>
    have same : env.work s = s := by simp [work, env.step_nil queued, queued]
    rwa [same]
  | cons order later =>
    have alive := reached.orderly.alive_of_queue (by simp [queued])
    have fresh := (reached.balanced alive).answers_eq_nil (.inr ⟨order, by simp [queued], rfl⟩)
    cases answered : (env.process order.request s.spooler.writer s.stage).reply? with
    | none =>
      -- The writer would have died of a crash.
      have died := env.crashes_step s.spooler s.stage
      have dead : (env.step s.spooler s.stage).1.alive = false := by simp [step, queued, answered]
      have none : (env.step s.spooler s.stage).2.crashes = 0 := calm
      rw [dead, alive, none] at died
      simp at died
    | some reply =>
      obtain ⟨calls, told, tells⟩ := env.tells_process s.stage (by rw [answered]; rfl)
      obtain rfl : reply = told := Option.some.inj (answered.symm.trans tells.reply?)
      obtain ⟨-, errands, moved⟩ := calls_work queued tells.calls_eq
      have more := settlements_work queued answered fresh counted.settled errands
      refine ⟨?_, ?_, fun instrument => ?_⟩
      · rw [more, errands, List.map_append, counted.settled]
        rfl
      · rw [more]
        exact List.forall_mem_append.mpr ⟨counted.proper, by simpa using tells.proper⟩
      · rw [more, List.map_append, Word.total_append, ← counted.total]
        simp only [List.map_singleton, Word.total_cons, Word.total_nil, Nat.add_zero]
        by_cases bytes : instrument = .bytesWritten
        · subst bytes
          have further := bytes_work reached
          rw [moved, tells.cursor] at further
          rw [Settlement.rise]
          omega
        · rw [← tells.total instrument bytes]
          simp [work, step, queued, answered]

/-- The instruments show what was settled in every session in which nothing has crashed. -/
theorem Reaches.counted {s : Session σ π} (reached : env.Reaches settings file pool s) :
    s.stage.crashes = 0 → s.Counted := by
  apply reached.rule
  · intro spooler stage started _
    obtain ⟨cursor, -, -, rfl⟩ := spooler_start started
    refine ⟨rfl, by simp [Session.settlements, Session.fresh], fun instrument => ?_⟩
    exact total_note instrument _ _
  · intro s request reached counted calm
    have before := crashes_le_of_suffix (env.suffix_hand request s)
    exact (counted (by omega)).congr rfl
      (fun errand taken => answers_hand request (reached.orderly.ticket_lt taken))
      fun instrument => total_hand instrument request s
  · intro s reached counted calm
    have before := crashes_le_of_suffix (env.suffix_step s.spooler s.stage)
    exact counted_work reached calm (counted (by simp only [work] at calm; omega))
  · intro s notice _ counted calm
    exact (counted calm).congr rfl (fun _ _ => rfl) fun instrument => total_note instrument _ _
  · intro s _ counted calm
    exact (counted calm).congr rfl (fun _ _ => rfl) fun _ => rfl

end Surroundings

/-! ## What the instruments show -/

theorem total_toNat {α : Type} (p : α → Bool) (xs : List α) :
    Word.total (xs.map fun x => (p x).toNat) = xs.countP p := by
  induction xs with
  | nil => rfl
  | cons x xs ih =>
    rw [List.map_cons, Word.total_cons, ih, List.countP_cons]
    cases p x <;> simp [Nat.add_comm]

theorem Session.Marked.calm {s : Session σ π} (marked : s.Marked) (alive : s.spooler.alive = true) :
    s.stage.crashes = 0 := by
  have none : ¬ 0 < s.stage.crashes := by
    rw [Surroundings.crashes_pos_iff, ← marked.dead, alive]
    simp
  omega

namespace Session.Counted

variable {s : Session σ π}

theorem requests (counted : s.Counted) :
    s.stage.total .requests = s.settlements.countP Settlement.served :=
  (counted.total .requests).trans (total_toNat _ _)

theorem failedRequests (counted : s.Counted) :
    s.stage.total .failedRequests = s.settlements.countP Settlement.failed :=
  (counted.total .failedRequests).trans (total_toNat _ _)

theorem stored (counted : s.Counted) :
    s.errands.flatMap Errand.stored = s.settlements.flatMap Settlement.stored := by
  rw [← counted.settled, List.flatMap_map]
  rfl

theorem bytesWritten (counted : s.Counted) :
    s.stage.total .bytesWritten = framesSize (s.errands.flatMap Errand.stored) := by
  rw [counted.stored, counted.total]
  induction s.settlements with
  | nil => rfl
  | cons settlement later ih =>
    rw [List.map_cons, Word.total_cons, ih, List.flatMap_cons, framesSize_append]
    rfl

theorem buffersSpilled (counted : s.Counted) :
    s.stage.total .buffersSpilled =
      ((s.settlements.filter Settlement.served).flatMap Settlement.stored).length := by
  rw [counted.total]
  induction s.settlements with
  | nil => rfl
  | cons settlement later ih =>
    rw [List.map_cons, Word.total_cons, ih, List.filter_cons, Settlement.rise]
    split
    · rw [List.flatMap_cons, List.length_append]
    · rw [Nat.zero_add]

end Session.Counted

namespace Settlement

theorem length_eq {settlements : List Settlement}
    (proper : ∀ settlement ∈ settlements, settlement.Proper) :
    settlements.length = settlements.countP served + settlements.countP failed +
      settlements.countP refused := by
  induction settlements with
  | nil => rfl
  | cons settlement later ih =>
    obtain ⟨first, others⟩ := List.forall_mem_cons.mp proper
    rw [List.length_cons, ih others]
    cases first <;> simp [List.countP_cons, served, failed, refused] <;> omega

theorem length_stored {settlements : List Settlement}
    (proper : ∀ settlement ∈ settlements, settlement.Proper) :
    (settlements.flatMap stored).length =
      ((settlements.filter served).flatMap stored).length +
        ((settlements.filter failed).flatMap stored).length := by
  induction settlements with
  | nil => rfl
  | cons settlement later ih =>
    obtain ⟨first, others⟩ := List.forall_mem_cons.mp proper
    rw [List.flatMap_cons, List.length_append, ih others]
    cases first with
    | served entries whole =>
      rw [List.filter_cons_of_pos rfl, List.filter_cons_of_neg Bool.false_ne_true, List.flatMap_cons,
        List.length_append, Nat.add_assoc]
    | failed errand cause =>
      rw [List.filter_cons_of_neg Bool.false_ne_true, List.filter_cons_of_pos rfl, List.flatMap_cons,
        List.length_append, Nat.add_left_comm]
    | poisoned order =>
      rw [List.filter_cons_of_neg Bool.false_ne_true, List.filter_cons_of_neg Bool.false_ne_true]
      simp [stored, Errand.stored]
    | unframed order error =>
      rw [List.filter_cons_of_neg Bool.false_ne_true, List.filter_cons_of_neg Bool.false_ne_true]
      simp [stored, Errand.stored]

theorem Proper.whole {settlement : Settlement} (proper : settlement.Proper)
    (serves : settlement.served = true) :
    settlement.stored = settlement.errand.order.request.buffers := by
  cases proper with
  | served entries whole => exact whole
  | failed _ _ | poisoned _ | unframed _ _ => cases serves

theorem Proper.quiet {settlement : Settlement} (proper : settlement.Proper)
    (refuses : settlement.refused = true) : settlement.errand.calls = [] := by
  cases proper with
  | served _ _ | failed _ _ => cases refuses
  | poisoned _ | unframed _ _ => rfl

end Settlement

namespace Surroundings

variable {env : Surroundings σ π} {settings : Settings} {file : σ} {pool : π}

/-- Two frames of eleven bytes go to a file with room for fifteen: what was settled. -/
theorem settlements_cramped :
    let opened := ((cramped 15 100).start .standard (.start ⟨.empty, false⟩ ())).2
    let s := (cramped 15 100).run [.submit ⟨[threeBytes, threeBytes]⟩, .step]
      (.fresh ⟨.start .standard 0, true, []⟩ opened)
    (cramped 15 100).Reaches .standard ⟨.empty, false⟩ () s ∧ s.stage.crashes = 0 ∧
      ∃ first second, s.settlements = [⟨⟨⟨0, ⟨[threeBytes, threeBytes]⟩⟩, [.write 0 first (.done 15),
        .write 15 second (.failed (.ofCause .storageFull)), .truncate 11 (.done ())]⟩,
          .error (.io .storageFull)⟩] := by
  intro opened s
  obtain ⟨first, second, after, processed, made, -, calm⟩ := process_cramped
  let handed := (cramped 15 100).hand ⟨[threeBytes, threeBytes]⟩
    (.fresh ⟨.start .standard 0, true, []⟩ opened)
  have queued : handed.spooler.queue = [⟨0, ⟨[threeBytes, threeBytes]⟩⟩] := rfl
  have worked : s = _ := (cramped 15 100).work_of_reply queued processed
  obtain ⟨-, errands, -⟩ := calls_work queued
    ((congrArg (fun verdict => verdict.stage.calls) processed).trans made)
  refine ⟨.act .step (.act (.submit _) (.start rfl)), by rw [worked]; exact calm, first, second, ?_⟩
  exact settlements_work queued (congrArg Verdict.reply? processed) rfl rfl errands

/-- As long as nothing has crashed, every request that the writer took from its queue got one answer, and
it is counted as served if that has entries and as failed if a call on the file failed it. Requests that
were refused, to a poisoned writer or for a buffer that cannot be framed, are what is missing from the
two counts; no call was made for them. -/
theorem only_requests_that_were_written_are_counted {s : Session σ π}
    (reached : env.Reaches settings file pool s) (calm : s.stage.crashes = 0) :
    s.settlements.map Settlement.errand = s.errands ∧
    s.stage.total .requests = s.settlements.countP Settlement.served ∧
    s.stage.total .failedRequests = s.settlements.countP Settlement.failed ∧
    s.errands.length = s.stage.total .requests + s.stage.total .failedRequests +
      s.settlements.countP Settlement.refused ∧
    ∀ settlement ∈ s.settlements, settlement.refused = true → settlement.errand.calls = [] := by
  have counted := reached.counted calm
  refine ⟨counted.settled, counted.requests, counted.failedRequests, ?_,
    fun settlement member => (counted.proper settlement member).quiet⟩
  rw [counted.requests, counted.failedRequests, ← Settlement.length_eq counted.proper]
  exact (congrArg List.length counted.settled).symm.trans (List.length_map _)

/-- A file takes fifteen bytes of two frames before it is full. The request is counted as failed. -/
theorem one_failed_request_is_counted :
    let opened := ((cramped 15 100).start .standard (.start ⟨.empty, false⟩ ())).2
    let s := (cramped 15 100).run [.submit ⟨[threeBytes, threeBytes]⟩, .step]
      (.fresh ⟨.start .standard 0, true, []⟩ opened)
    s.stage.crashes = 0 ∧ s.stage.total .requests = 0 ∧ s.stage.total .failedRequests = 1 ∧
      s.errands.length = 1 := by
  intro opened s
  obtain ⟨reached, calm, first, second, settled⟩ := settlements_cramped
  obtain ⟨all, requests, failed, length, -⟩ := only_requests_that_were_written_are_counted reached calm
  rw [settled] at requests failed length
  rw [requests, failed] at length
  exact ⟨calm, requests, failed, length⟩

/-- A full file cannot be cut, and so the writer is poisoned. The request that comes next fails as well,
but is not counted. -/
theorem poisoned_request_fails_uncounted :
    let opened := (rehearsal.start .standard (.start jammed ⟨0, some 2⟩)).2
    let s := rehearsal.run [.submit ⟨[threeBytes]⟩, .step, .submit ⟨[threeBytes]⟩, .step]
      (.fresh ⟨.start .standard 0, true, []⟩ opened)
    rehearsal.Reaches .standard jammed ⟨0, some 2⟩ s ∧ s.stage.crashes = 0 ∧
      s.settlements.map Settlement.reply = [.error (.io .storageFull), .error .poisoned] ∧
      s.stage.total .requests = 0 ∧ s.stage.total .failedRequests = 1 ∧
      s.stage.total .requests + s.stage.total .failedRequests ≠ s.errands.length := by
  intro opened s
  have started : rehearsal.start .standard (.start jammed ⟨0, some 2⟩) =
      (.done ⟨.start .standard 0, true, []⟩, opened) := rfl
  have reached : rehearsal.Reaches .standard jammed ⟨0, some 2⟩ s := (Reaches.start started).run _
  have marked : s.Marked := marked_run (.start started) (marked_fresh started) _
  obtain ⟨file, journal, processed, -, unanswered⟩ := process_jammed
  have worked := rehearsal.work_of_reply (s := rehearsal.hand ⟨[threeBytes]⟩
    (.fresh ⟨.start .standard 0, true, []⟩ opened)) rfl processed
  have followed : s = rehearsal.work (rehearsal.hand ⟨[threeBytes]⟩ _) :=
    congrArg (fun s => rehearsal.work (rehearsal.hand ⟨[threeBytes]⟩ s)) worked
  have calm := marked.calm (by rw [followed]; rfl)
  obtain ⟨made, more, errands⟩ : ∃ made more,
      s.errands = [⟨⟨0, ⟨[threeBytes]⟩⟩, made⟩, ⟨⟨1, ⟨[threeBytes]⟩⟩, more⟩] :=
    ⟨_, _, by rw [followed]; rfl⟩
  have first : s.stage.answers 0 = [.error (.io .storageFull)] := by
    have answers : s.stage.answers 0 = .error (.io .storageFull) :: answersIn 0 journal := by
      rw [followed]
      rfl
    rw [answers, unanswered]
  have second : s.stage.answers 1 = [.error .poisoned] := by
    have answers : s.stage.answers 1 = .error .poisoned :: answersIn 1 journal := by
      rw [followed]
      rfl
    rw [answers, unanswered]
  have settled : s.settlements = [⟨⟨⟨0, ⟨[threeBytes]⟩⟩, made⟩, .error (.io .storageFull)⟩,
      ⟨⟨⟨1, ⟨[threeBytes]⟩⟩, more⟩, .error .poisoned⟩] := by
    simp [Session.settlements, errands, first, second]
  have counted : s.Counted := reached.counted calm
  have requests : s.stage.total .requests = 0 := by
    rw [counted.requests, settled]
    rfl
  have failed : s.stage.total .failedRequests = 1 := by
    rw [counted.failedRequests, settled]
    rfl
  refine ⟨reached, calm, by rw [settled]; rfl, requests, failed, ?_⟩
  rw [requests, failed, errands]
  simp

/-- As long as nothing has crashed, the bytes that are counted are those of the frames that the file took
whole, for whichever request. The buffers that are counted are those of the requests that were served; the
frames that are left of failed ones are what is missing. -/
theorem only_buffers_of_served_requests_are_counted {s : Session σ π}
    (reached : env.Reaches settings file pool s) (calm : s.stage.crashes = 0) :
    s.settlements.map Settlement.errand = s.errands ∧
    s.stage.total .bytesWritten = framesSize (s.errands.flatMap Errand.stored) ∧
    s.stage.total .buffersSpilled =
      ((s.settlements.filter Settlement.served).flatMap Settlement.stored).length ∧
    (s.errands.flatMap Errand.stored).length = s.stage.total .buffersSpilled +
      ((s.settlements.filter Settlement.failed).flatMap Settlement.stored).length := by
  have counted := reached.counted calm
  refine ⟨counted.settled, counted.bytesWritten, counted.buffersSpilled, ?_⟩
  rw [counted.stored, counted.buffersSpilled]
  exact Settlement.length_stored counted.proper

/-- Three bytes are spilled. They are a frame of eleven bytes, and one buffer. -/
theorem one_served_buffer_is_counted :
    let opened := (inMemory.start .standard (.start ⟨.empty, false⟩ ⟨0, none⟩)).2
    let s := inMemory.run [.submit ⟨[threeBytes]⟩, .step] (.fresh ⟨.start .standard 0, true, []⟩ opened)
    s.stage.crashes = 0 ∧ s.stage.total .bytesWritten = 11 ∧ s.stage.total .buffersSpilled = 1 ∧
      (s.errands.flatMap Errand.stored).length = 1 := by
  intro opened s
  have started : inMemory.start .standard (.start ⟨.empty, false⟩ ⟨0, none⟩) =
      (.done ⟨.start .standard 0, true, []⟩, opened) := rfl
  have reached : inMemory.Reaches .standard ⟨.empty, false⟩ ⟨0, none⟩ s := (Reaches.start started).run _
  have marked : s.Marked := marked_run (.start started) (marked_fresh started) _
  obtain ⟨after, processed⟩ := process_threeBytes
  let handed := inMemory.hand ⟨[threeBytes]⟩ (.fresh ⟨.start .standard 0, true, []⟩ opened)
  have queued : handed.spooler.queue = [⟨0, ⟨[threeBytes]⟩⟩] := rfl
  have worked : s = _ := inMemory.work_of_reply queued processed
  have calm := marked.calm (by rw [worked]; rfl)
  have settled : s.settlements = [⟨⟨⟨0, ⟨[threeBytes]⟩⟩, _⟩, .ok [⟨7, 0, 0⟩]⟩] :=
    settlements_work queued (congrArg Verdict.reply? processed) rfl rfl rfl
  have counted : s.Counted := reached.counted calm
  have stored : s.errands.flatMap Errand.stored = [threeBytes.buffer] := by
    have proper := counted.proper _ (by rw [settled]; exact List.mem_cons_self)
    rw [counted.stored, settled, List.flatMap_singleton]
    exact proper.whole rfl
  obtain ⟨-, bytes, buffers, all⟩ := only_buffers_of_served_requests_are_counted reached calm
  rw [stored] at bytes all
  rw [settled] at all
  exact ⟨calm, bytes, all.symm, by rw [stored]; rfl⟩

/-- A file takes fifteen bytes of two frames before it is full. The first frame is kept, and its bytes
are counted, but no buffer is. -/
theorem kept_frame_of_a_failed_request_is_no_buffer :
    let opened := ((cramped 15 100).start .standard (.start ⟨.empty, false⟩ ())).2
    let s := (cramped 15 100).run [.submit ⟨[threeBytes, threeBytes]⟩, .step]
      (.fresh ⟨.start .standard 0, true, []⟩ opened)
    (cramped 15 100).Reaches .standard ⟨.empty, false⟩ () s ∧ s.stage.crashes = 0 ∧
      s.errands.flatMap Errand.stored = [threeBytes.buffer] ∧
      s.stage.total .bytesWritten = framesSize [threeBytes.buffer] ∧
      s.stage.total .buffersSpilled = 0 ∧
      s.stage.total .buffersSpilled ≠ (s.errands.flatMap Errand.stored).length := by
  intro opened s
  obtain ⟨reached, calm, first, second, settled⟩ := settlements_cramped
  have counted : s.Counted := reached.counted calm
  have stored : s.errands.flatMap Errand.stored = [threeBytes.buffer] := by
    have one : wholeWithin 15 [threeBytes.buffer, threeBytes.buffer] = 1 := by decide
    rw [counted.stored, settled]
    show [threeBytes.buffer, threeBytes.buffer].take
      (wholeWithin 15 [threeBytes.buffer, threeBytes.buffer]) ++ [] = _
    rw [one]
    rfl
  have buffers : s.stage.total .buffersSpilled = 0 := by
    rw [counted.buffersSpilled, settled]
    rfl
  refine ⟨reached, calm, stored, by rw [counted.bytesWritten, stored], buffers, ?_⟩
  rw [buffers, stored]
  simp

end Surroundings
end Spillway
