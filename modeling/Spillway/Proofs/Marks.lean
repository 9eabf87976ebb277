import Spillway.Proofs.Answers
/-!
How a writer comes to be poisoned or dead, read off the journal. `Stage.Marks` says of more events
whether a cut failed among them and whether something crashed, and there is one lemma about it for each
function of the writer, as there is one about `Surroundings.Effect`. The outcome of every function tells
exactly whether something crashed, and only the repair of a request can poison the writer. So a
writer is poisoned if and only if a cut has failed, and dead if and only if something has crashed.
-/

namespace Spillway

variable {σ π : Type}

/-- The file could not be cut, and said so. -/
def Call.failsToCut : Call → Bool
  | .truncate _ (.failed _) => true
  | _ => false

def Event.poisons : Event σ → Bool
  | .called call => call.failsToCut
  | _ => false

/-- `after` is `before` with more events. A cut failed among them exactly if `poisoned`, and
something crashed exactly if `crashed`. -/
def Stage.Marks (poisoned crashed : Prop) (before after : Stage σ π) : Prop :=
  ∃ new, after.journal = new ++ before.journal ∧ ((∃ event ∈ new, event.poisons) ↔ poisoned) ∧
    ((∃ event ∈ new, event.isCrash) ↔ crashed)

namespace Stage.Marks

variable {poisoned crashed poisonedLater crashedLater : Prop} {before between after : Stage σ π}

theorem refl (stage : Stage σ π) : Stage.Marks False False stage stage :=
  ⟨[], rfl, by simp, by simp⟩

theorem trans (first : Stage.Marks poisoned crashed before between)
    (second : Stage.Marks poisonedLater crashedLater between after) :
    Stage.Marks (poisoned ∨ poisonedLater) (crashed ∨ crashedLater) before after := by
  obtain ⟨new, journal, poisons, crashes⟩ := first
  obtain ⟨newer, journal', poisons', crashes'⟩ := second
  refine ⟨newer ++ new, by rw [journal', journal, List.append_assoc], ?_, ?_⟩
  · rw [← poisons, ← poisons']
    simp only [List.mem_append, or_and_right, exists_or]
    exact Or.comm
  · rw [← crashes, ← crashes']
    simp only [List.mem_append, or_and_right, exists_or]
    exact Or.comm

theorem congr (marks : Stage.Marks poisoned crashed before after) (same : poisoned ↔ poisonedLater)
    (same' : crashed ↔ crashedLater) : Stage.Marks poisonedLater crashedLater before after := by
  obtain ⟨new, journal, poisons, crashes⟩ := marks
  exact ⟨new, journal, poisons.trans same, crashes.trans same'⟩

theorem of_record (stage : Stage σ π) (event : Event σ) :
    Stage.Marks (event.poisons = true) (event.isCrash = true) stage (stage.record event) :=
  ⟨[event], rfl, by simp, by simp⟩

theorem of_event {event : Event σ} (journal : after.journal = event :: before.journal) :
    Stage.Marks (event.poisons = true) (event.isCrash = true) before after :=
  ⟨[event], journal, by simp, by simp⟩

theorem note (stage : Stage σ π) (notice : Notice) :
    Stage.Marks False False stage (stage.note notice) :=
  (of_record stage (.noted notice)).congr (by simp [Event.poisons]) (by simp [Event.isCrash])

theorem count (stage : Stage σ π) (instrument : Instrument) (amount : Nat) :
    Stage.Marks False False stage (stage.count instrument amount) :=
  (of_record stage (.counted instrument amount)).congr (by simp [Event.poisons])
    (by simp [Event.isCrash])

theorem reply (stage : Stage σ π) (ticket : Nat) (reply : Reply) :
    Stage.Marks False False stage (stage.reply ticket reply) :=
  (of_record stage (.replied ticket reply)).congr (by simp [Event.poisons])
    (by simp [Event.isCrash])

theorem crash (stage : Stage σ π) : Stage.Marks False True stage stage.crash :=
  (of_record stage .crashed).congr (by simp [Event.poisons]) (by simp [Event.isCrash])

theorem countFailure (stage : Stage σ π) (request : Request) (start bytes : Nat)
    (error : SpillError) :
    Stage.Marks False False stage (stage.countFailure request start bytes error) :=
  ((count stage _ _).trans (note _ _)).congr (or_self_iff) (or_self_iff)

theorem countSuccess (stage : Stage σ π) (request : Request) :
    Stage.Marks False False stage (stage.countSuccess request) :=
  (((count stage _ _).trans (count _ _ _)).trans (count _ _ _)).congr (by simp) (by simp)

theorem followed (first : Stage.Marks poisoned crashed before between)
    (second : Stage.Marks False False between after) : Stage.Marks poisoned crashed before after :=
  (first.trans second).congr (or_iff_left id) (or_iff_left id)

theorem preceded (first : Stage.Marks False False before between)
    (second : Stage.Marks poisoned crashed between after) :
    Stage.Marks poisoned crashed before after :=
  (first.trans second).congr (or_iff_right id) (or_iff_right id)

end Stage.Marks

namespace Surroundings

variable (env : Surroundings σ π)

theorem marks_writeOn (slices : List Extent) (position : Nat) (stage : Stage σ π) :
    Stage.Marks False ((env.writeOn slices position stage).1 = .crashed) stage
      (env.writeOn slices position stage).2 :=
  (Stage.Marks.of_event rfl).congr (by simp [Event.poisons, Call.failsToCut])
    (by simp [Event.isCrash, Call.hasCrashed, Store.writeOn])

theorem marks_truncateOn (length : Nat) (stage : Stage σ π) :
    Stage.Marks (∃ failure, (env.truncateOn length stage).1 = .failed failure)
      ((env.truncateOn length stage).1 = .crashed) stage (env.truncateOn length stage).2 := by
  refine (Stage.Marks.of_event rfl).congr ?_
    (by simp [Event.isCrash, Call.hasCrashed, Store.truncateOn])
  cases answer : (env.truncate stage.file length).1 <;>
    simp [Event.poisons, Call.failsToCut, Store.truncateOn, answer]

theorem marks_syncOn (stage : Stage σ π) :
    Stage.Marks False ((env.syncOn stage).1 = .crashed) stage (env.syncOn stage).2 :=
  (Stage.Marks.of_event rfl).congr (by simp [Event.poisons, Call.failsToCut])
    (by simp [Event.isCrash, Call.hasCrashed, Store.syncOn])

private theorem marks_next {position : Nat} {slices : List Extent} {stage after : Stage σ π}
    {answer : Answer Nat} (call : env.writeOn slices position stage = (answer, after)) :
    Stage.Marks False (answer = .crashed) stage after := by
  have marks := env.marks_writeOn slices position stage
  rwa [call] at marks

theorem marks_transferFrom (offset before : Nat) (slices : List Extent) (taken : Nat)
    (stage : Stage σ π) :
    Stage.Marks False ((env.transferFrom offset before slices taken stage).finish = .crashed) stage
      (env.transferFrom offset before slices taken stage).stage := by
  fun_induction env.transferFrom offset before slices taken stage with
  | case1 slices taken stage none => exact (Stage.Marks.refl stage).congr (by simp) (by simp)
  | case2 slices taken stage some overflow =>
    exact (Stage.Marks.crash stage).congr (by simp) (by simp)
  | case3 slices taken stage some position found after call =>
    exact (env.marks_next call).congr (by simp) (by simp)
  | case4 slices taken stage some position found failure after call interrupted ih =>
    exact ((env.marks_next call).congr (by simp) (by simp)).preceded ih
  | case5 slices taken stage some position found failure after call fatal =>
    exact (env.marks_next call).congr (by simp) (by simp)
  | case6 slices taken stage some position found after call =>
    exact (env.marks_next call).congr (by simp) (by simp)
  | case7 slices taken stage some position found n after call nonzero overflow =>
    exact ((env.marks_next call).trans (.crash after)).congr (by simp) (by simp)
  | case8 slices taken stage some position found n after call nonzero counted overclaimed =>
    exact ((env.marks_next call).trans (.crash after)).congr (by simp) (by simp)
  | case9 slices taken stage some position found n after call nonzero counted within ih =>
    exact ((env.marks_next call).congr (by simp) (by simp)).preceded ih

theorem marks_release (buffer : Buffer) (stage : Stage σ π) :
    Stage.Marks False ((env.release buffer stage).1 = true) stage (env.release buffer stage).2 := by
  unfold Pool.release Pool.giveBack
  cases buffer.owner with
  | nobody =>
    exact (Stage.Marks.of_record stage (.released .nobody buffer.segment stage.file)).congr
      (by simp [Event.poisons]) (by simp [Event.isCrash])
  | pool number =>
    have handed : Stage.Marks False False stage
        { stage.record (.released (.pool number) buffer.segment stage.file) with
          pool := (env.reclaim stage.pool number buffer.segment).2 } :=
      (Stage.Marks.of_event rfl).congr (by simp [Event.poisons]) (by simp [Event.isCrash])
    -- The pool is asked on the stage that has the release on record, which has the same pool.
    change Stage.Marks False ((env.reclaim stage.pool number buffer.segment).1 = true) stage
      (if (env.reclaim stage.pool number buffer.segment).1 = true then Stage.crash _ else _)
    by_cases crash : (env.reclaim stage.pool number buffer.segment).1 = true
    · rw [if_pos crash]
      exact (handed.preceded (.crash _)).congr Iff.rfl (by simp [crash])
    · rw [if_neg crash]
      exact handed.congr Iff.rfl (by simp [crash])

theorem marks_releaseAll (buffers : List Buffer) (stage : Stage σ π) :
    Stage.Marks False ((env.releaseAll buffers stage).1 = true) stage
      (env.releaseAll buffers stage).2 := by
  induction buffers generalizing stage with
  | nil => exact (Stage.Marks.refl stage).congr Iff.rfl (by simp [Pool.releaseAll])
  | cons buffer rest ih =>
    have both := (env.marks_release buffer stage).trans (ih (env.release buffer stage).2)
    exact both.congr or_self_iff (by simp [Pool.releaseAll])

theorem marks_commit (written committed : Nat) (batch : List Buffer) (stage : Stage σ π) :
    Stage.Marks False ((env.commit written committed batch stage).crashed = true) stage
      (env.commit written committed batch stage).stage := by
  obtain ⟨crashed, after⟩ := env.commit_releases written committed batch stage
  rw [crashed, after]
  exact env.marks_releaseAll batch stage

theorem marks_settleBatch (batch : List Buffer) (written : Nat) {outcome : Outcome}
    (calm : outcome ≠ .crashed) (writer : Writer) (stage : Stage σ π) :
    Stage.Marks False ((env.settleBatch batch written outcome writer stage).outcome = .crashed)
      stage (env.settleBatch batch written outcome writer stage).stage := by
  have committed := env.marks_commit written 0 batch stage
  simp only [settleBatch]
  by_cases crashed : (env.commit written 0 batch stage).crashed = true
  · rw [if_pos crashed]
    exact committed.congr Iff.rfl (by simp [crashed])
  · rw [if_neg crashed]
    exact (committed.followed (.count _ _ _)).congr Iff.rfl (by simp [crashed, calm])

theorem marks_writeBatch (batch : List Buffer) (writer : Writer) (stage : Stage σ π) :
    Stage.Marks False ((env.writeBatch batch writer stage).outcome = .crashed) stage
      (env.writeBatch batch writer stage).stage := by
  unfold writeBatch
  cases batch.mapM Buffer.encode with
  | error error =>
    refine (env.marks_releaseAll batch stage).congr Iff.rfl ?_
    by_cases crash : (env.releaseAll batch stage).1 = true <;> simp [crash]
  | ok frames =>
    have moved := env.marks_transferFrom writer.cursor 0 (frames.flatMap Frame.slices) 0 stage
    simp only
    unfold Store.transfer
    generalize env.transferFrom writer.cursor 0 (frames.flatMap Frame.slices) 0 stage = transfer
      at moved
    have noted := moved.followed (.note transfer.stage
      (.wrote transfer.written batch.length writer.cursor))
    cases finish : transfer.finish with
    | crashed =>
      exact (moved.trans (env.marks_releaseAll batch transfer.stage)).congr or_self_iff
        (by simp [finish])
    | failed failure =>
      exact (noted.congr Iff.rfl (by simp [finish])).preceded
        (env.marks_settleBatch batch _ (by simp) writer _)
    | done value =>
      exact (noted.congr Iff.rfl (by simp [finish])).preceded
        (env.marks_settleBatch batch _ (by simp) writer _)

theorem marks_writeBatches (batches : List (List Buffer)) (writer : Writer) (stage : Stage σ π) :
    Stage.Marks False ((env.writeBatches batches writer stage).outcome = .crashed) stage
      (env.writeBatches batches writer stage).stage := by
  fun_induction env.writeBatches batches writer stage with
  | case1 writer stage => exact (Stage.Marks.refl stage).congr Iff.rfl (by simp)
  | case2 batch later writer stage work done ih =>
    have first : Stage.Marks False (work.outcome = .crashed) stage work.stage :=
      env.marks_writeBatch batch writer stage
    exact (first.congr Iff.rfl (by simp [done])).preceded ih
  | case3 batch later writer stage work dropped fails =>
    have both := (env.marks_writeBatch batch writer stage).trans
      (env.marks_releaseAll later.flatten work.stage)
    refine both.congr or_self_iff ?_
    by_cases late : dropped.1 = true
    · rw [if_pos late]
      exact iff_of_true (.inr late) rfl
    · rw [if_neg late]
      exact or_iff_left late

theorem marks_repair (writer : Writer) (stage : Stage σ π) (sound : writer.poisoned = false) :
    Stage.Marks ((env.repair writer stage).2.1.poisoned = true) ((env.repair writer stage).1 = true)
      stage (env.repair writer stage).2.2 := by
  have called := env.marks_truncateOn writer.cursor stage
  unfold repair
  generalize env.truncateOn writer.cursor stage = done at called
  obtain ⟨answer, after⟩ := done
  cases answer with
  | done value => exact (called.followed (.note after _)).congr (by simp [sound]) (by simp)
  | failed failure => exact (called.followed (.note after _)).congr (by simp) (by simp)
  | crashed => exact called.congr (by simp [sound]) (by simp)

theorem marks_refuse (request : Request) (error : SpillError) (writer : Writer)
    (stage : Stage σ π) :
    Stage.Marks False ((env.refuse request error writer stage).reply? = none) stage
      (env.refuse request error writer stage).stage := by
  refine (env.marks_releaseAll request.buffers stage).congr Iff.rfl ?_
  by_cases crash : (env.releaseAll request.buffers stage).1 = true <;> simp [refuse, crash]

theorem poisoned_writeBatch (batch : List Buffer) (writer : Writer) (stage : Stage σ π) :
    (env.writeBatch batch writer stage).writer.poisoned = writer.poisoned := by
  unfold writeBatch
  cases batch.mapM Buffer.encode with
  | error error => rfl
  | ok frames =>
    simp only [settleBatch]
    cases (env.transfer (frames.flatMap Frame.slices) writer.cursor 0 stage).finish with
    | crashed => rfl
    | failed failure => simp only; split <;> rfl
    | done value => simp only; split <;> rfl

theorem poisoned_writeBatches (batches : List (List Buffer)) (writer : Writer)
    (stage : Stage σ π) :
    (env.writeBatches batches writer stage).writer.poisoned = writer.poisoned := by
  fun_induction env.writeBatches batches writer stage with
  | case1 writer stage => rfl
  | case2 batch later writer stage work done ih =>
    exact ih.trans (env.poisoned_writeBatch batch writer stage)
  | case3 batch later writer stage work dropped fails =>
    exact env.poisoned_writeBatch batch writer stage

theorem marks_writeRequest (request : Request) (writer : Writer) (stage : Stage σ π) :
    Stage.Marks False ((env.writeRequest request writer stage).outcome = .crashed) stage
      (env.writeRequest request writer stage).stage :=
  env.marks_writeBatches _ writer stage

theorem poisoned_writeRequest (request : Request) (writer : Writer) (stage : Stage σ π) :
    (env.writeRequest request writer stage).writer.poisoned = writer.poisoned :=
  env.poisoned_writeBatches _ writer stage

theorem marks_carryOut (request : Request) (entries : List Entry) {writer : Writer}
    (stage : Stage σ π) (sound : writer.poisoned = false) :
    Stage.Marks ((env.carryOut request entries writer stage).writer.poisoned = true)
      ((env.carryOut request entries writer stage).reply? = none) stage
      (env.carryOut request entries writer stage).stage := by
  have wrote := (Stage.Marks.note stage
    (.spilling request.items.length request.framedSize writer.cursor)).preceded
      (env.marks_writeRequest request writer _)
  have kept := env.poisoned_writeRequest request writer
    (stage.note (.spilling request.items.length request.framedSize writer.cursor))
  simp only [carryOut]
  generalize env.writeRequest request writer
    (stage.note (.spilling request.items.length request.framedSize writer.cursor)) = work
    at wrote kept
  rw [sound] at kept
  cases outcome : work.outcome with
  | crashed => exact wrote.congr (by simp [kept]) (by simp [outcome])
  | failed error =>
    have quiet : Stage.Marks False False stage work.stage := wrote.congr Iff.rfl (by simp [outcome])
    have reported := quiet.followed
      (.countFailure work.stage request writer.cursor (work.writer.cursor - writer.cursor) error)
    have repaired := reported.preceded (env.marks_repair work.writer _ kept)
    simp only
    generalize env.repair work.writer (work.stage.countFailure request writer.cursor
      (work.writer.cursor - writer.cursor) error) = done at repaired
    refine repaired.congr Iff.rfl ?_
    by_cases crash : done.1 = true <;> simp [crash]
  | done =>
    have quiet : Stage.Marks False False stage work.stage := wrote.congr Iff.rfl (by simp [outcome])
    simp only
    by_cases each : work.writer.settings.syncEach = true
    · rw [if_pos each]
      have synced := quiet.preceded (env.marks_syncOn work.stage)
      generalize env.syncOn work.stage = done at synced
      obtain ⟨answer, after⟩ := done
      cases answer with
      | crashed => exact synced.congr (by simp [kept]) (by simp)
      | failed cause =>
        exact (synced.followed (.countFailure after request _ _ _)).congr (by simp [kept]) (by simp)
      | done value =>
        exact (synced.followed (.countSuccess after request)).congr (by simp [kept]) (by simp)
    · rw [if_neg each]
      exact (quiet.followed (.countSuccess work.stage request)).congr (by simp [kept]) (by simp)

theorem process_of_poisoned (request : Request) {writer : Writer} (stage : Stage σ π)
    (poisoned : writer.poisoned = true) :
    env.process request writer stage = env.refuse request .poisoned writer stage := by
  rw [process, if_pos poisoned]

/-- A request poisons the writer exactly if a cut fails, and is only without a reply if something
crashed. -/
theorem marks_process (request : Request) (writer : Writer) (stage : Stage σ π) :
    Stage.Marks (writer.poisoned = false ∧ (env.process request writer stage).writer.poisoned = true)
      ((env.process request writer stage).reply? = none) stage
      (env.process request writer stage).stage := by
  by_cases poisoned : writer.poisoned = true
  · rw [env.process_of_poisoned request stage poisoned]
    exact (env.marks_refuse request .poisoned writer stage).congr (by simp [poisoned]) Iff.rfl
  · have sound : writer.poisoned = false := by simpa using poisoned
    rw [process, if_neg poisoned]
    cases request.refusal? with
    | some error =>
      exact (env.marks_refuse request _ writer stage).congr (by simp [refuse, sound]) Iff.rfl
    | none =>
      cases request.entries? writer.cursor with
      | none =>
        exact ((Stage.Marks.crash stage).trans (env.marks_releaseAll request.buffers _)).congr
          (by simp [sound]) (by simp)
      | some entries =>
        exact (env.marks_carryOut request entries stage sound).congr (by simp [sound]) Iff.rfl

theorem poisoned_process (request : Request) {writer : Writer} (stage : Stage σ π)
    (poisoned : writer.poisoned = true) :
    (env.process request writer stage).writer.poisoned = true := by
  rw [env.process_of_poisoned request stage poisoned]
  exact poisoned

/-- Orders that are abandoned are let go and answered; no cut is made. -/
theorem marks_abandon (orders : List Order) (stage : Stage σ π) :
    ∃ crashed, Stage.Marks False crashed stage (env.abandon orders stage) := by
  induction orders generalizing stage with
  | nil => exact ⟨False, .refl stage⟩
  | cons order later ih =>
    have dropped := (env.marks_releaseAll order.request.buffers stage).followed
      (.reply _ order.ticket (.error .closed))
    obtain ⟨crashed, rest⟩ := ih ((env.releaseAll order.request.buffers stage).2.reply
      order.ticket (.error .closed))
    exact ⟨_, (dropped.trans rest).congr or_self_iff Iff.rfl⟩

end Surroundings

/-- A writer is poisoned if and only if a cut has failed, and dead if and only if something has
crashed. -/
structure Session.Marked (s : Session σ π) : Prop where
  poisoned : s.spooler.writer.poisoned = true ↔ ∃ event ∈ s.stage.journal, event.poisons
  dead : s.spooler.alive = false ↔ ∃ event ∈ s.stage.journal, event.isCrash

/-- What the marks of more events say of all events. -/
theorem Stage.Marks.exists_iff {poisoned crashed : Prop} {before after : Stage σ π}
    (marks : Stage.Marks poisoned crashed before after) :
    ((∃ event ∈ after.journal, event.poisons) ↔
      poisoned ∨ ∃ event ∈ before.journal, event.poisons) ∧
    ((∃ event ∈ after.journal, event.isCrash) ↔
      crashed ∨ ∃ event ∈ before.journal, event.isCrash) := by
  obtain ⟨new, journal, poisons, crashes⟩ := marks
  rw [journal, ← poisons, ← crashes]
  simp only [List.mem_append, or_and_right, exists_or, and_self]

namespace Surroundings

variable {env : Surroundings σ π} {settings : Settings} {file : σ} {pool : π}

theorem marked_hand {s : Session σ π} (request : Request) (marked : s.Marked) :
    (env.hand request s).Marked := by
  obtain ⟨poisoned, dead⟩ := marked
  obtain ⟨cuts, crashes⟩ := (env.marks_releaseAll request.buffers s.stage).exists_iff
  simp only [hand, submit]
  split
  · obtain ⟨cuts, crashes⟩ := (Stage.Marks.reply s.stage s.submitted.length (.ok [])).exists_iff
    exact ⟨poisoned.trans (by simp [cuts]), dead.trans (by simp [crashes])⟩
  · split
    · exact ⟨poisoned, dead⟩
    · rename_i full alive
      -- The writer is dead already, so that one more crash does not change what is said.
      have gone : s.spooler.alive = false := by simpa using alive
      split
      · exact ⟨poisoned.trans (by simp [cuts]), iff_of_true gone (crashes.mpr (.inr (dead.mp gone)))⟩
      · obtain ⟨cuts', crashes'⟩ := (Stage.Marks.reply (env.releaseAll request.buffers s.stage).2
          s.submitted.length (.error .closed)).exists_iff
        refine ⟨poisoned.trans (by simp [cuts', cuts]), iff_of_true gone ?_⟩
        exact crashes'.mpr (.inr (crashes.mpr (.inr (dead.mp gone))))

theorem marked_work {s : Session σ π} (orderly : s.Orderly) (marked : s.Marked) :
    (env.work s).Marked := by
  obtain ⟨poisoned, dead⟩ := marked
  cases queued : s.spooler.queue with
  | nil =>
    simp only [work, env.step_nil queued]
    exact ⟨poisoned, dead⟩
  | cons order later =>
    have alive := orderly.alive_of_queue (by simp [queued])
    have calm : ¬ ∃ event ∈ s.stage.journal, event.isCrash := by
      rw [← dead, alive]
      simp
    have processed := env.marks_process order.request s.spooler.writer s.stage
    have stays : s.spooler.writer.poisoned = true →
        (env.process order.request s.spooler.writer s.stage).writer.poisoned = true :=
      env.poisoned_process order.request s.stage
    simp only [work, step, queued]
    generalize env.process order.request s.spooler.writer s.stage = verdict at processed stays
    have same : verdict.writer.poisoned = true ↔
        (s.spooler.writer.poisoned = false ∧ verdict.writer.poisoned = true) ∨
          ∃ event ∈ s.stage.journal, event.poisons := by
      rw [← poisoned]
      cases was : s.spooler.writer.poisoned with
      | false => simp
      | true => simp [stays was]
    cases answered : verdict.reply? with
    | some reply =>
      obtain ⟨cuts, crashes⟩ :=
        (processed.followed (.reply verdict.stage order.ticket reply)).exists_iff
      refine ⟨same.trans cuts.symm, ?_⟩
      rw [crashes, answered, alive]
      simp [calm]
    | none =>
      obtain ⟨crashed, rest⟩ :=
        env.marks_abandon later (verdict.stage.reply order.ticket (.error .closed))
      obtain ⟨cuts, crashes⟩ :=
        ((processed.followed (.reply verdict.stage order.ticket (.error .closed))).trans rest).exists_iff
      refine ⟨?_, iff_of_true rfl (crashes.mpr (.inl (.inl answered)))⟩
      rw [cuts, or_false]
      exact same

theorem marked_fresh {spooler : Spooler} {stage : Stage σ π}
    (started : env.start settings (.start file pool) = (.done spooler, stage)) :
    (Session.fresh spooler stage).Marked := by
  obtain ⟨cursor, -, rfl, rfl⟩ := spooler_start started
  constructor <;> simp [Session.fresh, Stage.note, Stage.record, Stage.start, Writer.start,
    Event.poisons, Event.isCrash, Call.failsToCut]

/-- As long as a spooler has not been given up, the journal tells whether its writer is poisoned or
dead. -/
theorem marked_run {s : Session σ π} (reached : env.Reaches settings file pool s)
    (marked : s.Marked) (acts : List Act) : (env.run acts s).Marked := by
  induction acts generalizing s with
  | nil => exact marked
  | cons act acts ih =>
    apply ih (.act act reached)
    cases act with
    | submit request => exact marked_hand request marked
    | forget ticket => exact marked
    | step => exact marked_work reached.orderly marked

end Surroundings
end Spillway
