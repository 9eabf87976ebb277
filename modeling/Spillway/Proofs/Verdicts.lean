import Spillway.Proofs.Session
import Spillway.Proofs.Writing
/-!
What a request that is answered has come to. It was refused before the file was called, or its frames
were written, or it was cut back to its whole frames after a write that failed, or that was not
possible and the writer is poisoned. `Surroundings.Settles` has a case for each of these.
-/

namespace Spillway

variable {σ π : Type}

/-- The file was synced, which did not crash, and not called otherwise. -/
def Surroundings.Synced (env : Surroundings σ π) (before after : Stage σ π) : Prop :=
  ∃ answer, answer ≠ .crashed ∧ env.sync before.file = (answer, after.file) ∧
    after.calls = before.calls ++ [.sync answer]

/-- The work of writing a request, which is reported first. -/
def Surroundings.spill (env : Surroundings σ π) (request : Request) (writer : Writer)
    (stage : Stage σ π) : Work σ π :=
  env.writeRequest request writer
    (stage.note (.spilling request.items.length request.framedSize writer.cursor))

/-- The ways in which a request is answered. -/
inductive Surroundings.Settles (env : Surroundings σ π) (request : Request) (writer : Writer)
    (before : Stage σ π) : Verdict σ π → Prop
  | poisoned {after : Stage σ π} (poisoned : writer.poisoned = true)
      (untouched : before.Untouched after) :
      Settles env request writer before ⟨some (.error .poisoned), writer, after⟩
  | refused {error : FrameError} {after : Stage σ π} (sound : writer.poisoned = false)
      (refusal : request.refusal? = some error) (untouched : before.Untouched after) :
      Settles env request writer before ⟨some (.error (.frame error)), writer, after⟩
  | written {reply : Reply} {after : Stage σ π} (sound : writer.poisoned = false)
      (accepted : request.refusal? = none)
      (done : (env.spill request writer before).outcome = .done)
      (last : (env.spill request writer before).stage.Untouched after ∨
        env.Synced (env.spill request writer before).stage after)
      (answer : (∃ cause, reply = .error (.io cause)) ∨
        ∃ entries, request.entries? writer.cursor = some entries ∧ reply = .ok entries) :
      Settles env request writer before
        ⟨some reply, (env.spill request writer before).writer, after⟩
  | cut {error : SpillError} {between cut after : Stage σ π} (sound : writer.poisoned = false)
      (accepted : request.refusal? = none)
      (failed : (env.spill request writer before).outcome = .failed error)
      (reported : (env.spill request writer before).stage.Untouched between)
      (truncated : env.truncateOn (env.spill request writer before).writer.cursor between =
        (.done (), cut))
      (untouched : cut.Untouched after) :
      Settles env request writer before
        ⟨some (.error error), (env.spill request writer before).writer, after⟩
  | stuck {error : SpillError} {after : Stage σ π} (sound : writer.poisoned = false)
      (accepted : request.refusal? = none)
      (failed : (env.spill request writer before).outcome = .failed error) :
      Settles env request writer before
        ⟨some (.error error), { (env.spill request writer before).writer with poisoned := true },
          after⟩

namespace Surroundings

variable {env : Surroundings σ π} {bytes : σ → List UInt8} {request : Request} {writer : Writer}
  {stage : Stage σ π}

theorem synced_syncOn {answer : Answer Unit} {after : Stage σ π}
    (call : env.syncOn stage = (answer, after)) (calm : answer ≠ .crashed) :
    env.Synced stage after :=
  ⟨answer, calm, Store.called_syncOn call⟩

theorem Synced.trans_untouched {between after : Stage σ π} (synced : env.Synced stage between)
    (untouched : between.Untouched after) : env.Synced stage after := by
  obtain ⟨answer, calm, file, calls⟩ := synced
  exact ⟨answer, calm, by rw [untouched.file, file], by rw [untouched.calls, calls]⟩

theorem refuse_eq {error : SpillError}
    (answered : ((env.refuse request error writer stage).reply?).isSome) :
    ∃ after, stage.Untouched after ∧
      env.refuse request error writer stage = ⟨some (.error error), writer, after⟩ := by
  refine ⟨_, .releaseAll env.toPool request.buffers stage, ?_⟩
  unfold refuse at answered ⊢
  cases dropped : (env.releaseAll request.buffers stage).1 with
  | true => simp [dropped] at answered
  | false => simp [dropped]

theorem settles_carryOut {entries : List Entry} (sound : writer.poisoned = false)
    (accepted : request.refusal? = none) (known : request.entries? writer.cursor = some entries)
    (answered : ((env.carryOut request entries writer stage).reply?).isSome) :
    env.Settles request writer stage (env.carryOut request entries writer stage) := by
  have written := @Settles.written σ π env request writer stage
  have cut := @Settles.cut σ π env request writer stage
  have stuck := @Settles.stuck σ π env request writer stage
  simp only [spill] at written cut stuck
  simp only [carryOut] at answered ⊢
  generalize env.writeRequest request writer
    (stage.note (.spilling request.items.length request.framedSize writer.cursor)) = work
    at written cut stuck answered ⊢
  cases outcome : work.outcome with
  | crashed => simp [outcome] at answered
  | failed error =>
    simp only [outcome] at answered ⊢
    have reported := Stage.Untouched.countFailure work.stage request writer.cursor
      (work.writer.cursor - writer.cursor) error
    generalize work.stage.countFailure request writer.cursor
      (work.writer.cursor - writer.cursor) error = between at reported answered ⊢
    unfold repair at answered ⊢
    cases truncated : env.truncateOn work.writer.cursor between with
    | mk answer after =>
      cases answer with
      | crashed => simp [truncated] at answered
      | failed failure => exact stuck sound accepted outcome
      | done value => exact cut sound accepted outcome reported truncated (.note after _)
  | done =>
    simp only [outcome] at answered ⊢
    split at answered
    · rename_i each
      rw [if_pos each]
      cases synced : env.syncOn work.stage with
      | mk answer after =>
        cases answer with
        | crashed => simp [synced] at answered
        | failed failure =>
          exact written sound accepted outcome
            (.inr ((synced_syncOn synced (by simp)).trans_untouched (.countFailure after request _ _ _)))
            (.inl ⟨_, rfl⟩)
        | done value =>
          exact written sound accepted outcome
            (.inr ((synced_syncOn synced (by simp)).trans_untouched (.countSuccess after request)))
            (.inr ⟨entries, known, rfl⟩)
    · rename_i each
      rw [if_neg each]
      exact written sound accepted outcome (.inl (.countSuccess work.stage request))
        (.inr ⟨entries, known, rfl⟩)

/-- A request that is answered is settled in one of the ways there are. -/
theorem settles_process (answered : ((env.process request writer stage).reply?).isSome) :
    env.Settles request writer stage (env.process request writer stage) := by
  unfold process at answered ⊢
  split
  · rename_i poisoned
    rw [if_pos poisoned] at answered
    obtain ⟨after, untouched, same⟩ := refuse_eq answered
    rw [same]
    exact .poisoned poisoned untouched
  · rename_i healthy
    have sound : writer.poisoned = false := by simpa using healthy
    rw [if_neg healthy] at answered
    split at answered
    · rename_i error refusal
      obtain ⟨after, untouched, same⟩ := refuse_eq answered
      rw [same]
      exact .refused sound refusal untouched
    · rename_i accepted
      split at answered
      · cases answered
      · rename_i entries known
        exact settles_carryOut sound accepted known answered

theorem effect_spill (request : Request) (writer : Writer) (stage : Stage σ π) :
    env.Effect writer.cursor request.buffers ((env.spill request writer stage).outcome = .crashed)
      stage (env.spill request writer stage).stage := by
  have noted := Effect.note env writer.cursor stage
    (.spilling request.items.length request.framedSize writer.cursor)
  exact (noted.trans (env.effect_writeRequest request writer _)).mono (Nat.le_refl _) .inr

/-- The frames of a request that is not refused are written as far as the file takes them. -/
theorem writing_spill (writes : env.Writes bytes) (accepted : request.refusal? = none)
    (calm : (env.spill request writer stage).outcome ≠ .crashed) :
    ∃ n calls,
      stage.Writing bytes writer.cursor (request.buffers.flatMap Buffer.framed) n calls
        (env.spill request writer stage).stage
        ((env.spill request writer stage).outcome = .done)
        (∃ error, (env.spill request writer stage).outcome = .failed error) ∧
      writer.Moves (env.spill request writer stage).writer
        (framesSize (request.buffers.take (wholeWithin n request.buffers))) := by
  have all := flatten_batches writer.settings.framesPerWrite request.buffers
  have framable : Framable (batches writer.settings.framesPerWrite request.buffers).flatten := by
    rw [all]
    exact framable_of_refusal accepted
  obtain ⟨n, calls, writing, moves⟩ := writing_writeBatches writes framable writer _ calm
  rw [all] at writing moves
  exact ⟨n, calls, .untouched_trans (.note stage _) writing, moves⟩

/-- The file ends with the frames of a request that are written behind it. -/
theorem length_spill (tidy : env.Tidy bytes) (accepted : request.refusal? = none)
    (done : (env.spill request writer stage).outcome = .done) :
    (bytes (env.spill request writer stage).stage.file).length ≤
      max (bytes stage.file).length (writer.cursor + framesSize request.buffers) := by
  have all := flatten_batches writer.settings.framesPerWrite request.buffers
  have framable : Framable (batches writer.settings.framesPerWrite request.buffers).flatten := by
    rw [all]
    exact framable_of_refusal accepted
  have length := length_writeBatches tidy framable writer _ done
  rwa [all] at length

/-- The frames of a request that is done lie one behind the other from the cursor on. -/
theorem wrote_spill (writes : env.Writes bytes) (accepted : request.refusal? = none)
    (done : (env.spill request writer stage).outcome = .done) :
    ∃ calls, stage.Wrote bytes writer.cursor (request.buffers.flatMap Buffer.framed) calls
        (env.spill request writer stage).stage ∧
      (∀ call ∈ calls, call.endsWriting = false) ∧
      writer.Moves (env.spill request writer stage).writer (framesSize request.buffers) := by
  obtain ⟨n, calls, writing, moves⟩ := writing_spill writes accepted (by rw [done]; simp)
  obtain ⟨all, quiet⟩ := writing.of_done done
  have wrote := writing.wrote
  rw [all, List.take_length] at wrote
  rw [all, length_framed_flatMap (framable_of_refusal accepted), wholeWithin_framesSize,
    List.take_length] at moves
  exact ⟨calls, wrote, quiet, moves⟩

theorem carryOut_of_done {entries : List Entry}
    (done : (env.spill request writer stage).outcome = .done)
    (never : (env.spill request writer stage).writer.settings.syncEach = false) :
    env.carryOut request entries writer stage =
      ⟨some (.ok entries), (env.spill request writer stage).writer,
        (env.spill request writer stage).stage.countSuccess request⟩ := by
  simp only [spill] at done never ⊢
  simp only [carryOut]
  generalize env.writeRequest request writer
    (stage.note (.spilling request.items.length request.framedSize writer.cursor)) = work
    at done never ⊢
  simp [done, never]

/-- A request that is written and synced is answered with its entries, unless the sync fails. -/
theorem carryOut_of_sync {entries : List Entry}
    (done : (env.spill request writer stage).outcome = .done)
    (each : (env.spill request writer stage).writer.settings.syncEach = true) :
    env.carryOut request entries writer stage =
      match env.syncOn (env.spill request writer stage).stage with
      | (.crashed, after) => ⟨none, (env.spill request writer stage).writer, after⟩
      | (.failed failure, after) =>
        ⟨some (.error (.io failure.cause)), (env.spill request writer stage).writer,
          after.countFailure request writer.cursor
            ((env.spill request writer stage).writer.cursor - writer.cursor) (.io failure.cause)⟩
      | (.done (), after) =>
        ⟨some (.ok entries), (env.spill request writer stage).writer,
          after.countSuccess request⟩ := by
  simp only [spill] at done each ⊢
  simp only [carryOut]
  generalize env.writeRequest request writer
    (stage.note (.spilling request.items.length request.framedSize writer.cursor)) = work
    at done each ⊢
  rcases env.syncOn work.stage with ⟨answer, after⟩
  cases answer <;> simp only [done, each, if_true]

theorem carryOut_of_failed {entries : List Entry} {error : SpillError}
    (failed : (env.spill request writer stage).outcome = .failed error) :
    env.carryOut request entries writer stage =
      let work := env.spill request writer stage
      let repaired := env.repair work.writer (work.stage.countFailure request writer.cursor
        (work.writer.cursor - writer.cursor) error)
      ⟨if repaired.1 then none else some (.error error), repaired.2.1, repaired.2.2⟩ := by
  have written : (env.writeRequest request writer (stage.note
      (.spilling request.items.length request.framedSize writer.cursor))).outcome =
      .failed error := failed
  simp only [carryOut, written]
  rfl

theorem carryOut_of_crashed {entries : List Entry}
    (crashed : (env.spill request writer stage).outcome = .crashed) :
    env.carryOut request entries writer stage =
      ⟨none, (env.spill request writer stage).writer, (env.spill request writer stage).stage⟩ := by
  have written : (env.writeRequest request writer (stage.note
      (.spilling request.items.length request.framedSize writer.cursor))).outcome =
      .crashed := crashed
  simp only [carryOut, written]
  rfl

theorem batches_of_le {α : Type} {n : Nat} {xs : List α} (some : xs ≠ []) (few : xs.length ≤ n) :
    batches n xs = [xs] := by
  rw [batches, if_pos (.inr few), if_neg (by simpa using some)]

theorem writeBatches_singleton (batch : List Buffer) (writer : Writer) (stage : Stage σ π) :
    env.writeBatches [batch] writer stage = env.writeBatch batch writer stage := by
  rw [writeBatches]
  rcases env.writeBatch batch writer stage with ⟨outcome, writer, stage⟩
  cases outcome <;> rfl

/-- A request of one batch is committed when the file takes everything at the first write. -/
theorem spill_whole {frames : List Frame} {size : Nat} (some : request.items ≠ [])
    (few : request.items.length ≤ writer.settings.framesPerWrite)
    (encoded : request.buffers.mapM Buffer.encode = .ok frames)
    (total : Extent.totalSize (frames.flatMap Frame.slices) = size) (nonzero : size ≠ 0)
    (inside : writer.cursor < Word.span) (counted : size < Word.span)
    (took : (env.write stage.file (frames.flatMap Frame.slices) writer.cursor).1 = .done size) :
    env.spill request writer stage =
      env.settleBatch request.buffers size .done writer
        ((env.writeOn (frames.flatMap Frame.slices) writer.cursor
          (stage.note (.spilling request.items.length request.framedSize writer.cursor))).2.note
            (.wrote size request.buffers.length writer.cursor)) := by
  have one : batches writer.settings.framesPerWrite request.buffers = [request.buffers] :=
    batches_of_le (by simpa [Request.buffers] using some) (by simpa [Request.buffers] using few)
  subst total
  have taken : (env.write (stage.note (.spilling request.items.length request.framedSize
      writer.cursor)).file (frames.flatMap Frame.slices) writer.cursor).1 = _ := took
  have whole := Store.transfer_whole nonzero inside
    (show 0 + Extent.totalSize (frames.flatMap Frame.slices) < Word.span by omega) taken
  rw [spill, writeRequest, one, writeBatches_singleton, writeBatch]
  simp only [encoded, whole, Nat.zero_add]

theorem encode_threeBytes : [threeBytes.buffer].mapM Buffer.encode =
    .ok [⟨threeBytes.buffer.head, threeBytes.buffer.readable⟩] := rfl

/-- Three bytes are spilled to an empty file in memory, and answered. -/
theorem process_threeBytes :
    let stage := (inMemory.start .standard (.start ⟨.empty, false⟩ ⟨0, none⟩)).2
    ∃ after, inMemory.process ⟨[threeBytes]⟩ (.start .standard 0) stage =
      ⟨some (.ok [⟨7, 0, 0⟩]), (Writer.start .standard 0).advance 11, after⟩ := by
  intro stage
  have spilt : ∃ after, inMemory.spill ⟨[threeBytes]⟩ (.start .standard 0) stage =
      ⟨.done, (Writer.start .standard 0).advance 11, after⟩ := by
    exact ⟨_, Eq.trans (spill_whole (by simp) (by decide) encode_threeBytes rfl (by decide) (by decide)
      (by decide) rfl) rfl⟩
  obtain ⟨after, spilt⟩ := spilt
  refine ⟨after.countSuccess ⟨[threeBytes]⟩, ?_⟩
  show inMemory.carryOut ⟨[threeBytes]⟩ [⟨7, 0, 0⟩] (.start .standard 0) stage = _
  rw [carryOut_of_done (by rw [spilt]) (by rw [spilt]; rfl), spilt]

end Surroundings
end Spillway
