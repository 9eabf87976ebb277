import Spillway.Proofs.Appending
import Spillway.Proofs.Fullness
/-!
What work attempts on a file that nobody vouches for. A write either ends the work it is made for, as
it fails or takes nothing, or it is quiet: it takes something, or was interrupted and is made again.
Work that fails makes quiet writes and then one that ends it, whose cause it fails with; other work
makes quiet writes only. By what these took, the writer moves on: by the frames that are whole within
it. All this is up to what the file itself says, so no trust in it is needed. Work that crashes with
pools that do not, and with room for what is written, was given an answer that is not fair: a call
crashed, or claimed more than it was offered.
-/

namespace Spillway

variable {σ π : Type}

/-- What a write that ends its work has it fail with. -/
def Call.endCause? : Call → Option Cause
  | .write _ _ (.done n) => if n = 0 then some .writeZero else none
  | .write _ _ (.failed failure) =>
    if failure.cause = .interrupted then none else some failure.cause
  | _ => none

/-- The bytes that a call offers to be written. -/
def Call.offered : Call → Nat
  | .write _ slices _ => Extent.totalSize slices
  | _ => 0

/-- A call that comes back, with a claim that can be true. -/
structure Call.Fair (call : Call) : Prop where
  calm : call.hasCrashed = false
  honest : call.taken ≤ call.offered

/-- None of the calls ends the work they are made for. -/
def Quiet (calls : List Call) : Prop := ∀ call ∈ calls, call.endCause? = none

/-- The calls end as they do in work with this outcome. A crash may come after any calls. -/
def EndedBy (calls : List Call) : Outcome → Prop
  | .done => Quiet calls
  | .failed error => ∃ front last cause, calls = front ++ [last] ∧ Quiet front ∧
      last.endCause? = some cause ∧ error = .io cause
  | .crashed => True

/-- None of the calls ends the work they are made for, and one is not answered fairly. -/
def Unfair (calls : List Call) : Prop := Quiet calls ∧ ∃ call ∈ calls, ¬ call.Fair

/-- What becomes of a batch whose transfer ends with this answer. -/
def Answer.outcome : Answer Unit → Outcome
  | .done () => .done
  | .failed failure => .failed (.io failure.cause)
  | .crashed => .crashed

/-- A writer after work on some buffers, of which so many bytes were taken: it moves on by the frames that
are whole within these, and stays as it is when there are no buffers. -/
def Writer.after (writer : Writer) (buffers : List Buffer) (taken : Nat) : Writer :=
  if buffers.isEmpty then writer
  else writer.advance (framesSize (buffers.take (wholeWithin taken buffers)))

/-- A transfer made these calls, and added what they took to the count. If there was room for what it
was to write, it does not crash over fair calls. -/
structure Transfer.Attempts (calls : List Call) (count : Nat) (room : Prop) (before : Stage σ π)
    (transfer : Transfer σ π) : Prop where
  calls_eq : transfer.stage.calls = before.calls ++ calls
  ended : EndedBy calls transfer.finish.outcome
  counted : transfer.finish ≠ .crashed → transfer.written = count + takenBy calls
  unfair : transfer.finish = .crashed → room → Unfair calls

/-- Work on some buffers made these calls, and the writer is as it is after what they took. If there was
room for the frames, the work does not crash over fair calls. -/
structure Work.Attempts (buffers : List Buffer) (calls : List Call) (room : Prop) (writer : Writer)
    (before : Stage σ π) (work : Work σ π) : Prop where
  calls_eq : work.stage.calls = before.calls ++ calls
  ended : EndedBy calls work.outcome
  moved : work.outcome ≠ .crashed → work.writer = writer.after buffers (takenBy calls)
  unfair : work.outcome = .crashed → room → Unfair calls

/-- A writer that carries out a request: it is not poisoned, every buffer can be framed, and the frames
end within 64 bits. -/
structure Writer.Accepts (writer : Writer) (request : Request) : Prop where
  sound : writer.poisoned = false
  framable : request.refusal? = none
  room : (request.entries? writer.cursor).isSome

theorem Call.endsWriting_eq (call : Call) : call.endsWriting = call.endCause?.isSome := by
  cases call with
  | write position slices answer =>
    cases answer with
    | done n => by_cases none : n = 0 <;> simp [endsWriting, endCause?, none]
    | failed failure =>
      by_cases interrupted : failure.cause = .interrupted <;>
        simp [endsWriting, endCause?, interrupted]
    | crashed => rfl
  | truncate _ _ | sync _ => rfl

@[simp] theorem calls_crash (stage : Stage σ π) : stage.crash.calls = stage.calls := by
  simp [Stage.crash, Stage.calls, Stage.events, Stage.record]

theorem Quiet.nil : Quiet [] := by simp [Quiet]

theorem Quiet.append {calls later : List Call} (quiet : Quiet calls) (quiet' : Quiet later) :
    Quiet (calls ++ later) := List.forall_mem_append.mpr ⟨quiet, quiet'⟩

theorem Writer.after_of_some {buffers : List Buffer} (some : buffers ≠ []) (writer : Writer)
    (taken : Nat) : writer.after buffers taken =
      writer.advance (framesSize (buffers.take (wholeWithin taken buffers))) := by
  rw [after, if_neg (by simpa using some)]

theorem Writer.advance_advance (writer : Writer) (bytes more : Nat) :
    (writer.advance bytes).advance more = writer.advance (bytes + more) := by
  simp only [advance, Nat.add_assoc]

/-- Behind buffers that were taken as a whole, the writer goes on as if they were one list. -/
theorem Writer.after_append (writer : Writer) (buffers later : List Buffer) (taken : Nat) :
    (writer.after buffers (framesSize buffers)).after later taken =
      writer.after (buffers ++ later) (framesSize buffers + taken) := by
  have joined : framesSize ((buffers ++ later).take
      (wholeWithin (framesSize buffers + taken) (buffers ++ later))) =
      framesSize buffers + framesSize (later.take (wholeWithin taken later)) := by
    rw [wholeWithin_append, List.take_length_add_append, framesSize_append]
  have whole : framesSize (buffers.take (wholeWithin (framesSize buffers) buffers)) =
      framesSize buffers := by
    rw [wholeWithin_framesSize, List.take_length]
  by_cases none : buffers = []
  · simp [none, after]
  · have some : buffers ++ later ≠ [] := by simp [none]
    rw [after_of_some none, after_of_some some, joined, whole]
    by_cases last : later = []
    · simp [last, after]
    · rw [after_of_some last, advance_advance]

/-- Buffers behind those that were not taken as a whole do not count. -/
theorem Writer.after_of_lt {buffers : List Buffer} {taken : Nat} (less : taken < framesSize buffers)
    (writer : Writer) (later : List Buffer) :
    writer.after (buffers ++ later) taken = writer.after buffers taken := by
  have some : buffers ≠ [] := by
    rintro rfl
    exact Nat.not_lt_zero _ less
  rw [after_of_some some, after_of_some (by simp [some]), wholeWithin_append_of_lt less,
    List.take_append_of_le_length (wholeWithin_le taken buffers)]

theorem EndedBy.behind {calls later : List Call} {outcome : Outcome} (quiet : Quiet calls)
    (ended : EndedBy later outcome) : EndedBy (calls ++ later) outcome := by
  cases outcome with
  | failed error =>
    obtain ⟨front, last, cause, rfl, silent, ends, same⟩ := ended
    exact ⟨calls ++ front, last, cause, (List.append_assoc _ _ _).symm, quiet.append silent, ends, same⟩
  | done => exact quiet.append ended
  | crashed => trivial

theorem EndedBy.single {call : Call} {cause : Cause} (ends : call.endCause? = some cause) :
    EndedBy [call] (.failed (.io cause)) := ⟨[], call, cause, rfl, .nil, ends, rfl⟩

theorem Unfair.behind {calls later : List Call} (quiet : Quiet calls) (unfair : Unfair later) :
    Unfair (calls ++ later) := by
  obtain ⟨silent, call, member, wrong⟩ := unfair
  exact ⟨quiet.append silent, call, List.mem_append_right _ member, wrong⟩

theorem Unfair.single {call : Call} (quiet : call.endCause? = none) (wrong : ¬ call.Fair) :
    Unfair [call] := ⟨by simpa [Quiet] using quiet, call, List.mem_cons_self, wrong⟩

theorem Transfer.Attempts.behind {call : Call} {calls : List Call} {count : Nat} {room room' : Prop}
    {before between : Stage σ π} {transfer : Transfer σ π} (quiet : call.endCause? = none)
    (called : between.calls = before.calls ++ [call]) (fits : room → room')
    (attempts : transfer.Attempts calls (count + call.taken) room' between) :
    transfer.Attempts ([call] ++ calls) count room before := by
  have silent : Quiet [call] := by simpa [Quiet] using quiet
  refine ⟨?_, attempts.ended.behind silent, fun calm => ?_,
    fun crash here => (attempts.unfair crash (fits here)).behind silent⟩
  · rw [attempts.calls_eq, called, List.append_assoc]
  · rw [attempts.counted calm, takenBy_append, Nat.add_assoc]
    rfl

namespace Work.Attempts

variable {buffers later : List Buffer} {calls rest : List Call} {room room' : Prop} {writer : Writer}
  {before : Stage σ π} {work next : Work σ π}

theorem mono (attempts : work.Attempts buffers calls room writer before) (weaker : room' → room) :
    work.Attempts buffers calls room' writer before :=
  ⟨attempts.calls_eq, attempts.ended, attempts.moved,
    fun crash here => attempts.unfair crash (weaker here)⟩

/-- Work that goes on behind buffers which were taken as a whole. -/
theorem behind (first : work.Attempts buffers calls room writer before) (done : work.outcome = .done)
    (all : takenBy calls = framesSize buffers)
    (attempts : next.Attempts later rest room' work.writer work.stage) (fits : room → room') :
    next.Attempts (buffers ++ later) (calls ++ rest) room writer before := by
  have quiet : Quiet calls := by
    have ended := first.ended
    rwa [done] at ended
  refine ⟨?_, attempts.ended.behind quiet, fun calm => ?_,
    fun crash here => (attempts.unfair crash (fits here)).behind quiet⟩
  · rw [attempts.calls_eq, first.calls_eq, List.append_assoc]
  · rw [attempts.moved calm, first.moved (by rw [done]; simp), all, takenBy_append, all,
      Writer.after_append]

end Work.Attempts

namespace Surroundings

variable (env : Surroundings σ π)

/-- A transfer attempts to write what it is given. -/
theorem attempts_transferFrom (offset before : Nat) (slices : List Extent) (taken : Nat)
    (stage : Stage σ π) :
    ∃ calls, (env.transferFrom offset before slices taken stage).Attempts calls (before + taken)
      (offset + taken + Extent.totalSize slices < Word.span ∧
        before + taken + Extent.totalSize slices < Word.span) stage := by
  fun_induction env.transferFrom offset before slices taken stage with
  | case1 slices taken stage none => exact ⟨[], (List.append_nil _).symm, .nil, fun _ => rfl, by simp⟩
  | case2 slices taken stage some overflow =>
    rw [Word.add?_eq_none_iff] at overflow
    exact ⟨[], by simp, trivial, by simp, fun _ room => by omega⟩
  | case3 slices taken stage some position found after call =>
    have wrong : ¬ (Call.write position slices .crashed).Fair := fun fair => by cases fair.calm
    exact ⟨[_], (Store.called_writeOn call).2, trivial, by simp, fun _ _ => .single rfl wrong⟩
  | case4 slices taken stage some position found failure after call interrupted ih =>
    obtain ⟨calls, attempts⟩ := ih
    exact ⟨_, attempts.behind (by simp [Call.endCause?, interrupted]) (Store.called_writeOn call).2 id⟩
  | case5 slices taken stage some position found failure after call fatal =>
    exact ⟨[_], (Store.called_writeOn call).2, .single (by simp [Call.endCause?, fatal]),
      fun _ => rfl, by simp⟩
  | case6 slices taken stage some position found after call =>
    exact ⟨[_], (Store.called_writeOn call).2, .single rfl, fun _ => rfl, by simp⟩
  | case7 slices taken stage some position found n after call nonzero overflow =>
    rw [Option.isNone_iff_eq_none, Word.add?_eq_none_iff] at overflow
    refine ⟨[.write position slices (.done n)], by rw [calls_crash, (Store.called_writeOn call).2],
      trivial, by simp, fun _ room => .single (by simp [Call.endCause?, nonzero]) fun fair => ?_⟩
    have most : n ≤ Extent.totalSize slices := fair.honest
    omega
  | case8 slices taken stage some position found n after call nonzero counted overclaimed =>
    refine ⟨[.write position slices (.done n)], by rw [calls_crash, (Store.called_writeOn call).2],
      trivial, by simp, fun _ _ => .single (by simp [Call.endCause?, nonzero]) fun fair => ?_⟩
    have most : n ≤ Extent.totalSize slices := fair.honest
    omega
  | case9 slices taken stage some position found n after call nonzero counted within ih =>
    obtain ⟨calls, attempts⟩ := ih
    have left := Extent.totalSize_advance n slices
    rw [← Nat.add_assoc before] at attempts
    have quiet : (Call.write position slices (.done n)).endCause? = none := by
      simp [Call.endCause?, nonzero]
    exact ⟨_, .behind quiet (Store.called_writeOn call).2 (fun room => by omega) attempts⟩

theorem writer_settleBatch {batch : List Buffer} (some : batch ≠ []) (written : Nat)
    (outcome : Outcome) (writer : Writer) (stage : Stage σ π)
    (calm : (env.settleBatch batch written outcome writer stage).outcome ≠ .crashed) :
    (env.settleBatch batch written outcome writer stage).writer = writer.after batch written := by
  have committed := env.bytes_commit written 0 batch stage
  simp only [settleBatch] at calm ⊢
  split at calm
  · exact absurd rfl calm
  · rename_i quiet
    rw [if_neg quiet, committed (by simpa using quiet) (Nat.zero_le _), Nat.zero_add, Nat.sub_zero,
      Writer.after_of_some some]

/-- A batch that has been transferred is settled by what was taken. -/
theorem attempts_settleBatch {batch : List Buffer} (some : batch ≠ []) {calls : List Call}
    {room : Prop} {outcome : Outcome} {writer : Writer} {before stage : Stage σ π}
    {transfer : Transfer σ π} (attempts : transfer.Attempts calls 0 room before)
    (same : transfer.finish.outcome = outcome) (calm : outcome ≠ .crashed)
    (untouched : transfer.stage.Untouched stage) :
    (env.settleBatch batch transfer.written outcome writer stage).Attempts batch calls
      (env.Calm ∧ room) writer before := by
  have counted := attempts.counted fun crash => calm (by rw [← same, crash]; rfl)
  have settled : (env.settleBatch batch transfer.written outcome writer stage).outcome = outcome ∨ _ :=
    outcome_settleBatch batch transfer.written outcome writer stage
  rw [Nat.zero_add] at counted
  refine ⟨?_, ?_, fun fine => ?_, fun crash room => ?_⟩
  · rw [(untouched_settleBatch batch transfer.written outcome writer stage).calls, untouched.calls,
      attempts.calls_eq]
  · rcases settled with as_before | crashed
    · rw [as_before, ← same]
      exact attempts.ended
    · rw [crashed]
      trivial
  · rw [env.writer_settleBatch some _ _ _ _ fine, counted]
  · rw [calm_settleBatch room.1] at crash
    exact absurd crash calm

theorem attempts_writeBatch {batch : List Buffer} (some : batch ≠ []) (framable : Framable batch)
    (writer : Writer) (stage : Stage σ π) :
    ∃ calls, (env.writeBatch batch writer stage).Attempts batch calls
      (env.Calm ∧ writer.cursor + framesSize batch < Word.span) writer stage := by
  obtain ⟨frames, encoded, joined⟩ := encode_batch framable
  have size : Extent.totalSize (frames.flatMap Frame.slices) = framesSize batch := by
    rw [Extent.totalSize_eq, joined, length_framed_flatMap framable]
  obtain ⟨calls, attempts⟩ := env.attempts_transferFrom writer.cursor 0 (frames.flatMap Frame.slices) 0
    stage
  rw [size, Nat.add_zero, Nat.add_zero, Nat.zero_add] at attempts
  have fits : env.Calm ∧ writer.cursor + framesSize batch < Word.span →
      env.Calm ∧ writer.cursor + framesSize batch < Word.span ∧ framesSize batch < Word.span :=
    fun room => ⟨room.1, room.2, by omega⟩
  refine ⟨calls, .mono ?_ fits⟩
  unfold writeBatch
  simp only [encoded, Store.transfer]
  generalize env.transferFrom writer.cursor 0 (frames.flatMap Frame.slices) 0 stage = transfer
    at attempts ⊢
  have noted := Stage.Untouched.note transfer.stage
    (.wrote transfer.written batch.length writer.cursor)
  cases finish : transfer.finish with
  | crashed =>
    have untouched := Stage.Untouched.releaseAll env.toPool batch transfer.stage
    exact ⟨untouched.calls.trans attempts.calls_eq, trivial, fun calm => absurd rfl calm,
      fun _ room => attempts.unfair finish room.2⟩
  | failed failure =>
    exact env.attempts_settleBatch some attempts (by rw [finish]; rfl) (by simp) noted
  | done value =>
    exact env.attempts_settleBatch some attempts (by rw [finish]; rfl) (by simp) noted

/-- Batches are attempted in order, each behind those before it, which were taken as a whole. -/
theorem attempts_writeBatches {batches : List (List Buffer)} (some : ∀ batch ∈ batches, batch ≠ [])
    (framable : Framable batches.flatten) (writer : Writer) (stage : Stage σ π) :
    ∃ calls, (env.writeBatches batches writer stage).Attempts batches.flatten calls
      (env.Calm ∧ writer.cursor + framesSize batches.flatten < Word.span) writer stage := by
  fun_induction env.writeBatches batches writer stage with
  | case1 writer stage => exact ⟨[], (List.append_nil _).symm, .nil, fun _ => rfl, by simp⟩
  | case2 batch later writer stage work done ih =>
    obtain ⟨full, others⟩ := List.forall_mem_cons.mp some
    rw [List.flatten_cons] at framable ⊢
    obtain ⟨calls, first⟩ := env.attempts_writeBatch full framable.left writer stage
    obtain ⟨rest, attempts⟩ := ih others framable.right
    obtain ⟨took, moves⟩ := env.taken_writeBatch framable.left writer stage done
    rw [first.calls_eq, takenBy_append] at took
    rw [framesSize_append]
    have here : writer.cursor + (framesSize batch + framesSize later.flatten) =
        work.writer.cursor + framesSize later.flatten := by
      rw [moves.cursor, Nat.add_assoc]
    exact ⟨calls ++ rest, (first.mono fun room => ⟨room.1, by omega⟩).behind done
      (Nat.add_left_cancel took) attempts fun room => ⟨room.1, by rw [← here]; exact room.2⟩⟩
  | case3 batch later writer stage work dropped fails =>
    obtain ⟨full, -⟩ := List.forall_mem_cons.mp some
    rw [List.flatten_cons] at framable ⊢
    obtain ⟨calls, first⟩ := env.attempts_writeBatch full framable.left writer stage
    have untouched := Stage.Untouched.releaseAll env.toPool later.flatten work.stage
    refine ⟨calls, untouched.calls.trans first.calls_eq, ?_, fun calm => ?_, fun crash room => ?_⟩
    · simp only
      split
      · trivial
      · exact first.ended
    · simp only at calm ⊢
      split at calm
      · exact absurd rfl calm
      · cases outcome : work.outcome with
        | done => exact absurd outcome fails
        | crashed => exact absurd outcome calm
        | failed error =>
          have less := env.less_writeBatch framable.left writer stage outcome
          rw [first.calls_eq, takenBy_append] at less
          rw [Writer.after_of_lt (Nat.lt_of_add_lt_add_left less), first.moved calm]
    · simp only [dropped, calm_releaseAll room.1, Bool.false_eq_true, if_false] at crash
      rw [framesSize_append] at room
      exact first.unfair crash ⟨room.1, by omega⟩

/-- A request that is not refused is attempted in batches. -/
theorem attempts_spill {request : Request} (accepted : request.refusal? = none) (writer : Writer)
    (stage : Stage σ π) :
    ∃ calls, (env.spill request writer stage).Attempts request.buffers calls
      (env.Calm ∧ writer.cursor + framesSize request.buffers < Word.span) writer stage := by
  have all := flatten_batches writer.settings.framesPerWrite request.buffers
  have framable : Framable (batches writer.settings.framesPerWrite request.buffers).flatten := by
    rw [all]
    exact framable_of_refusal accepted
  have some : ∀ batch ∈ batches writer.settings.framesPerWrite request.buffers, batch ≠ [] :=
    fun batch member => (length_of_mem_batches writer.settings.framesPerWrite_pos member).1
  let noted := stage.note (.spilling request.items.length request.framedSize writer.cursor)
  obtain ⟨calls, attempts⟩ := env.attempts_writeBatches some framable writer noted
  rw [all] at attempts
  have untouched : noted.calls = stage.calls := (Stage.Untouched.note stage _).calls
  exact ⟨calls, by rw [← untouched]; exact attempts.calls_eq, attempts.ended, attempts.moved,
    attempts.unfair⟩

/-- The calls made while a request is written took all of it if that is done, and less if it failed. -/
theorem taken_by_spill {request : Request} (accepted : request.refusal? = none) {writer : Writer}
    {stage : Stage σ π} {calls : List Call}
    (called : (env.spill request writer stage).stage.calls = stage.calls ++ calls) :
    ((env.spill request writer stage).outcome = .done → takenBy calls = framesSize request.buffers) ∧
      ∀ error, (env.spill request writer stage).outcome = .failed error →
        takenBy calls < framesSize request.buffers := by
  constructor
  · intro done
    obtain ⟨took, -⟩ := env.taken_spill accepted done
    rw [called, takenBy_append] at took
    exact Nat.add_left_cancel took
  · intro error failed
    have less := env.less_spill accepted failed
    rw [called, takenBy_append] at less
    exact Nat.lt_of_add_lt_add_left less

/-- When a request has been written, the file is synced if that is asked for, and not called otherwise. -/
theorem calls_carryOut_of_done {request : Request} (accepted : request.refusal? = none)
    (entries : List Entry) {writer : Writer} {stage : Stage σ π}
    (done : (env.spill request writer stage).outcome = .done) :
    (env.carryOut request entries writer stage).writer = (env.spill request writer stage).writer ∧
      ∃ later, (env.carryOut request entries writer stage).stage.calls =
          (env.spill request writer stage).stage.calls ++ later ∧
        (writer.settings.syncEach = false ∧ later = [] ∨
          writer.settings.syncEach = true ∧ ∃ answer, later = [.sync answer]) := by
  obtain ⟨-, moves⟩ := env.taken_spill accepted done
  by_cases each : writer.settings.syncEach = true
  · rw [carryOut_of_sync done (by rwa [moves.settings])]
    cases synced : env.syncOn (env.spill request writer stage).stage with
    | mk answer after =>
      have called := (Store.called_syncOn synced).2
      refine ⟨by cases answer <;> rfl, [.sync answer], ?_, .inr ⟨each, answer, rfl⟩⟩
      cases answer with
      | crashed => exact called
      | failed failure => rw [(Stage.Untouched.countFailure after request _ _ _).calls, called]
      | done value => rw [(Stage.Untouched.countSuccess after request).calls, called]
  · have never : writer.settings.syncEach = false := by simpa using each
    rw [carryOut_of_done done (by rwa [moves.settings])]
    refine ⟨rfl, [], ?_, .inl ⟨never, rfl⟩⟩
    rw [(Stage.Untouched.countSuccess _ request).calls, List.append_nil]

/-- What a repair comes to depends on the answer to its cut. -/
theorem repair_cases (writer : Writer) (stage : Stage σ π) :
    ∃ answer cut after, env.truncateOn writer.cursor stage = (answer, cut) ∧ cut.Untouched after ∧
      (answer = .done () ∧ env.repair writer stage = (false, writer, after) ∨
        (∃ failure, answer = .failed failure ∧
          env.repair writer stage = (false, { writer with poisoned := true }, after)) ∨
        answer = .crashed ∧ env.repair writer stage = (true, writer, after)) := by
  unfold repair
  cases truncated : env.truncateOn writer.cursor stage with
  | mk answer cut =>
    cases answer with
    | done value => exact ⟨_, cut, _, rfl, .note cut _, .inl ⟨rfl, rfl⟩⟩
    | failed failure => exact ⟨_, cut, _, rfl, .note cut _, .inr (.inl ⟨failure, rfl, rfl⟩)⟩
    | crashed => exact ⟨_, cut, _, rfl, .refl cut, .inr (.inr ⟨rfl, rfl⟩)⟩

/-- A request that failed is answered with the error, unless the cut crashes that it is repaired with. The
writer is poisoned if the cut fails. -/
theorem repaired_carryOut {request : Request} (entries : List Entry) {writer : Writer}
    {stage : Stage σ π} {error : SpillError}
    (failed : (env.spill request writer stage).outcome = .failed error) :
    let spilt := env.spill request writer stage
    let verdict := env.carryOut request entries writer stage
    ∃ answer, env.truncate spilt.stage.file spilt.writer.cursor = (answer, verdict.stage.file) ∧
      verdict.stage.calls = spilt.stage.calls ++ [.truncate spilt.writer.cursor answer] ∧
      (answer = .done () ∧ verdict.writer = spilt.writer ∧ verdict.reply? = some (.error error) ∨
        (∃ failure, answer = .failed failure ∧
          verdict.writer = { spilt.writer with poisoned := true } ∧
          verdict.reply? = some (.error error)) ∨
        answer = .crashed ∧ verdict.writer = spilt.writer ∧ verdict.reply? = none) := by
  intro spilt verdict
  have same : verdict = _ := carryOut_of_failed failed
  simp only at same
  have reported := Stage.Untouched.countFailure spilt.stage request writer.cursor
    (spilt.writer.cursor - writer.cursor) error
  obtain ⟨answer, cut, after, truncated, untouched, repaired⟩ := env.repair_cases spilt.writer
    (spilt.stage.countFailure request writer.cursor (spilt.writer.cursor - writer.cursor) error)
  obtain ⟨file, called⟩ := Store.called_truncateOn truncated
  rw [reported.file] at file
  rw [reported.calls] at called
  have stands : verdict.stage = after := by
    rw [same]
    rcases repaired with ⟨-, repair⟩ | ⟨_, -, repair⟩ | ⟨-, repair⟩ <;> rw [repair]
  refine ⟨answer, by rw [stands, untouched.file, file], by rw [stands, untouched.calls, called], ?_⟩
  rcases repaired with ⟨rfl, repair⟩ | ⟨failure, rfl, repair⟩ | ⟨rfl, repair⟩
  · exact .inl ⟨rfl, by rw [same, repair], by rw [same, repair]; rfl⟩
  · exact .inr (.inl ⟨failure, rfl, by rw [same, repair], by rw [same, repair]; rfl⟩)
  · exact .inr (.inr ⟨rfl, by rw [same, repair], by rw [same, repair]; rfl⟩)

theorem process_of_accepts {request : Request} {writer : Writer} (accepts : writer.Accepts request)
    (stage : Stage σ π) :
    ∃ entries, request.entries? writer.cursor = some entries ∧
      env.process request writer stage = env.carryOut request entries writer stage := by
  obtain ⟨entries, known⟩ := Option.isSome_iff_exists.mp accepts.room
  refine ⟨entries, known, ?_⟩
  simp only [process, accepts.sound, Bool.false_eq_true, if_false, accepts.framable, known]

/-- What the writer does not accept is refused, or crashes it before anything is written. -/
theorem process_cases_of_deaf {request : Request} {writer : Writer} (deaf : ¬ writer.Accepts request)
    (stage : Stage σ π) :
    env.process request writer stage = env.refuse request .poisoned writer stage ∨
      (∃ error, env.process request writer stage =
        env.refuse request (.frame error) writer stage) ∨
      env.process request writer stage =
        ⟨none, writer, (env.releaseAll request.buffers stage.crash).2⟩ := by
  by_cases poisoned : writer.poisoned = true
  · exact .inl (by simp only [process, if_pos poisoned])
  · cases accepted : request.refusal? with
    | some error => exact .inr (.inl ⟨error, by simp only [process, if_neg poisoned, accepted]⟩)
    | none =>
      cases known : request.entries? writer.cursor with
      | none => exact .inr (.inr (by simp only [process, if_neg poisoned, accepted, known]))
      | some entries =>
        exact absurd ⟨by simpa using poisoned, accepted, by rw [known]; rfl⟩ deaf

/-- What the writer does not accept is let go: it moves on by nothing, and the file is not called. -/
theorem process_of_deaf {request : Request} {writer : Writer} (deaf : ¬ writer.Accepts request)
    (stage : Stage σ π) :
    stage.Untouched (env.process request writer stage).stage ∧
      (env.process request writer stage).writer = writer := by
  have crash : stage.Untouched stage.crash := ⟨rfl, calls_crash stage⟩
  have dropped := fun stage : Stage σ π => Stage.Untouched.releaseAll env.toPool request.buffers stage
  rcases env.process_cases_of_deaf deaf stage with same | ⟨error, same⟩ | same
  · rw [same]
    exact ⟨dropped stage, rfl⟩
  · rw [same]
    exact ⟨dropped stage, rfl⟩
  · rw [same]
    exact ⟨crash.trans (dropped stage.crash), rfl⟩

/-- Two frames of eleven bytes go to an empty file with room for fifteen. The first is kept. -/
theorem process_cramped :
    let opened := ((cramped 15 100).start .standard (.start ⟨.empty, false⟩ ())).2
    ∃ first second after,
      (cramped 15 100).process ⟨[threeBytes, threeBytes]⟩ (.start .standard 0) opened =
        ⟨some (.error (.io .storageFull)), (Writer.start .standard 0).advance 11, after⟩ ∧
      after.calls = [.write 0 first (.done 15), .write 15 second (.failed (.ofCause .storageFull)),
        .truncate 11 (.done ())] ∧
      Extent.totalSize first = 22 ∧ after.crashes = 0 := by
  intro opened
  have encoded : [threeBytes.buffer, threeBytes.buffer].mapM Buffer.encode =
      .ok [⟨threeBytes.buffer.head, threeBytes.buffer.readable⟩,
        ⟨threeBytes.buffer.head, threeBytes.buffer.readable⟩] := rfl
  have spilt : ∃ first second after,
      (cramped 15 100).spill ⟨[threeBytes, threeBytes]⟩ (.start .standard 0) opened =
        ⟨.failed (.io .storageFull), (Writer.start .standard 0).advance 11, after⟩ ∧
      after.calls = [.write 0 first (.done 15), .write 15 second (.failed (.ofCause .storageFull))] ∧
      Extent.totalSize first = 22 ∧ after.crashes = 0 ∧ after.file.broken = false := by
    show ∃ first second after, (cramped 15 100).writeBatches
      (batches 512 [threeBytes.buffer, threeBytes.buffer]) _ (opened.note (.spilling 2 22 0)) = _ ∧ _
    rw [batches_of_le (by simp) (by decide), writeBatches, writeBatch]
    simp only [encoded]
    rw [Store.transfer, Store.transferFrom_took (n := 15) (by decide) (by decide) (by decide)
      (by decide) rfl, Store.transferFrom_failed (by decide) (by decide) (by decide) rfl]
    exact ⟨_, _, _, rfl, rfl, by decide, rfl, rfl⟩
  obtain ⟨first, second, after, spilt, calls, size, crashes, healthy⟩ := spilt
  let counted := after.countFailure ⟨[threeBytes, threeBytes]⟩ 0 11 (.io .storageFull)
  have unbroken : counted.file.broken = false := healthy
  let cut : Stage Memory Unit := ⟨⟨counted.file.contents.resize 11, false⟩, (),
    .called (.truncate 11 (.done ())) :: counted.journal⟩
  have truncated : (cramped 15 100).truncateOn 11 counted = (.done (), cut) := by
    simp [cramped, Store.truncateOn, Store.capped, Memory.store, Memory.truncate, unbroken, Word.half,
      Stage.record, cut]
  have repaired : (cramped 15 100).repair ((Writer.start .standard 0).advance 11) counted =
      (false, (Writer.start .standard 0).advance 11, cut.note (.truncated 11)) := by
    have here : ((Writer.start .standard 0).advance 11).cursor = 11 := rfl
    simp only [repair, here, truncated]
  refine ⟨first, second, cut.note (.truncated 11), ?_, ?_, size, crashes⟩
  · show (cramped 15 100).carryOut ⟨[threeBytes, threeBytes]⟩ [⟨7, 0, 0⟩, ⟨7, 0, 11⟩] _ opened = _
    rw [carryOut_of_failed (by rw [spilt]), spilt]
    show Verdict.mk (if ((cramped 15 100).repair _ counted).1 then none else _)
      ((cramped 15 100).repair _ counted).2.1 ((cramped 15 100).repair _ counted).2.2 = _
    rw [repaired]
    rfl
  · have made : cut.calls = counted.calls ++ [.truncate 11 (.done ())] := calls_record_called counted _
    have untouched : counted.calls = after.calls := (Stage.Untouched.countFailure after _ _ _ _).calls
    rw [(Stage.Untouched.note cut _).calls, made, untouched, calls]
    rfl
end Surroundings
end Spillway
