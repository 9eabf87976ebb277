import Spillway.Proofs.Reading
import Spillway.Proofs.Session
import Spillway.Proofs.Verdicts
/-!
A tidy file ends at a frame boundary. As long as the writer is alive and not poisoned, the file is
what it was at first, followed by the frames of the requests that were taken from the queue: all of
a request that no write ended, and those that were written whole before the write that ended it. The
writer's cursor is the length of the file, so the next request goes on behind the last whole frame.
-/

namespace Spillway

variable {σ π : Type}

/-- The number of buffers that stay in the file when a request is processed with the given calls:
none if it is refused, all if no write ends it, and otherwise those whose frames were taken whole
before the write that ends it. -/
def Request.whole (request : Request) (calls : List Call) : Nat :=
  if request.refusal?.isSome then 0
  else if calls.any Call.endsWriting then
    wholeWithin (takenBy (calls.takeWhile fun call => !call.endsWriting)) request.buffers
  else request.buffers.length

/-- The buffers that stay in the file when a request is processed with the given calls. -/
def Request.kept (request : Request) (calls : List Call) : List Buffer :=
  request.buffers.take (request.whole calls)

/-- The buffers whose frames were taken whole by the calls made for a request. -/
def Request.stored (request : Request) (calls : List Call) : List Buffer :=
  request.buffers.take (wholeWithin (takenBy calls) request.buffers)

/-- The buffers that an errand leaves in the file. -/
def Errand.kept (errand : Errand) : List Buffer := errand.order.request.kept errand.calls

/-- The file is whole frames behind what it was at first, and the cursor is at its end. -/
structure Session.Framed (s : Session σ π) (bytes : σ → List UInt8) (first : List UInt8) : Prop where
  calls : s.stage.calls = s.errands.flatMap Errand.calls
  content : bytes s.stage.file = first ++ (s.errands.flatMap Errand.kept).flatMap Buffer.framed
  length : (bytes s.stage.file).length = s.spooler.writer.cursor
  shared : s.spooler.writer.progress.cursor = s.spooler.writer.cursor

/-- As long as the writer is alive and not poisoned, the file is whole frames. -/
def Session.StaysFramed (s : Session σ π) (bytes : σ → List UInt8) (first : List UInt8) : Prop :=
  s.spooler.alive = true → s.spooler.writer.poisoned = false → s.Framed bytes first

namespace Request

variable {request : Request}

theorem kept_of_refusal {error : FrameError} (refused : request.refusal? = some error)
    (calls : List Call) : request.kept calls = [] := by
  simp [kept, whole, refused]

theorem kept_of_quiet (accepted : request.refusal? = none) {calls : List Call}
    (quiet : ∀ call ∈ calls, call.endsWriting = false) : request.kept calls = request.buffers := by
  have none : calls.any Call.endsWriting = false := by simpa using quiet
  simp [kept, whole, accepted, none]

theorem kept_of_ended (accepted : request.refusal? = none) {front : List Call} {last : Call}
    (quiet : ∀ call ∈ front, call.endsWriting = false) (ends : last.endsWriting = true)
    (rest : List Call) :
    request.kept (front ++ last :: rest) =
      request.buffers.take (wholeWithin (takenBy front) request.buffers) := by
  have some : (front ++ last :: rest).any Call.endsWriting = true := by simp [ends]
  have before : (front ++ last :: rest).takeWhile (fun call => !call.endsWriting) = front := by
    rw [List.takeWhile_append_of_pos (by simpa using quiet)]
    simp [ends]
  rw [kept, whole, accepted, Option.isSome_none, if_neg (by simp), if_pos some, before]

@[simp] theorem stored_nil (request : Request) : request.stored [] = [] := by
  simp [stored]

theorem stored_of_all {calls : List Call} (all : takenBy calls = framesSize request.buffers) :
    request.stored calls = request.buffers := by
  rw [stored, all, wholeWithin_framesSize, List.take_length]

theorem framable_kept (request : Request) (calls : List Call) : Framable (request.kept calls) := by
  cases refusal : request.refusal? with
  | none => exact (framable_of_refusal refusal).take _
  | some error =>
    rw [kept_of_refusal refusal]
    exact fun buffer member => nomatch member

end Request

theorem Call.taken_of_endsWriting {call : Call} (ends : call.endsWriting = true) :
    call.taken = 0 := by
  cases call with
  | write position slices answer =>
    cases answer with
    | done n => exact beq_iff_eq.mp ends
    | failed failure => rfl
    | crashed => rfl
  | truncate length answer => rfl
  | sync answer => rfl

namespace Surroundings

variable {env : Surroundings σ π} {settings : Settings} {file : σ} {pool : π}
  {bytes : σ → List UInt8} {request : Request} {writer : Writer} {stage : Stage σ π}

/-- A request that is done has all its frames at the end of the file. -/
theorem bytes_spill_done (tidy : env.Tidy bytes) (accepted : request.refusal? = none)
    (last : (bytes stage.file).length = writer.cursor)
    (done : (env.spill request writer stage).outcome = .done) :
    bytes (env.spill request writer stage).stage.file =
      bytes stage.file ++ request.buffers.flatMap Buffer.framed := by
  obtain ⟨calls, wrote, -, -⟩ := wrote_spill tidy.toWrites accepted done
  have length := length_spill tidy accepted done
  have all := length_framed_flatMap (framable_of_refusal accepted)
  refine ((wrote.appended last).eq_of_length_le ?_).symm
  rw [List.length_append]
  omega

/-- A request that is cut back has its whole frames at the end of the file: those that were taken
whole. -/
theorem bytes_spill_cut (tidy : env.Tidy bytes) (accepted : request.refusal? = none)
    (last : (bytes stage.file).length = writer.cursor) {error : SpillError}
    (failed : (env.spill request writer stage).outcome = .failed error)
    {between cut : Stage σ π}
    (reported : (env.spill request writer stage).stage.Untouched between)
    (truncated : env.truncateOn (env.spill request writer stage).writer.cursor between =
      (.done (), cut)) :
    ∃ calls, cut.calls = stage.calls ++ calls ∧
      writer.Moves (env.spill request writer stage).writer (framesSize (request.kept calls)) ∧
      bytes cut.file = bytes stage.file ++ (request.kept calls).flatMap Buffer.framed ∧
      request.kept calls = request.stored calls := by
  have framable := framable_of_refusal accepted
  obtain ⟨n, calls, writing, moves⟩ :=
    writing_spill tidy.toWrites accepted (by rw [failed]; simp)
  obtain ⟨-, front, ended, rfl, quiet, ends⟩ := writing.of_failed ⟨error, failed⟩
  -- The write that ended the request took nothing, so the calls before it took all `n` bytes.
  have taken : takenBy front = n := by
    have counted := writing.wrote.taken_eq
    rw [takenBy_append, List.length_take, Nat.min_eq_left writing.le_length] at counted
    simpa [takenBy, Call.taken_of_endsWriting ends] using counted
  have kept := Request.kept_of_ended accepted quiet ends
    [.truncate (env.spill request writer stage).writer.cursor (.done ())]
  rw [taken] at kept
  have behind : bytes stage.file ++
      (request.buffers.take (wholeWithin n request.buffers)).flatMap Buffer.framed <+:
        bytes between.file := by
    rw [reported.file]
    exact ((List.prefix_append_right_inj _).mpr (framed_wholeWithin framable n)).trans
      (writing.wrote.appended last)
  have cursor : (env.spill request writer stage).writer.cursor = (bytes stage.file ++
      (request.buffers.take (wholeWithin n request.buffers)).flatMap Buffer.framed).length := by
    rw [moves.cursor, List.length_append, length_framed_flatMap (framable.take _), last]
  obtain ⟨cut_eq, called⟩ := Store.called_truncateOn truncated
  have remains := tidy.truncate between.file _ _ cut_eq (cursor ▸ behind.length_le)
  refine ⟨_, ?_, by rw [kept]; exact moves, ?_, ?_⟩
  · rw [called, reported.calls, writing.wrote.calls_eq]
    simp
  · rw [remains, kept, cursor]
    exact (List.prefix_iff_eq_take.mp behind).symm
  · have cut_taken : Call.taken (.truncate (env.spill request writer stage).writer.cursor
        (.done ())) = 0 := rfl
    have nothing : takenBy [ended, .truncate (env.spill request writer stage).writer.cursor
        (.done ())] = 0 := by
      simp [takenBy, Call.taken_of_endsWriting ends, cut_taken]
    rw [kept, Request.stored, takenBy_append, nothing, Nat.add_zero, taken]

/-- An answered request that does not leave the writer poisoned adds the frames of what is kept of
it, which is what was taken whole, and the cursor moves on by them. -/
theorem added_process (tidy : env.Tidy bytes) (last : (bytes stage.file).length = writer.cursor)
    (answered : ((env.process request writer stage).reply?).isSome)
    (sound : (env.process request writer stage).writer.poisoned = false) :
    ∃ calls, (env.process request writer stage).stage.calls = stage.calls ++ calls ∧
      writer.Moves (env.process request writer stage).writer (framesSize (request.kept calls)) ∧
      bytes (env.process request writer stage).stage.file =
        bytes stage.file ++ (request.kept calls).flatMap Buffer.framed ∧
      request.kept calls = request.stored calls := by
  have settles := env.settles_process answered
  generalize env.process request writer stage = verdict at settles sound
  cases settles with
  | poisoned poisoned untouched => simp [poisoned] at sound
  | refused healthy refusal untouched =>
    refine ⟨[], by rw [untouched.calls, List.append_nil], ?_, ?_, ?_⟩
    · rw [Request.kept_of_refusal refusal]
      exact .refl writer
    · rw [Request.kept_of_refusal refusal, untouched.file, List.flatMap_nil, List.append_nil]
    · rw [Request.kept_of_refusal refusal, Request.stored_nil]
  | written healthy accepted done ended answer =>
    obtain ⟨calls, wrote, quiet, moves⟩ := wrote_spill tidy.toWrites accepted done
    have frames := bytes_spill_done tidy accepted last done
    have all := wrote.taken_eq.trans (length_framed_flatMap (framable_of_refusal accepted))
    rcases ended with untouched | ⟨answer, calm, synced, called⟩
    · refine ⟨calls, by rw [untouched.calls, wrote.calls_eq], ?_, ?_, ?_⟩
      · rwa [Request.kept_of_quiet accepted quiet]
      · rw [Request.kept_of_quiet accepted quiet, untouched.file, frames]
      · rw [Request.kept_of_quiet accepted quiet, Request.stored_of_all all]
    · have quiet' : ∀ call ∈ calls ++ [.sync answer], call.endsWriting = false :=
        List.forall_mem_append.mpr ⟨quiet, by simp [Call.endsWriting]⟩
      have same := tidy.sync (env.spill request writer stage).stage.file
      rw [synced] at same
      refine ⟨calls ++ [.sync answer], ?_, ?_, ?_, ?_⟩
      · rw [called, wrote.calls_eq, List.append_assoc]
      · rwa [Request.kept_of_quiet accepted quiet']
      · rw [Request.kept_of_quiet accepted quiet', same calm, frames]
      · rw [Request.kept_of_quiet accepted quiet',
          Request.stored_of_all (by rw [takenBy_append, all]; rfl)]
  | cut healthy accepted failed reported truncated untouched =>
    obtain ⟨calls, called, moves, frames, same⟩ :=
      bytes_spill_cut tidy accepted last failed reported truncated
    exact ⟨calls, by rw [untouched.calls, called], moves, by rw [untouched.file, frames], same⟩
  | stuck healthy accepted failed => simp at sound

theorem sound_of_process (answered : ((env.process request writer stage).reply?).isSome)
    (sound : (env.process request writer stage).writer.poisoned = false) :
    writer.poisoned = false := by
  have settles := env.settles_process answered
  generalize env.process request writer stage = verdict at settles sound
  cases settles with
  | poisoned poisoned untouched => exact sound
  | refused healthy _ _ | written healthy _ _ _ _ | cut healthy _ _ _ _ _ | stuck healthy _ _ =>
    exact healthy

theorem staysFramed_hand {first : List UInt8} {s : Session σ π} (request : Request)
    (stays : s.StaysFramed bytes first) : (env.hand request s).StaysFramed bytes first := by
  intro alive sound
  simp only [hand, submit] at alive sound ⊢
  split
  · rename_i empty
    rw [if_pos empty] at alive sound
    obtain ⟨calls, content, length, shared⟩ := stays alive sound
    have untouched := Stage.Untouched.reply s.stage s.submitted.length (.ok [])
    exact ⟨untouched.calls.trans calls, content, length, shared⟩
  · split
    · rename_i full lives
      rw [if_neg full, if_pos lives] at sound
      obtain ⟨calls, content, length, shared⟩ := stays lives sound
      exact ⟨calls, content, length, shared⟩
    · rename_i full dead
      rw [if_neg full, if_neg dead] at alive
      exact absurd alive dead

theorem staysFramed_work (tidy : env.Tidy bytes) {first : List UInt8} {s : Session σ π}
    (orderly : s.Orderly) (stays : s.StaysFramed bytes first) :
    (env.work s).StaysFramed bytes first := by
  intro alive sound
  obtain ⟨-, same⟩ | ⟨order, later, reply, writer, after, queued, processed⟩ :=
    env.work_of_alive alive
  · rw [same] at alive sound ⊢
    exact stays alive sound
  · have lives := orderly.alive_of_queue (by simp [queued])
    rw [env.work_of_reply queued processed] at sound ⊢
    have answered : ((env.process order.request s.spooler.writer s.stage).reply?).isSome := by
      rw [processed]
      rfl
    have unpoisoned :
        (env.process order.request s.spooler.writer s.stage).writer.poisoned = false := by
      rw [processed]
      exact sound
    obtain ⟨calls, content, length, shared⟩ := stays lives (sound_of_process answered unpoisoned)
    obtain ⟨new, called, moves, frames, -⟩ := added_process tidy length answered unpoisoned
    rw [processed] at called moves frames
    have told : (after.reply order.ticket reply).calls = s.stage.calls ++ new :=
      (Stage.Untouched.reply after order.ticket reply).calls.trans called
    have added : bytes (after.reply order.ticket reply).file =
        bytes s.stage.file ++ (order.request.kept new).flatMap Buffer.framed := frames
    constructor
    · simp [told, calls]
    · simp [told, added, content, Errand.kept]
    · rw [added, List.length_append, length, length_framed_flatMap (order.request.framable_kept new)]
      exact moves.cursor.symm
    · exact moves.progress shared

theorem Reaches.staysFramed (tidy : env.Tidy bytes)
    (honest : env.length file = .done (bytes file).length) {s : Session σ π}
    (reached : env.Reaches settings file pool s) : s.StaysFramed bytes (bytes file) := by
  apply reached.rule
  · intro spooler stage started alive sound
    obtain ⟨cursor, length, rfl, rfl⟩ := spooler_start started
    have same : (bytes file).length = cursor := by
      have told := honest.symm.trans length
      simpa using told
    exact ⟨rfl, (List.append_nil _).symm, same, rfl⟩
  · exact fun s request _ stays => staysFramed_hand request stays
  · exact fun s reached stays => staysFramed_work tidy reached.orderly stays
  · intro s notice _ stays alive sound
    obtain ⟨calls, content, length, shared⟩ := stays alive sound
    exact ⟨(Stage.Untouched.note s.stage notice).calls.trans calls, content, length, shared⟩
  · intro s none stays alive
    simp [Session.shut] at alive

/-- As long as the writer is alive and not poisoned, what was taken from the queue and what still
waits are the requests in their order; all calls on the file are those of the requests taken; the
file ends at the spooler's cursor, and is what it was at first followed by the frames of what is
kept of each request; and from where it ended at first, exactly these buffers are read. -/
theorem file_is_whole_frames (tidy : env.Tidy bytes)
    (honest : env.length file = .done (bytes file).length) {s : Session σ π}
    (reached : env.Reaches settings file pool s) (alive : s.spooler.alive = true)
    (sound : s.spooler.writer.poisoned = false) :
    let kept := s.errands.flatMap Errand.kept
    s.errands.map Errand.order ++ s.spooler.queue = ordersFrom 0 s.submitted ∧
      s.errands.flatMap Errand.calls = s.stage.calls ∧
      (bytes s.stage.file).length = s.spooler.cursor ∧
      bytes s.stage.file = bytes file ++ kept.flatMap Buffer.framed ∧
      ∀ (ρ : Type) (source : Source ρ) (stands : ρ → Nat → Prop),
        source.Plays (bytes s.stage.file) stands →
          ∀ state, stands state (bytes file).length → source.Scans state kept := by
  obtain ⟨calls, content, length, shared⟩ := reached.staysFramed tidy honest alive sound
  refine ⟨reached.orderly.alive_orders alive, calls.symm, length.trans shared.symm, content, ?_⟩
  intro ρ source stands plays state here
  have framable : Framable (s.errands.flatMap Errand.kept) := by
    intro buffer member
    obtain ⟨errand, -, inside⟩ := List.mem_flatMap.mp member
    exact errand.order.request.framable_kept errand.calls buffer inside
  apply plays.scans_framed framable here
  · rw [content, List.length_append]
    omega
  · rw [content, List.drop_left]

/-- A buffer is spilled to an empty file in memory, which then has eleven bytes and is scanned to its
end. -/
theorem three_bytes_are_scanned :
    let stage := (inMemory.start .standard (.start ⟨.empty, false⟩ ⟨0, none⟩)).2
    let opened := Session.fresh ⟨.start .standard 0, true, []⟩ stage
    let spilt := inMemory.work (inMemory.hand ⟨[threeBytes]⟩ opened)
    spilt.stage.file.contents.toList.length = 11 ∧
      spilt.stage.file.contents.toList =
        (spilt.errands.flatMap Errand.kept).flatMap Buffer.framed ∧
      (Tape.sourceKeeping false).Scans (.ofExtent spilt.stage.file.contents Word.span)
        (spilt.errands.flatMap Errand.kept) := by
  intro stage opened spilt
  have reached : inMemory.Reaches .standard ⟨.empty, false⟩ ⟨0, none⟩ spilt :=
    .act .step (.act (.submit _) (.start rfl))
  obtain ⟨after, processed⟩ := process_threeBytes
  have worked := inMemory.work_of_reply (s := inMemory.hand ⟨[threeBytes]⟩ opened) rfl processed
  have spooler : spilt.spooler = ⟨(Writer.start .standard 0).advance 11, true, []⟩ := by
    rw [show spilt = _ from worked]
    rfl
  obtain ⟨-, -, length, content, scans⟩ := file_is_whole_frames Memory.tidy rfl reached
    (by rw [spooler]) (by rw [spooler]; rfl)
  simp only [Extent.toList_empty, List.nil_append, List.length_nil] at content scans
  have eleven : spilt.stage.file.contents.toList.length = 11 := by
    rw [length, spooler]
    rfl
  have inside : spilt.stage.file.contents.size < Word.span := by
    rw [← Extent.length_toList, eleven]
    decide
  exact ⟨eleven, content, scans Tape _ _ (Tape.plays_carries false _) _ (Tape.carries_ofExtent inside)⟩

end Surroundings
end Spillway
