import Spillway.Proofs.Protocol
/-!
What is salvaged of a request that a write ends. The frames that were taken whole before that write are
kept, wherever in a frame or a batch it came: the writer moves on by them, and the one cut of the repair
is made behind them, so the file that it leaves ends with them. The answer is the cause that the write
gives.
-/

namespace Spillway

variable {σ π : Type}

/-- A file that stores exactly what it takes. A write that fails may leave anything at its position and
behind. A cut that is made leaves a file as long as was asked for, which keeps what the file had up to
there. -/
structure Store.Exact (store : Store σ) (bytes : σ → List UInt8) : Prop extends
    store.Writes bytes where
  cut : ∀ file length after, store.truncate file length = (.done (), after) →
    (bytes after).length = length ∧ (bytes file).take length <+: bytes after

theorem Memory.exact : store.Exact fun memory => memory.contents.toList where
  toWrites := retains.writes
  cut memory length after done := by
    have kept := retains.truncate memory length
    rw [done] at kept
    refine ⟨?_, kept⟩
    simp only [store, truncate] at done
    split at done
    · cases done
    · split at done
      · cases done
      · cases done
        rw [Extent.length_toList, Extent.size_resize]

/-- The whole frames that a file took lie behind the cursor when it has been cut to their end, and nothing
lies behind them. -/
theorem Store.Exact.content_of_cut {store : Store σ} {bytes : σ → List UInt8}
    (stores : store.Exact bytes) {before wrote cut : σ} {offset : Nat} {frames : List UInt8}
    (there : frames <+: (bytes wrote).drop offset)
    (kept : (bytes before).take offset <+: bytes wrote)
    (truncated : store.truncate wrote (offset + frames.length) = (.done (), cut)) :
    ∃ below, below.length = offset ∧ (bytes before).take offset <+: below ∧
      bytes cut = below ++ frames := by
  obtain ⟨length, front⟩ := stores.cut _ _ _ truncated
  have rest : ((bytes cut).drop offset).length = frames.length := by
    rw [List.length_drop, length, Nat.add_sub_cancel_left]
  have last : frames = (bytes cut).drop offset :=
    (prefix_drop_of_take there (Nat.le_refl _) front).eq_of_length rest.symm
  have low := take_prefix_trans kept front (Nat.le_add_right _ _)
  refine ⟨(bytes cut).take offset, ?_, ?_, ?_⟩
  · rw [List.length_take, length]
    omega
  · exact List.prefix_take_iff.mpr ⟨low, List.length_take_le _ _⟩
  · rw [last, List.take_append_drop]

namespace Surroundings

variable {env : Surroundings σ π} {bytes : σ → List UInt8} {request : Request} {writer : Writer}
  {stage : Stage σ π}

theorem exact_cramped (limit chunk : Nat) :
    (cramped limit chunk).Exact fun memory => memory.contents.toList :=
  ⟨(Memory.tidy.capped limit chunk).toWrites, Memory.exact.cut⟩

/-- If one of the calls for a request ends the work on it, this failed, with the cause of that call, and
the calls are quiet writes, that call, and a cut. -/
theorem spill_of_ended (calm : env.Calm) (accepted : request.refusal? = none)
    (room : writer.cursor + framesSize request.buffers < Word.span) (entries : List Entry)
    {calls : List Call} {call : Call} {cause : Cause}
    (called : (env.carryOut request entries writer stage).stage.calls = stage.calls ++ calls)
    (made : call ∈ calls) (ends : call.endCause? = some cause) :
    (env.spill request writer stage).outcome = .failed (.io cause) ∧
      ∃ front, Quiet front ∧
        (env.spill request writer stage).stage.calls = stage.calls ++ (front ++ [call]) := by
  obtain ⟨first, attempts⟩ := env.attempts_spill accepted writer stage
  have ended := attempts.ended
  have loud : ¬ Quiet calls := fun quiet => by simp [quiet call made] at ends
  cases outcome : (env.spill request writer stage).outcome with
  | crashed =>
    rw [carryOut_of_crashed outcome, attempts.calls_eq, List.append_cancel_left_eq] at called
    rw [← called] at loud
    exact absurd (attempts.unfair outcome ⟨calm, room⟩).1 loud
  | done =>
    rw [outcome] at ended
    obtain ⟨-, later, more, sync⟩ := env.calls_carryOut_of_done accepted entries outcome
    rw [called, attempts.calls_eq, List.append_assoc, List.append_cancel_left_eq] at more
    have quiet : Quiet later := by
      rcases sync with ⟨-, rfl⟩ | ⟨-, answer, rfl⟩ <;> simp [Quiet, Call.endCause?]
    rw [more] at loud
    exact absurd (Quiet.append ended quiet) loud
  | failed error =>
    rw [outcome] at ended
    obtain ⟨front, last, cause', rfl, quiet, ends', rfl⟩ := ended
    obtain ⟨answer, -, cut, -⟩ := env.repaired_carryOut entries outcome
    rw [called, attempts.calls_eq, List.append_assoc, List.append_cancel_left_eq] at cut
    rw [cut, List.append_assoc, List.mem_append, List.mem_append, List.mem_singleton,
      List.mem_singleton] at made
    rcases made with early | rfl | rfl
    · rw [quiet call early] at ends
      cases ends
    · obtain rfl : cause' = cause := Option.some.inj (ends'.symm.trans ends)
      exact ⟨rfl, front, quiet, attempts.calls_eq⟩
    · cases ends

/-- A request that a write ended was not taken as a whole, and the writer moves on by the frames that are
whole within what the writes before took. -/
theorem writer_of_ended (accepted : request.refusal? = none) {front : List Call} {call : Call}
    {cause : Cause} (failed : (env.spill request writer stage).outcome = .failed (.io cause))
    (spilt : (env.spill request writer stage).stage.calls = stage.calls ++ (front ++ [call]))
    (ends : call.endCause? = some cause) :
    takenBy front < framesSize request.buffers ∧
      (env.spill request writer stage).writer = writer.advance (framesSize
        (request.buffers.take (wholeWithin (takenBy front) request.buffers))) := by
  have nothing : call.taken = 0 := Call.taken_of_endsWriting (by rw [Call.endsWriting_eq, ends]; rfl)
  have taken : takenBy (front ++ [call]) = takenBy front := by simp [takenBy, nothing]
  have less := (env.taken_by_spill accepted spilt).2 _ failed
  rw [taken] at less
  have some : request.buffers ≠ [] := by
    intro none
    simp [none] at less
  obtain ⟨first, attempts⟩ := env.attempts_spill accepted writer stage
  obtain rfl : first = front ++ [call] := List.append_cancel_left (attempts.calls_eq.symm.trans spilt)
  exact ⟨less, by rw [attempts.moved (by rw [failed]; simp), Writer.after_of_some some, taken]⟩

/-- A cut behind the whole frames of a request that failed leaves these frames and what was below the
cursor before. -/
theorem content_of_ended (stores : env.Exact bytes) (accepted : request.refusal? = none)
    {error : SpillError} (failed : (env.spill request writer stage).outcome = .failed error)
    {calls : List Call} (spilt : (env.spill request writer stage).stage.calls = stage.calls ++ calls)
    {kept : List Buffer} (whole : kept = request.buffers.take (wholeWithin (takenBy calls) request.buffers))
    {cut : σ} (truncated : env.truncate (env.spill request writer stage).stage.file
      (writer.cursor + framesSize kept) = (.done (), cut)) :
    ∃ below, below.length = writer.cursor ∧ (bytes stage.file).take writer.cursor <+: below ∧
      bytes cut = below ++ kept.flatMap Buffer.framed := by
  have framable := framable_of_refusal accepted
  have calm : (env.spill request writer stage).outcome ≠ .crashed := by simp [failed]
  obtain ⟨n, wrote, writing, -⟩ := writing_spill stores.toWrites accepted calm
  obtain rfl : wrote = calls := List.append_cancel_left (writing.wrote.calls_eq.symm.trans spilt)
  have counted := writing.wrote.taken_eq
  rw [List.length_take, Nat.min_eq_left writing.le_length] at counted
  rw [counted] at whole
  subst whole
  rw [← length_framed_flatMap (framable.take _)] at truncated
  exact stores.content_of_cut ((framed_wholeWithin framable n).trans writing.wrote.there)
    writing.wrote.kept truncated

/-- If a write for a request ends it, all calls before it are quiet writes and the only one after it is a
cut. Of the request the most frames are kept that are within what these writes took: the writer moves
on by them, and so does what counts as written. The answer is the cause of that write. If the cut is
made, the file is what it was below the cursor and then these frames; if it fails, the writer is
poisoned. -/
theorem ended_write_keeps_whole_frames (stores : env.Exact bytes) (calm : env.Calm)
    (sound : writer.poisoned = false) (framable : Framable request.buffers)
    (room : writer.cursor + request.framedSize < Word.span) {calls : List Call} {call : Call}
    {cause : Cause} (called : (env.process request writer stage).stage.calls = stage.calls ++ calls)
    (made : call ∈ calls) (ends : call.endCause? = some cause) :
    ∃ front answer,
      let verdict := env.process request writer stage
      let whole := wholeWithin (takenBy front) request.buffers
      let kept := request.buffers.take whole
      calls = front ++ [call, .truncate (writer.cursor + framesSize kept) answer] ∧
        (∀ call ∈ front, call.isWrite = true) ∧ Quiet front ∧
        whole < request.items.length ∧
        (∀ n ≤ request.items.length,
          n ≤ whole ↔ framesSize (request.buffers.take n) ≤ takenBy front) ∧
        verdict.writer.cursor = writer.cursor + framesSize kept ∧
        verdict.writer.progress =
          ⟨writer.cursor + framesSize kept, writer.progress.written + framesSize kept⟩ ∧
        (answer ≠ .crashed → verdict.reply? = some (.error (.io cause))) ∧
        (answer = .done () → verdict.writer.poisoned = false ∧
          ∃ below, below.length = writer.cursor ∧ (bytes stage.file).take writer.cursor <+: below ∧
            bytes verdict.stage.file = below ++ kept.flatMap Buffer.framed) ∧
        ((∃ failure, answer = .failed failure) → verdict.writer.poisoned = true) := by
  have accepted := refusal_of_framable framable
  rw [framedSize_eq] at room
  obtain ⟨entries, known⟩ := entriesFrom?_of_room room
  have accepts : writer.Accepts request := ⟨sound, accepted, by rw [Request.entries?, known]; rfl⟩
  obtain ⟨entries, -, carried⟩ := env.process_of_accepts accepts stage
  rw [carried] at called ⊢
  obtain ⟨failed, front, quiet, spilt⟩ := spill_of_ended calm accepted room entries called made ends
  obtain ⟨less, moved⟩ := writer_of_ended accepted failed spilt ends
  obtain ⟨answer, truncated, cut, repaired⟩ := env.repaired_carryOut entries failed
  have most : ∀ n ≤ request.items.length, n ≤ wholeWithin (takenBy front) request.buffers ↔
      framesSize (request.buffers.take n) ≤ takenBy front :=
    fun n inside => le_wholeWithin_iff (by simpa [Request.buffers] using inside)
  rw [called, spilt, List.append_assoc, List.append_cancel_left_eq, List.append_assoc,
    List.singleton_append, moved] at cut
  refine ⟨front, answer, cut, ?_, quiet, ?_, most, ?_⟩
  · exact fun call member => (env.gathers_spill accepted writer stage spilt).1 call (by simp [member])
  · refine Nat.lt_of_not_le fun all => ?_
    have fits := (most _ (Nat.le_refl _)).mp all
    rw [List.take_of_length_le (by simp [Request.buffers])] at fits
    omega
  · obtain ⟨rfl, same, reply⟩ | ⟨failure, rfl, same, reply⟩ | ⟨rfl, same, reply⟩ := repaired
    · have nothing : call.taken = 0 :=
        Call.taken_of_endsWriting (by rw [Call.endsWriting_eq, ends]; rfl)
      rw [moved] at truncated
      rw [same, moved]
      exact ⟨rfl, rfl, fun _ => reply, fun _ => ⟨sound, content_of_ended stores accepted failed spilt
        (by simp [takenBy, nothing]) truncated⟩, by simp⟩
    · rw [same, moved]
      exact ⟨rfl, rfl, fun _ => reply, by simp, fun _ => rfl⟩
    · rw [same, moved]
      exact ⟨rfl, rfl, fun alive => absurd rfl alive, by simp, by simp⟩

/-- Of two frames of eleven bytes, of which the file takes fifteen bytes before it is full, one is kept,
and the file is this frame. -/
theorem one_of_two_frames_is_kept :
    let opened := ((cramped 15 100).start .standard (.start ⟨.empty, false⟩ ())).2
    let verdict := (cramped 15 100).process ⟨[threeBytes, threeBytes]⟩ (.start .standard 0) opened
    verdict.reply? = some (.error (.io .storageFull)) ∧ verdict.writer.progress = ⟨11, 11⟩ ∧
      verdict.writer.poisoned = false ∧
      verdict.stage.file.contents.toList = threeBytes.buffer.framed := by
  intro opened verdict
  obtain ⟨first, second, after, processed, calls, -⟩ := process_cramped
  have called : verdict.stage.calls = opened.calls ++ [.write 0 first (.done 15),
      .write 15 second (.failed (.ofCause .storageFull)), .truncate 11 (.done ())] := by
    rw [show verdict = _ from processed]
    exact calls
  have framable : Framable (Request.buffers ⟨[threeBytes, threeBytes]⟩) := framable_of_refusal rfl
  have ends : (Call.write 15 second (.failed (.ofCause .storageFull))).endCause? = some .storageFull :=
    rfl
  obtain ⟨front, answer, split, -, -, -, -, -, progress, reply, content, -⟩ :=
    ended_write_keeps_whole_frames (exact_cramped 15 100) Pool.calm_quiet rfl framable (by decide)
      called (by simp) ends
  -- Fifteen bytes were taken, which hold one frame.
  obtain ⟨same, rest⟩ : [Call.write 0 first (.done 15)] = front ∧ _ := List.append_inj' split rfl
  obtain ⟨-, rfl⟩ : _ ∧ Answer.done () = answer := by simpa using rest
  subst same
  have one : wholeWithin (takenBy [.write 0 first (.done 15)])
      (Request.buffers ⟨[threeBytes, threeBytes]⟩) = 1 := by
    show wholeWithin 15 [threeBytes.buffer, threeBytes.buffer] = 1
    decide
  rw [one] at progress content
  obtain ⟨sound, below, empty, -, frames⟩ := content rfl
  obtain rfl := List.length_eq_zero_iff.mp empty
  exact ⟨reply (by simp), progress, sound, by simpa [Request.buffers] using frames⟩

end Surroundings
end Spillway
