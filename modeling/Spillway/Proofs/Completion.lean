import Spillway.Proofs.Writing
import Spillway.Proofs.Verdicts
/-!
Work that is done took everything it was to write, whatever else the file does. And on a file that
takes something of every write, with pools that take every segment back, all work is done: a request
whose buffers can be framed, with room for them below half of the machine's span, is answered with
its entries, and its frames are in the file.
-/

namespace Spillway

variable {σ π : Type}

/-- The bytes that the file took, as far as it says so, according to a journal. -/
def takenIn : List (Event σ) → Nat
  | [] => 0
  | .called call :: older => takenIn older + call.taken
  | _ :: older => takenIn older

theorem takenIn_append (new old : List (Event σ)) :
    takenIn (new ++ old) = takenIn old + takenIn new := by
  induction new with
  | nil => rfl
  | cons event new ih =>
    cases event with
    | called call => simp only [List.cons_append, takenIn, ih, Nat.add_assoc]
    | released _ _ _ | counted _ _ | noted _ | replied _ _ | crashed => exact ih

/-- The journal and the calls agree on what the file took. -/
theorem takenBy_calls (stage : Stage σ π) : takenBy stage.calls = takenIn stage.journal := by
  simp only [Stage.calls, Stage.events, List.filterMap_reverse, takenBy, List.map_reverse,
    Word.total_reverse]
  induction stage.journal with
  | nil => rfl
  | cons event older ih => cases event <;> simp [takenIn, ← ih, Nat.add_comm]

namespace Surroundings

variable (env : Surroundings σ π)

/-! ## Work that is done -/

/-- A transfer that is done took all it was to write, by its own count and by what the file says. -/
theorem taken_transferFrom (offset before : Nat) (slices : List Extent) (taken : Nat)
    (stage : Stage σ π)
    (done : (env.transferFrom offset before slices taken stage).finish = .done ()) :
    (env.transferFrom offset before slices taken stage).written =
        before + taken + Extent.totalSize slices ∧
      takenBy (env.transferFrom offset before slices taken stage).stage.calls =
        takenBy stage.calls + Extent.totalSize slices := by
  fun_induction env.transferFrom offset before slices taken stage with
  | case1 slices taken stage none =>
    rw [none]
    exact ⟨rfl, rfl⟩
  | case2 slices taken stage some overflow => cases done
  | case3 slices taken stage some position found after call => cases done
  | case4 slices taken stage some position found failure after call interrupted ih =>
    obtain ⟨written, took⟩ := ih done
    have called := congrArg takenBy (Store.called_writeOn call).2
    rw [takenBy_append] at called
    exact ⟨written, by rw [took, called]; rfl⟩
  | case5 slices taken stage some position found failure after call fatal => cases done
  | case6 slices taken stage some position found after call => cases done
  | case7 slices taken stage some position found n after call nonzero overflow => cases done
  | case8 slices taken stage some position found n after call nonzero counted overclaimed =>
    cases done
  | case9 slices taken stage some position found n after call nonzero counted within ih =>
    obtain ⟨written, took⟩ := ih done
    have called := congrArg takenBy (Store.called_writeOn call).2
    have one : takenBy [Call.write position slices (.done n)] = n := rfl
    rw [takenBy_append, one] at called
    rw [Extent.totalSize_advance] at written took
    exact ⟨by omega, by omega⟩

theorem taken_writeBatch {batch : List Buffer} (framable : Framable batch) (writer : Writer)
    (stage : Stage σ π) (done : (env.writeBatch batch writer stage).outcome = .done) :
    takenBy (env.writeBatch batch writer stage).stage.calls =
        takenBy stage.calls + framesSize batch ∧
      writer.Moves (env.writeBatch batch writer stage).writer (framesSize batch) := by
  obtain ⟨frames, encoded, joined⟩ := encode_batch framable
  have moved := env.taken_transferFrom writer.cursor 0 (frames.flatMap Frame.slices) 0 stage
  unfold writeBatch at done ⊢
  rw [encoded] at done ⊢
  simp only [Store.transfer] at done ⊢
  rw [Extent.totalSize_eq, joined, length_framed_flatMap framable] at moved
  generalize env.transferFrom writer.cursor 0 (frames.flatMap Frame.slices) 0 stage = transfer
    at moved done ⊢
  cases finish : transfer.finish with
  | crashed => simp [finish] at done
  | failed failure =>
    simp only [finish] at done
    have settled := moves_settleBatch batch _ _ writer _ (by rw [done]; simp)
    rw [done] at settled
    cases settled.2.1
  | done value =>
    obtain ⟨written, took⟩ := moved finish
    simp only [finish] at done ⊢
    obtain ⟨untouched, -, moves⟩ := moves_settleBatch batch _ _ writer _ (by rw [done]; simp)
    have noted := Stage.Untouched.note transfer.stage
      (.wrote transfer.written batch.length writer.cursor)
    rw [Nat.zero_add] at written
    rw [written, wholeWithin_framesSize, List.take_length] at moves
    exact ⟨by rw [(noted.trans untouched).calls, took], by rw [written]; exact moves⟩

theorem taken_writeBatches {batches : List (List Buffer)} (framable : Framable batches.flatten)
    (writer : Writer) (stage : Stage σ π)
    (done : (env.writeBatches batches writer stage).outcome = .done) :
    takenBy (env.writeBatches batches writer stage).stage.calls =
        takenBy stage.calls + framesSize batches.flatten ∧
      writer.Moves (env.writeBatches batches writer stage).writer (framesSize batches.flatten) := by
  fun_induction env.writeBatches batches writer stage with
  | case1 writer stage => exact ⟨rfl, .refl writer⟩
  | case2 batch later writer stage work finished ih =>
    rw [List.flatten_cons] at framable ⊢
    obtain ⟨first, moves⟩ := env.taken_writeBatch framable.left writer stage finished
    obtain ⟨rest, moves'⟩ := ih framable.right done
    rw [framesSize_append]
    refine ⟨?_, moves.trans moves'⟩
    rw [rest, first, Nat.add_assoc]
  | case3 batch later writer stage work dropped fails =>
    simp only at done
    split at done
    · cases done
    · exact absurd done fails

theorem taken_spill {request : Request} {writer : Writer} {stage : Stage σ π}
    (accepted : request.refusal? = none)
    (done : (env.spill request writer stage).outcome = .done) :
    takenBy (env.spill request writer stage).stage.calls =
        takenBy stage.calls + framesSize request.buffers ∧
      writer.Moves (env.spill request writer stage).writer (framesSize request.buffers) := by
  have all := flatten_batches writer.settings.framesPerWrite request.buffers
  have framable : Framable (batches writer.settings.framesPerWrite request.buffers).flatten := by
    rw [all]
    exact framable_of_refusal accepted
  obtain ⟨took, moves⟩ := env.taken_writeBatches framable writer _ done
  rw [all] at took moves
  exact ⟨took.trans (by rw [(Stage.Untouched.note stage _).calls]), moves⟩

/-! ## Work that fails -/

/-- A transfer that fails took less than it was to write. -/
theorem less_transferFrom (offset before : Nat) (slices : List Extent) (taken : Nat)
    (stage : Stage σ π) {failure : Failure}
    (failed : (env.transferFrom offset before slices taken stage).finish = .failed failure) :
    takenBy (env.transferFrom offset before slices taken stage).stage.calls <
      takenBy stage.calls + Extent.totalSize slices := by
  fun_induction env.transferFrom offset before slices taken stage with
  | case1 slices taken stage none => cases failed
  | case2 slices taken stage some overflow => cases failed
  | case3 slices taken stage some position found after call => cases failed
  | case4 slices taken stage some position found failure after call interrupted ih =>
    have called := congrArg takenBy (Store.called_writeOn call).2
    have less := ih failed
    rw [takenBy_append] at called
    rw [called] at less
    exact less
  | case5 slices taken stage some position found failure after call fatal =>
    have called := congrArg takenBy (Store.called_writeOn call).2
    rw [takenBy_append] at called
    rw [called]
    exact Nat.lt_add_of_pos_right (Nat.pos_of_ne_zero some)
  | case6 slices taken stage some position found after call =>
    have called := congrArg takenBy (Store.called_writeOn call).2
    rw [takenBy_append] at called
    rw [called]
    exact Nat.lt_add_of_pos_right (Nat.pos_of_ne_zero some)
  | case7 slices taken stage some position found n after call nonzero overflow => cases failed
  | case8 slices taken stage some position found n after call nonzero counted overclaimed =>
    cases failed
  | case9 slices taken stage some position found n after call nonzero counted within ih =>
    have called := congrArg takenBy (Store.called_writeOn call).2
    have one : takenBy [Call.write position slices (.done n)] = n := rfl
    have less := ih failed
    rw [takenBy_append, one] at called
    rw [Extent.totalSize_advance] at less
    omega

theorem less_writeBatch {batch : List Buffer} (framable : Framable batch) (writer : Writer)
    (stage : Stage σ π) {error : SpillError}
    (failed : (env.writeBatch batch writer stage).outcome = .failed error) :
    takenBy (env.writeBatch batch writer stage).stage.calls <
      takenBy stage.calls + framesSize batch := by
  obtain ⟨frames, encoded, joined⟩ := encode_batch framable
  have less := @less_transferFrom σ π env writer.cursor 0 (frames.flatMap Frame.slices) 0 stage
  unfold writeBatch at failed ⊢
  rw [encoded] at failed ⊢
  simp only [Store.transfer] at failed ⊢
  rw [Extent.totalSize_eq, joined, length_framed_flatMap framable] at less
  generalize env.transferFrom writer.cursor 0 (frames.flatMap Frame.slices) 0 stage = transfer
    at less failed ⊢
  have noted := Stage.Untouched.note transfer.stage
    (.wrote transfer.written batch.length writer.cursor)
  cases finish : transfer.finish with
  | crashed => simp [finish] at failed
  | failed failure =>
    simp only [finish] at failed ⊢
    obtain ⟨untouched, -, -⟩ := moves_settleBatch batch _ _ writer _ (by rw [failed]; simp)
    rw [(noted.trans untouched).calls]
    exact less finish
  | done value =>
    simp only [finish] at failed
    have settled := moves_settleBatch batch _ _ writer _ (by rw [failed]; simp)
    rw [failed] at settled
    cases settled.2.1

theorem less_writeBatches {batches : List (List Buffer)} (framable : Framable batches.flatten)
    (writer : Writer) (stage : Stage σ π) {error : SpillError}
    (failed : (env.writeBatches batches writer stage).outcome = .failed error) :
    takenBy (env.writeBatches batches writer stage).stage.calls <
      takenBy stage.calls + framesSize batches.flatten := by
  fun_induction env.writeBatches batches writer stage with
  | case1 writer stage => cases failed
  | case2 batch later writer stage work finished ih =>
    rw [List.flatten_cons] at framable ⊢
    obtain ⟨first, -⟩ := env.taken_writeBatch framable.left writer stage finished
    have rest := ih framable.right failed
    simp only [work, first, framesSize_append] at rest ⊢
    omega
  | case3 batch later writer stage work dropped fails =>
    rw [List.flatten_cons] at framable ⊢
    simp only at failed ⊢
    split at failed
    · cases failed
    · have less := env.less_writeBatch framable.left writer stage failed
      rw [(Stage.Untouched.releaseAll env.toPool later.flatten work.stage).calls, framesSize_append]
      exact Nat.lt_of_lt_of_le less (by omega)

/-- A request that fails while it is written was not taken as a whole. -/
theorem less_spill {request : Request} {writer : Writer} {stage : Stage σ π} {error : SpillError}
    (accepted : request.refusal? = none)
    (failed : (env.spill request writer stage).outcome = .failed error) :
    takenBy (env.spill request writer stage).stage.calls <
      takenBy stage.calls + framesSize request.buffers := by
  have all := flatten_batches writer.settings.framesPerWrite request.buffers
  have framable : Framable (batches writer.settings.framesPerWrite request.buffers).flatten := by
    rw [all]
    exact framable_of_refusal accepted
  have less := env.less_writeBatches framable writer _ failed
  rw [all, (Stage.Untouched.note stage _).calls] at less
  exact less

end Surroundings

/-! ## Work on a file that takes what it is offered -/

/-- A file in memory with a plan laid over it, and quiet pools. -/
def Surroundings.exercise : Surroundings (Planned Memory) Unit := ⟨Memory.store.planned, Pool.quiet⟩

theorem Surroundings.takes_exercise :
    exercise.Takes (fun file => file.inner.contents.toList)
      (fun file => file.inner.broken = false ∧ file.plan.Mild) :=
  Memory.takes.planned

theorem Surroundings.syncs_exercise :
    exercise.Syncs (fun file => file.inner.contents.toList)
      (fun file => file.inner.broken = false ∧ file.plan.Mild) :=
  Memory.syncs.planned

/-- All of `part` was written at `offset`, and nothing behind `stop`. -/
structure Stage.Filled (bytes : σ → List UInt8) (sound : σ → Prop) (offset : Nat)
    (part : List UInt8) (stop : Nat) (before after : Stage σ π) : Prop where
  sound : sound after.file
  wrote : ∃ calls, before.Wrote bytes offset part calls after
  within : (bytes after.file).length ≤ max (bytes before.file).length stop

namespace Stage.Filled

variable {bytes : σ → List UInt8} {sound : σ → Prop} {offset stop : Nat} {part next : List UInt8}
  {before between after : Stage σ π}

theorem of_untouched (untouched : before.Untouched after) (healthy : sound before.file)
    (offset stop : Nat) : before.Filled bytes sound offset [] stop after := by
  refine ⟨?_, ⟨[], .of_untouched untouched bytes offset⟩, ?_⟩
  · rwa [untouched.file]
  · rw [untouched.file]
    exact Nat.le_max_left _ _

theorem trans (first : before.Filled bytes sound offset part stop between)
    (second : between.Filled bytes sound (offset + part.length) next stop after) :
    before.Filled bytes sound offset (part ++ next) stop after := by
  obtain ⟨-, ⟨calls, wrote⟩, within⟩ := first
  obtain ⟨healthy, ⟨later, wrote'⟩, within'⟩ := second
  refine ⟨healthy, ⟨calls ++ later, wrote.trans wrote'⟩, ?_⟩
  exact Nat.le_trans within' (Nat.max_le.mpr ⟨within, Nat.le_max_right _ _⟩)

theorem trans_untouched (first : before.Filled bytes sound offset part stop between)
    (untouched : between.Untouched after) : before.Filled bytes sound offset part stop after := by
  have both := first.trans (of_untouched untouched first.sound _ stop)
  rwa [List.append_nil] at both

theorem mono {further : Nat} (filled : before.Filled bytes sound offset part stop after)
    (le : stop ≤ further) : before.Filled bytes sound offset part further after := by
  have within := filled.within
  exact ⟨filled.sound, filled.wrote, by omega⟩

/-- What is written at the end of a file follows what is in it. -/
theorem appended (filled : before.Filled bytes sound offset part stop after)
    (last : (bytes before.file).length = offset) (all : offset + part.length = stop) :
    bytes after.file = bytes before.file ++ part := by
  obtain ⟨-, ⟨calls, wrote⟩, within⟩ := filled
  refine ((wrote.appended last).eq_of_length_le ?_).symm
  rw [List.length_append]
  omega

end Stage.Filled

namespace Store.Takes

variable {store : Store σ} {bytes : σ → List UInt8} {sound : σ → Prop}

theorem filled_writeOn (takes : store.Takes bytes sound) {slices : List Extent} {position : Nat}
    {stage after : Stage σ π} {answer : Answer Nat} (healthy : sound stage.file)
    (some : Extent.totalSize slices ≠ 0)
    (room : position + Extent.totalSize slices < Word.half)
    (call : store.writeOn slices position stage = (answer, after)) :
    (answer.Interrupted ∧ stage.Filled bytes sound position []
        (position + Extent.totalSize slices) after) ∨
      ∃ n, answer = .done n ∧ 0 < n ∧ n ≤ Extent.totalSize slices ∧
        stage.Filled bytes sound position ((slices.flatMap Extent.toList).take n)
          (position + Extent.totalSize slices) after := by
  obtain ⟨wrote, called⟩ := called_writeOn call
  obtain ⟨stays, answered, kept, within⟩ := takes stage.file slices position healthy some room
  rw [wrote] at stays answered kept within
  rcases answered with interrupted | ⟨n, rfl, positive, most, there⟩
  · refine .inl ⟨interrupted, stays, ⟨_, called, ?_, List.nil_prefix, kept⟩, within⟩
    obtain ⟨text, rfl⟩ := interrupted
    rfl
  · refine .inr ⟨n, rfl, positive, most, stays, ⟨_, called, ?_, there, kept⟩, within⟩
    rw [List.length_take, ← Extent.totalSize_eq, Nat.min_eq_left most]
    rfl

/-- A transfer with room for it is done, and all it was to write is in the file. -/
theorem filled_transferFrom (takes : store.Takes bytes sound) (offset before : Nat)
    (slices : List Extent) (taken : Nat) (stage : Stage σ π) (healthy : sound stage.file)
    (room : offset + taken + Extent.totalSize slices < Word.half)
    (counted : before + taken + Extent.totalSize slices < Word.span) :
    (store.transferFrom offset before slices taken stage).finish = .done () ∧
      stage.Filled bytes sound (offset + taken) (slices.flatMap Extent.toList)
        (offset + taken + Extent.totalSize slices)
        (store.transferFrom offset before slices taken stage).stage := by
  -- What is left of the slices always ends at the same position, so nothing is written behind it.
  fun_induction store.transferFrom offset before slices taken stage with
  | case1 slices taken stage none =>
    rw [Extent.totalSize_eq, List.length_eq_zero_iff] at none
    rw [none]
    exact ⟨rfl, .of_untouched (.refl stage) healthy _ _⟩
  | case2 slices taken stage some overflow =>
    rw [Word.add?_eq_none_iff] at overflow
    simp only [Word.half, Word.span] at room overflow
    omega
  | case3 slices taken stage some position found after call =>
    obtain ⟨rfl, -⟩ := Word.add?_eq_some_iff.mp found
    rcases takes.filled_writeOn healthy some room call with ⟨⟨text, wrong⟩, -⟩ | ⟨n, wrong, -⟩
    · cases wrong
    · cases wrong
  | case4 slices taken stage some position found failure after call interrupted ih =>
    obtain ⟨rfl, -⟩ := Word.add?_eq_some_iff.mp found
    rcases takes.filled_writeOn healthy some room call with ⟨-, first⟩ | ⟨n, wrong, -⟩
    · obtain ⟨done, rest⟩ := ih first.sound room counted
      exact ⟨done, first.trans rest⟩
    · cases wrong
  | case5 slices taken stage some position found failure after call fatal =>
    obtain ⟨rfl, -⟩ := Word.add?_eq_some_iff.mp found
    rcases takes.filled_writeOn healthy some room call with ⟨⟨text, wrong⟩, -⟩ | ⟨n, wrong, -⟩
    · cases wrong
      exact absurd rfl fatal
    · cases wrong
  | case6 slices taken stage some position found after call =>
    obtain ⟨rfl, -⟩ := Word.add?_eq_some_iff.mp found
    rcases takes.filled_writeOn healthy some room call with
      ⟨⟨text, wrong⟩, -⟩ | ⟨n, same, positive, -⟩
    · cases wrong
    · cases same
      omega
  | case7 slices taken stage some position found n after call nonzero overflow =>
    obtain ⟨rfl, -⟩ := Word.add?_eq_some_iff.mp found
    rcases takes.filled_writeOn healthy some room call with
      ⟨⟨text, wrong⟩, -⟩ | ⟨m, same, -, most, -⟩
    · cases wrong
    · cases same
      rw [Option.isNone_iff_eq_none, Word.add?_eq_none_iff] at overflow
      omega
  | case8 slices taken stage some position found n after call nonzero fits overclaimed =>
    obtain ⟨rfl, -⟩ := Word.add?_eq_some_iff.mp found
    rcases takes.filled_writeOn healthy some room call with
      ⟨⟨text, wrong⟩, -⟩ | ⟨m, same, -, most, -⟩
    · cases wrong
    · cases same
      omega
  | case9 slices taken stage some position found n after call nonzero fits within ih =>
    obtain ⟨rfl, -⟩ := Word.add?_eq_some_iff.mp found
    rcases takes.filled_writeOn healthy some room call with
      ⟨⟨text, wrong⟩, -⟩ | ⟨m, same, -, most, first⟩
    · cases wrong
    · cases same
      have stop : offset + (taken + n) + Extent.totalSize (Extent.advance n slices) =
          offset + taken + Extent.totalSize slices := by
        rw [Extent.totalSize_advance]
        omega
      have length : ((slices.flatMap Extent.toList).take n).length = n := by
        rw [List.length_take, ← Extent.totalSize_eq]
        omega
      obtain ⟨done, rest⟩ := ih first.sound (by omega) (by rw [Extent.totalSize_advance]; omega)
      rw [stop, ← Nat.add_assoc, Extent.flatMap_advance] at rest
      have both := first.trans (by rw [length]; exact rest)
      rw [List.take_append_drop] at both
      exact ⟨done, both⟩

end Store.Takes

namespace Surroundings

variable {env : Surroundings σ π} {bytes : σ → List UInt8} {sound : σ → Prop}

theorem calm_commit (calm : env.Calm) (written committed : Nat) (batch : List Buffer)
    (stage : Stage σ π) : (env.commit written committed batch stage).crashed = false := by
  rw [(env.commit_releases written committed batch stage).1]
  exact calm_releaseAll calm batch stage

theorem calm_settleBatch (calm : env.Calm) (batch : List Buffer) (written : Nat)
    (outcome : Outcome) (writer : Writer) (stage : Stage σ π) :
    (env.settleBatch batch written outcome writer stage).outcome = outcome := by
  simp [settleBatch, calm_commit calm]

theorem filled_writeBatch (takes : env.Takes bytes sound) (calm : env.Calm) {batch : List Buffer}
    (framable : Framable batch) (writer : Writer) (stage : Stage σ π) (healthy : sound stage.file)
    (room : writer.cursor + framesSize batch < Word.half) :
    (env.writeBatch batch writer stage).outcome = .done ∧
      stage.Filled bytes sound writer.cursor (batch.flatMap Buffer.framed)
        (writer.cursor + framesSize batch) (env.writeBatch batch writer stage).stage := by
  obtain ⟨frames, encoded, joined⟩ := encode_batch framable
  have size : Extent.totalSize (frames.flatMap Frame.slices) = framesSize batch := by
    rw [Extent.totalSize_eq, joined, length_framed_flatMap framable]
  obtain ⟨done, moved⟩ := takes.filled_transferFrom writer.cursor 0 (frames.flatMap Frame.slices) 0
    stage healthy (by rw [size]; exact room)
    (by rw [size]; simp only [Word.half, Word.span] at room ⊢; omega)
  rw [joined, size] at moved
  unfold writeBatch
  simp only [encoded, Store.transfer, done]
  generalize env.transferFrom writer.cursor 0 (frames.flatMap Frame.slices) 0 stage = transfer
    at done moved
  have outcome := calm_settleBatch calm batch transfer.written .done writer
    (transfer.stage.note (.wrote transfer.written batch.length writer.cursor))
  obtain ⟨untouched, -, -⟩ := moves_settleBatch batch _ _ writer _ (by rw [outcome]; simp)
  exact ⟨outcome, (moved.trans_untouched (.note _ _)).trans_untouched untouched⟩

theorem filled_writeBatches (takes : env.Takes bytes sound) (calm : env.Calm)
    {batches : List (List Buffer)} (framable : Framable batches.flatten) (writer : Writer)
    (stage : Stage σ π) (healthy : sound stage.file)
    (room : writer.cursor + framesSize batches.flatten < Word.half) :
    (env.writeBatches batches writer stage).outcome = .done ∧
      stage.Filled bytes sound writer.cursor (batches.flatten.flatMap Buffer.framed)
        (writer.cursor + framesSize batches.flatten)
        (env.writeBatches batches writer stage).stage := by
  induction batches generalizing writer stage with
  | nil => exact ⟨rfl, .of_untouched (.refl stage) healthy _ _⟩
  | cons batch later ih =>
    rw [List.flatten_cons, framesSize_append] at room ⊢
    rw [List.flatten_cons] at framable
    obtain ⟨done, first⟩ :=
      filled_writeBatch takes calm framable.left writer stage healthy (by omega)
    obtain ⟨-, moves⟩ := env.taken_writeBatch framable.left writer stage done
    obtain ⟨all, rest⟩ := ih framable.right (env.writeBatch batch writer stage).writer
      (env.writeBatch batch writer stage).stage first.sound (by rw [moves.cursor]; omega)
    rw [moves.cursor, Nat.add_assoc, ← length_framed_flatMap framable.left] at rest
    rw [writeBatches]
    simp only [done]
    refine ⟨all, ?_⟩
    rw [List.flatMap_append, ← length_framed_flatMap framable.left]
    exact (first.mono (by rw [length_framed_flatMap framable.left]; omega)).trans rest

theorem filled_spill (takes : env.Takes bytes sound) (calm : env.Calm) {request : Request}
    (framable : Framable request.buffers) {writer : Writer} {stage : Stage σ π}
    (healthy : sound stage.file)
    (room : writer.cursor + framesSize request.buffers < Word.half) :
    (env.spill request writer stage).outcome = .done ∧
      stage.Filled bytes sound writer.cursor (request.buffers.flatMap Buffer.framed)
        (writer.cursor + framesSize request.buffers) (env.spill request writer stage).stage := by
  have all := flatten_batches writer.settings.framesPerWrite request.buffers
  have noted := Stage.Untouched.note stage
    (.spilling request.items.length request.framedSize writer.cursor)
  rw [← all] at framable room
  obtain ⟨done, filled⟩ :=
    filled_writeBatches takes calm framable writer _ (by rwa [noted.file]) room
  rw [all] at filled
  exact ⟨done, (Stage.Filled.of_untouched noted healthy _ _).trans filled⟩

/-- Items whose frames end within the machine's span have entries. -/
theorem entriesFrom?_of_room {start : Nat} {items : List Item}
    (room : start + framesSize (items.map Item.buffer) < Word.span) :
    ∃ entries, Request.entriesFrom? start items = some entries := by
  induction items generalizing start with
  | nil => exact ⟨[], rfl⟩
  | cons item rest ih =>
    rw [List.map_cons, framesSize_cons, ← Nat.add_assoc] at room
    obtain ⟨entries, known⟩ := ih room
    have inside : start + item.frameSize < Word.span :=
      Nat.lt_of_le_of_lt (Nat.le_add_right _ _) room
    exact ⟨_, entriesFrom?_cons.mpr ⟨inside, entries, known, rfl⟩⟩

theorem entries?_of_room {request : Request} {start : Nat}
    (room : start + framesSize request.buffers < Word.half) :
    ∃ entries, request.entries? start = some entries := by
  apply entriesFrom?_of_room
  simp only [Word.half, Word.span] at room ⊢
  exact Nat.lt_trans room (by decide)

theorem filled_syncOn (syncs : env.Syncs bytes sound) {stage : Stage σ π}
    (healthy : sound stage.file) (offset stop : Nat) :
    ∃ after, env.syncOn stage = (.done (), after) ∧
      stage.Filled bytes sound offset [] stop after := by
  cases synced : env.syncOn stage with
  | mk answer after =>
    obtain ⟨sync, called⟩ := Store.called_syncOn synced
    obtain ⟨done, stays, same⟩ := syncs stage.file healthy
    rw [sync] at done stays same
    cases done
    refine ⟨after, rfl, stays, ⟨_, called, rfl, List.nil_prefix, ?_⟩, ?_⟩
    · rw [same]
      exact List.take_prefix _ _
    · rw [same]
      exact Nat.le_max_left _ _

/-- A request that is written is answered with its entries, if it is not to be synced or can be. -/
theorem carryOut_of_synced {request : Request} {writer : Writer} {stage : Stage σ π}
    (entries : List Entry)
    (done : (env.spill request writer stage).outcome = .done)
    (same : (env.spill request writer stage).writer.settings = writer.settings)
    (syncs : writer.settings.syncEach = true → env.Syncs bytes sound)
    (healthy : sound (env.spill request writer stage).stage.file) (offset stop : Nat) :
    ∃ after, env.carryOut request entries writer stage =
        ⟨some (.ok entries), (env.spill request writer stage).writer, after⟩ ∧
      (env.spill request writer stage).stage.Filled bytes sound offset [] stop after := by
  by_cases each : writer.settings.syncEach = true
  · obtain ⟨last, synced, filled⟩ := filled_syncOn (syncs each) healthy offset stop
    refine ⟨last.countSuccess request, ?_, filled.trans_untouched (.countSuccess last request)⟩
    rw [← same] at each
    simp only [spill] at done each synced
    simp only [carryOut, done, each, synced, if_true, spill]
  · have never : (env.spill request writer stage).writer.settings.syncEach = false := by
      rw [same]
      simpa using each
    exact ⟨_, carryOut_of_done done never, .of_untouched (.countSuccess _ request) healthy _ _⟩

/-- A request with room for it is answered with its entries, and its frames are in the file. -/
theorem filled_process (takes : env.Takes bytes sound) (calm : env.Calm) (request : Request)
    (writer : Writer) (stage : Stage σ π) (framable : Framable request.buffers)
    (syncs : writer.settings.syncEach = true → env.Syncs bytes sound)
    (unpoisoned : writer.poisoned = false) (healthy : sound stage.file)
    (room : writer.cursor + framesSize request.buffers < Word.half) :
    ∃ entries moved after, request.entries? writer.cursor = some entries ∧
      env.process request writer stage = ⟨some (.ok entries), moved, after⟩ ∧
      writer.Moves moved (framesSize request.buffers) ∧
      stage.Filled bytes sound writer.cursor (request.buffers.flatMap Buffer.framed)
        (writer.cursor + framesSize request.buffers) after := by
  have accepted := refusal_of_framable framable
  obtain ⟨entries, known⟩ := entries?_of_room room
  obtain ⟨done, filled⟩ := filled_spill takes calm framable healthy room
  obtain ⟨-, moves⟩ := env.taken_spill accepted done
  obtain ⟨after, carried, same⟩ := carryOut_of_synced entries done moves.settings syncs filled.sound
    (writer.cursor + (request.buffers.flatMap Buffer.framed).length)
    (writer.cursor + framesSize request.buffers)
  have both := filled.trans same
  rw [List.append_nil] at both
  refine ⟨entries, _, after, known, ?_, moves, both⟩
  rw [← carried]
  simp [process, unpoisoned, accepted, known]

end Surroundings
end Spillway
