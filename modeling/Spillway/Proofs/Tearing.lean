import Spillway.Proofs.Boundary
import Spillway.Proofs.Capped
import Spillway.Proofs.Finality
import Spillway.Proofs.RoundTrip
/-!
When a file is torn. A request that fails is cut back to its whole frames, but what the pools do comes
before that: if one of them crashes while the buffers of a failed request are let go, the writer dies
and the cut is never made. A run of this kind is worked out at the end. It is the only way: a tidy
file that can always be cut is whole frames, unless the last call on it was a write that failed and
something crashed after it.
-/

namespace Spillway

variable {σ π : Type}

/-- The buffers whose frames were taken whole when an order was processed. -/
def Errand.stored (errand : Errand) : List Buffer := errand.order.request.stored errand.calls

/-- No call on the file crashed, and every cut was made. -/
def Stage.Steady (stage : Stage σ π) : Prop :=
  ∀ call ∈ stage.calls, call.hasCrashed = false ∧ call.failsToCut = false

/-- The last of some calls is a write that failed. -/
def EndsWriting (calls : List Call) : Prop :=
  ∃ front last, calls = front ++ [last] ∧ last.endsWriting = true

/-- Calls were made that wrote frames behind the end of the file. What they took whole is there; there
is only more than that if the last of them is a write that failed. -/
structure Stage.Tears (bytes : σ → List UInt8) (buffers : List Buffer) (calls : List Call)
    (before after : Stage σ π) : Prop where
  calls_eq : after.calls = before.calls ++ calls
  taken_le : takenBy calls ≤ framesSize buffers
  framable : Framable (buffers.take (wholeWithin (takenBy calls) buffers))
  content : ∃ torn, bytes after.file = bytes before.file ++
      (buffers.take (wholeWithin (takenBy calls) buffers)).flatMap Buffer.framed ++ torn ∧
    (torn ≠ [] → EndsWriting calls)

/-- The file is what it was at first, then the frames that were taken whole, and then nothing, or what
a write has left that failed before something crashed. -/
structure Session.Torn (s : Session σ π) (bytes : σ → List UInt8) (first : List UInt8) : Prop where
  calls : s.stage.calls = s.errands.flatMap Errand.calls
  framable : Framable (s.errands.flatMap Errand.stored)
  content : ∃ torn, bytes s.stage.file = first ++
      (s.errands.flatMap Errand.stored).flatMap Buffer.framed ++ torn ∧
    (torn ≠ [] → s.spooler.alive = false ∧ 0 < s.stage.crashes ∧ EndsWriting s.stage.calls)
  alive : s.spooler.alive = true → s.spooler.writer.poisoned = false ∧
    (bytes s.stage.file).length = s.spooler.writer.cursor

theorem Stage.Steady.of_suffix {before after : Stage σ π} (steady : after.Steady)
    (suffix : before.journal <:+ after.journal) : before.Steady := by
  intro call member
  exact steady call (mem_calls_iff.mpr (suffix.subset (mem_calls_iff.mp member)))

theorem Stage.Steady.of_untouched {before after : Stage σ π} (steady : after.Steady)
    (untouched : before.Untouched after) : before.Steady := by
  intro call member
  exact steady call (untouched.calls ▸ member)

/-- Frames behind those that hold all of the bytes do not count. -/
theorem take_wholeWithin_append {bytes : Nat} {buffers : List Buffer}
    (le : bytes ≤ framesSize buffers) (later : List Buffer) :
    (buffers ++ later).take (wholeWithin bytes (buffers ++ later)) =
      buffers.take (wholeWithin bytes buffers) := by
  rcases Nat.lt_or_eq_of_le le with less | rfl
  · rw [wholeWithin_append_of_lt less, List.take_append_of_le_length (wholeWithin_le _ _)]
  · have all := wholeWithin_append buffers later 0
    rw [Nat.add_zero, wholeWithin_zero, Nat.add_zero] at all
    rw [all, wholeWithin_framesSize, List.take_left, List.take_length]

namespace Stage.Tears

variable {bytes : σ → List UInt8} {buffers : List Buffer} {calls : List Call}
  {before between after : Stage σ π}

theorem of_untouched (untouched : before.Untouched after) (bytes : σ → List UInt8)
    (buffers : List Buffer) : before.Tears bytes buffers [] after where
  calls_eq := by rw [untouched.calls, List.append_nil]
  taken_le := Nat.zero_le _
  framable := by
    rw [takenBy_nil, wholeWithin_zero]
    exact fun buffer member => nomatch member
  content := ⟨[], by simp [untouched.file], fun some => absurd rfl some⟩

theorem trans_untouched (tears : before.Tears bytes buffers calls between)
    (untouched : between.Untouched after) : before.Tears bytes buffers calls after :=
  ⟨untouched.calls.trans tears.calls_eq, tears.taken_le, tears.framable,
    by rw [untouched.file]; exact tears.content⟩

theorem untouched_trans (untouched : before.Untouched between)
    (tears : between.Tears bytes buffers calls after) : before.Tears bytes buffers calls after where
  calls_eq := by rw [tears.calls_eq, untouched.calls]
  taken_le := tears.taken_le
  framable := tears.framable
  content := by
    rw [← untouched.file]
    exact tears.content

theorem append (tears : before.Tears bytes buffers calls after) (later : List Buffer) :
    before.Tears bytes (buffers ++ later) calls after where
  calls_eq := tears.calls_eq
  taken_le := by
    have le := tears.taken_le
    rw [framesSize_append]
    omega
  framable := by
    rw [take_wholeWithin_append tears.taken_le]
    exact tears.framable
  content := by
    rw [take_wholeWithin_append tears.taken_le]
    exact tears.content

/-- Behind frames that are written whole. -/
theorem behind {front : List Buffer} {first : List Call} (framable : Framable front)
    (called : between.calls = before.calls ++ first) (taken : takenBy first = framesSize front)
    (written : bytes between.file = bytes before.file ++ front.flatMap Buffer.framed)
    (tears : between.Tears bytes buffers calls after) :
    before.Tears bytes (front ++ buffers) (first ++ calls) after where
  calls_eq := by rw [tears.calls_eq, called, List.append_assoc]
  taken_le := by
    have le := tears.taken_le
    rw [takenBy_append, framesSize_append]
    omega
  framable := by
    rw [takenBy_append, taken, wholeWithin_append, List.take_length_add_append]
    exact framable.append tears.framable
  content := by
    obtain ⟨torn, content, ends⟩ := tears.content
    refine ⟨torn, ?_, ?_⟩
    · rw [content, written, takenBy_append, taken, wholeWithin_append, List.take_length_add_append,
        List.flatMap_append]
      simp only [List.append_assoc]
    · intro some
      obtain ⟨rest, last, same, fails⟩ := ends some
      exact ⟨first ++ rest, last, by rw [same, List.append_assoc], fails⟩

end Stage.Tears

theorem Session.Torn.whole {bytes : σ → List UInt8} {s : Session σ π}
    {first : List UInt8} (torn : s.Torn bytes first) (lives : s.spooler.alive = true) :
    bytes s.stage.file = first ++ (s.errands.flatMap Errand.stored).flatMap Buffer.framed := by
  obtain ⟨-, -, ⟨rest, content, ends⟩, -⟩ := torn
  have none : rest = [] := by
    by_cases none : rest = []
    · exact none
    · rw [(ends none).1] at lives
      cases lives
  rw [content, none, List.append_nil]

/-- Fewer bytes than a header are not a frame. -/
theorem eq_nil_of_framesSize_lt {buffers : List Buffer} (few : framesSize buffers < Header.width) :
    buffers = [] := by
  cases buffers with
  | nil => rfl
  | cons buffer rest =>
    rw [framesSize_cons, Buffer.frameSize] at few
    omega

namespace Surroundings

variable {env : Surroundings σ π} {settings : Settings} {file : σ} {pool : π}
  {bytes : σ → List UInt8} {request : Request} {writer : Writer} {stage : Stage σ π}

/-- A transfer of something that ends within 64 bits only crashes with a call on the file. -/
theorem calm_transferFrom (writes : env.Writes bytes) (offset before : Nat) (slices : List Extent)
    (taken : Nat) (stage : Stage σ π)
    (room : offset + taken + Extent.totalSize slices < Word.span)
    (counted : before + taken + Extent.totalSize slices < Word.span)
    (steady : (env.transferFrom offset before slices taken stage).stage.Steady) :
    (env.transferFrom offset before slices taken stage).finish ≠ .crashed := by
  fun_induction env.transferFrom offset before slices taken stage with
  | case1 slices taken stage none => simp
  | case2 slices taken stage some overflow =>
    rw [Word.add?_eq_none_iff] at overflow
    omega
  | case3 slices taken stage some position found after call =>
    have crash := (steady (.write position slices .crashed)
      (by rw [(Store.called_writeOn call).2]; simp)).1
    cases crash
  | case4 slices taken stage some position found failure after call interrupted ih =>
    exact ih room counted steady
  | case5 slices taken stage some position found failure after call fatal => simp
  | case6 slices taken stage some position found after call => simp
  | case7 slices taken stage some position found n after call nonzero overflow =>
    have most := (writes.done _ _ _ _ _ (Store.called_writeOn call).1).1
    rw [Option.isNone_iff_eq_none, Word.add?_eq_none_iff] at overflow
    omega
  | case8 slices taken stage some position found n after call nonzero within overclaimed =>
    have most := (writes.done _ _ _ _ _ (Store.called_writeOn call).1).1
    omega
  | case9 slices taken stage some position found n after call nonzero within most ih =>
    have left := Extent.totalSize_advance n slices
    exact ih (by omega) (by omega) steady

/-- A transfer of a batch at the end of the file writes it whole, or leaves it torn by a write that
failed. -/
theorem tears_transferFrom (tidy : env.Tidy bytes) {batch : List Buffer} {slices : List Extent}
    (framable : Framable batch)
    (joined : slices.flatMap Extent.toList = batch.flatMap Buffer.framed)
    (last : (bytes stage.file).length = writer.cursor)
    (room : writer.cursor + framesSize batch < Word.span)
    (steady : (env.transferFrom writer.cursor 0 slices 0 stage).stage.Steady) :
    ∃ calls, stage.Tears bytes batch calls
      (env.transferFrom writer.cursor 0 slices 0 stage).stage := by
  have all := length_framed_flatMap framable
  have size : Extent.totalSize slices = framesSize batch := by
    rw [Extent.totalSize_eq, joined, all]
  have calm := calm_transferFrom tidy.toWrites writer.cursor 0 slices 0 stage (by omega) (by omega)
    steady
  have length := length_transferFrom tidy writer.cursor 0 slices 0 stage
  obtain ⟨n, calls, -, writing⟩ :=
    tidy.toWrites.writing_transferFrom writer.cursor 0 slices 0 stage calm
  generalize env.transferFrom writer.cursor 0 slices 0 stage = transfer at calm length writing ⊢
  rw [joined] at writing
  have counted := writing.wrote.taken_eq
  rw [List.length_take, Nat.min_eq_left writing.le_length] at counted
  have appended := writing.wrote.appended last
  refine ⟨calls, writing.wrote.calls_eq, by rw [counted, ← all]; exact writing.le_length,
    framable.take _, ?_⟩
  rw [counted]
  cases finish : transfer.finish with
  | crashed => exact absurd finish calm
  | done value =>
    obtain ⟨whole, -⟩ := writing.of_done finish
    have within := length finish
    rw [whole, List.take_length] at appended
    refine ⟨[], ?_, fun some => absurd rfl some⟩
    rw [whole, all, wholeWithin_framesSize, List.take_length, List.append_nil]
    refine (appended.eq_of_length_le ?_).symm
    rw [List.length_append, all]
    omega
  | failed failure =>
    obtain ⟨-, front, ended, same, -, ends⟩ := writing.of_failed ⟨failure, finish⟩
    obtain ⟨torn, content⟩ :=
      ((List.prefix_append_right_inj _).mpr (framed_wholeWithin framable n)).trans appended
    exact ⟨torn, content.symm, fun _ => ⟨front, ended, same, ends⟩⟩

theorem tears_writeBatch (tidy : env.Tidy bytes) {batch : List Buffer}
    (framable : Framable batch) (last : (bytes stage.file).length = writer.cursor)
    (room : writer.cursor + framesSize batch < Word.span)
    (steady : (env.writeBatch batch writer stage).stage.Steady) :
    ∃ calls, stage.Tears bytes batch calls (env.writeBatch batch writer stage).stage := by
  obtain ⟨frames, encoded, joined⟩ := encode_batch framable
  have tears := tears_transferFrom tidy framable joined last room
  unfold writeBatch at steady ⊢
  rw [encoded] at steady ⊢
  simp only [Store.transfer] at steady ⊢
  generalize env.transferFrom writer.cursor 0 (frames.flatMap Frame.slices) 0 stage = transfer
    at tears steady ⊢
  have noted := Stage.Untouched.note transfer.stage
    (.wrote transfer.written batch.length writer.cursor)
  -- Whatever becomes of the batch after the transfer, the file is not called any more.
  have settled : ∀ after, transfer.stage.Untouched after → after.Steady →
      ∃ calls, stage.Tears bytes batch calls after := by
    intro after untouched steady
    obtain ⟨calls, torn⟩ := tears (steady.of_untouched untouched)
    exact ⟨calls, torn.trans_untouched untouched⟩
  cases finish : transfer.finish with
  | crashed =>
    simp only [finish] at steady ⊢
    exact settled _ (.releaseAll env.toPool batch transfer.stage) steady
  | failed failure =>
    simp only [finish] at steady ⊢
    exact settled _ (noted.trans (untouched_settleBatch batch _ _ writer _)) steady
  | done value =>
    simp only [finish] at steady ⊢
    exact settled _ (noted.trans (untouched_settleBatch batch _ _ writer _)) steady

/-- A batch that is done is in the file, and nothing behind it. -/
theorem bytes_writeBatch_done (tidy : env.Tidy bytes) {batch : List Buffer}
    (framable : Framable batch) (last : (bytes stage.file).length = writer.cursor)
    (done : (env.writeBatch batch writer stage).outcome = .done) :
    ∃ calls, (env.writeBatch batch writer stage).stage.calls = stage.calls ++ calls ∧
      takenBy calls = framesSize batch ∧
      bytes (env.writeBatch batch writer stage).stage.file =
        bytes stage.file ++ batch.flatMap Buffer.framed ∧
      writer.Moves (env.writeBatch batch writer stage).writer (framesSize batch) := by
  obtain ⟨n, calls, writing, moves⟩ :=
    writing_writeBatch tidy.toWrites framable writer stage (by rw [done]; simp)
  obtain ⟨whole, -⟩ := writing.of_done done
  have all := length_framed_flatMap framable
  have wrote := writing.wrote
  rw [whole, List.take_length] at wrote
  rw [whole, all, wholeWithin_framesSize, List.take_length] at moves
  refine ⟨calls, wrote.calls_eq, by rw [wrote.taken_eq, all], ?_, moves⟩
  have within := length_writeBatch tidy framable writer stage done
  refine ((wrote.appended last).eq_of_length_le ?_).symm
  rw [List.length_append, all]
  omega

theorem tears_writeBatches (tidy : env.Tidy bytes) {batches : List (List Buffer)}
    (framable : Framable batches.flatten) (last : (bytes stage.file).length = writer.cursor)
    (room : writer.cursor + framesSize batches.flatten < Word.span)
    (steady : (env.writeBatches batches writer stage).stage.Steady) :
    ∃ calls, stage.Tears bytes batches.flatten calls
      (env.writeBatches batches writer stage).stage := by
  fun_induction env.writeBatches batches writer stage with
  | case1 writer stage => exact ⟨[], .of_untouched (.refl stage) bytes _⟩
  | case2 batch later writer stage work done ih =>
    rw [List.flatten_cons] at framable room ⊢
    rw [framesSize_append] at room
    obtain ⟨first, called, taken, written, moves⟩ :=
      bytes_writeBatch_done tidy framable.left last done
    obtain ⟨calls, tears⟩ := ih framable.right
      (by rw [written, List.length_append, last, length_framed_flatMap framable.left, moves.cursor])
      (by rw [moves.cursor]; omega) steady
    exact ⟨first ++ calls, .behind framable.left called taken written tears⟩
  | case3 batch later writer stage work dropped fails =>
    rw [List.flatten_cons] at framable room ⊢
    rw [framesSize_append] at room
    have untouched := Stage.Untouched.releaseAll env.toPool later.flatten work.stage
    obtain ⟨calls, tears⟩ := tears_writeBatch tidy framable.left last (by omega)
      (steady.of_untouched untouched)
    exact ⟨calls, (tears.append later.flatten).trans_untouched untouched⟩

theorem tears_spill (tidy : env.Tidy bytes) (accepted : request.refusal? = none)
    (last : (bytes stage.file).length = writer.cursor)
    (room : writer.cursor + framesSize request.buffers < Word.span)
    (steady : (env.spill request writer stage).stage.Steady) :
    ∃ calls, stage.Tears bytes request.buffers calls (env.spill request writer stage).stage := by
  have all := flatten_batches writer.settings.framesPerWrite request.buffers
  have noted := Stage.Untouched.note stage
    (.spilling request.items.length request.framedSize writer.cursor)
  have written : (env.writeBatches (batches writer.settings.framesPerWrite request.buffers) writer
      (stage.note (.spilling request.items.length request.framedSize writer.cursor))).stage.Steady :=
    steady
  obtain ⟨calls, tears⟩ := tears_writeBatches tidy
    (by rw [all]; exact framable_of_refusal accepted) (by rw [noted.file]; exact last)
    (by rw [all]; exact room) written
  rw [all] at tears
  exact ⟨calls, .untouched_trans noted tears⟩

/-- Entries whose offsets are known have their frames within 64 bits. -/
theorem room_of_entriesFrom {start : Nat} {items : List Item} (some : items ≠ [])
    {entries : List Entry} (known : Request.entriesFrom? start items = .some entries) :
    start + framesSize (items.map Item.buffer) < Word.span := by
  induction items generalizing start entries with
  | nil => exact absurd rfl some
  | cons item rest ih =>
    obtain ⟨inside, later, known, -⟩ := entriesFrom?_cons.mp known
    have size : item.frameSize = item.buffer.frameSize := rfl
    rw [List.map_cons, framesSize_cons]
    by_cases none : rest = []
    · rw [none, List.map_nil, framesSize_nil]
      omega
    · have room := ih none known
      omega

/-- A request that is carried out and not answered, though no call crashed, has left the file as the
writing left it: neither the cut nor the sync is made. -/
theorem carryOut_of_unanswered {entries : List Entry}
    (unanswered : (env.carryOut request entries writer stage).reply? = none)
    (steady : (env.carryOut request entries writer stage).stage.Steady) :
    (env.carryOut request entries writer stage).stage = (env.spill request writer stage).stage := by
  change _ = (env.writeRequest request writer
    (stage.note (.spilling request.items.length request.framedSize writer.cursor))).stage
  simp only [carryOut] at unanswered steady ⊢
  generalize env.writeRequest request writer
    (stage.note (.spilling request.items.length request.framedSize writer.cursor)) = work
    at unanswered steady ⊢
  cases outcome : work.outcome with
  | crashed => rfl
  | failed error =>
    simp only [outcome, repair] at unanswered steady
    generalize work.stage.countFailure request writer.cursor (work.writer.cursor - writer.cursor)
      error = between at unanswered steady
    cases truncated : env.truncateOn work.writer.cursor between with
    | mk answer after =>
      cases answer with
      | crashed =>
        simp only [truncated] at steady
        have crash := (steady (.truncate work.writer.cursor .crashed)
          (by rw [(Store.called_truncateOn truncated).2]; simp)).1
        cases crash
      | failed failure => simp [truncated] at unanswered
      | done value => simp [truncated] at unanswered
  | done =>
    simp only [outcome] at unanswered steady
    by_cases each : work.writer.settings.syncEach = true
    · rw [if_pos each] at unanswered steady
      cases synced : env.syncOn work.stage with
      | mk answer after =>
        cases answer with
        | crashed =>
          simp only [synced] at steady
          have crash := (steady (.sync .crashed)
            (by rw [(Store.called_syncOn synced).2]; simp)).1
          cases crash
        | failed failure => simp [synced] at unanswered
        | done value => simp [synced] at unanswered
    · rw [if_neg each] at unanswered
      cases unanswered

theorem tears_refuse (error : SpillError) :
    stage.Tears bytes request.buffers [] (env.refuse request error writer stage).stage :=
  .of_untouched (.releaseAll env.toPool request.buffers stage) bytes _

theorem tears_of_unanswered (tidy : env.Tidy bytes) (some : request.items ≠ [])
    (last : (bytes stage.file).length = writer.cursor)
    (unanswered : (env.process request writer stage).reply? = none)
    (steady : (env.process request writer stage).stage.Steady) :
    ∃ calls, stage.Tears bytes request.buffers calls (env.process request writer stage).stage := by
  unfold process at unanswered steady ⊢
  by_cases poisoned : writer.poisoned = true
  · rw [if_pos poisoned]
    exact ⟨[], tears_refuse .poisoned⟩
  · rw [if_neg poisoned] at unanswered steady ⊢
    cases accepted : request.refusal? with
    | some error => exact ⟨[], tears_refuse (.frame error)⟩
    | none =>
      rw [accepted] at unanswered steady
      cases known : request.entries? writer.cursor with
      | none =>
        have crashed : stage.Untouched stage.crash :=
          ⟨rfl, by simp [Stage.crash, Stage.calls, Stage.events, Stage.record]⟩
        exact ⟨[], .of_untouched (crashed.trans (.releaseAll env.toPool _ _)) bytes _⟩
      | some entries =>
        simp only [known] at unanswered steady ⊢
        have same := carryOut_of_unanswered unanswered steady
        rw [same] at steady ⊢
        exact tears_spill tidy accepted last (room_of_entriesFrom some known) steady

/-- A writer whose cuts are all made is not poisoned. -/
theorem sound_of_steady (sound : writer.poisoned = false)
    (steady : (env.process request writer stage).stage.Steady) :
    (env.process request writer stage).writer.poisoned = false := by
  have cuts := (env.marks_process request writer stage).exists_iff.1
  cases poisoned : (env.process request writer stage).writer.poisoned with
  | false => rfl
  | true =>
    obtain ⟨length, failure, member⟩ :=
      (exists_poisons_iff _).mp (cuts.mpr (.inl ⟨sound, poisoned⟩))
    cases (steady _ member).2

theorem torn_hand {first : List UInt8} {s : Session σ π} (request : Request)
    (torn : s.Torn bytes first) : (env.hand request s).Torn bytes first := by
  have stands : s.Stands (env.hand request s) := stands_hand request s
  obtain ⟨calls, framable, ⟨rest, content, ends⟩, alive⟩ := torn
  refine ⟨stands.untouched.calls.trans calls, framable, ⟨rest, ?_, ?_⟩, ?_⟩
  · rw [stands.untouched.file]
    exact content
  · intro some
    obtain ⟨dead, crashes, last⟩ := ends some
    refine ⟨?_, ?_, by rw [stands.untouched.calls]; exact last⟩
    · cases lives : (env.hand request s).spooler.alive with
      | false => rfl
      | true => rw [stands.alive lives] at dead; cases dead
    · exact Nat.lt_of_lt_of_le crashes (crashes_le_of_suffix (env.suffix_hand request s))
  · intro lives
    rw [stands.writer, stands.untouched.file]
    exact alive (stands.alive lives)

/-- A request that is answered leaves its whole frames behind those of the ones before it. -/
theorem torn_work_of_reply (tidy : env.Tidy bytes) {first : List UInt8} {s : Session σ π}
    {order : Order} {later : List Order} {reply : Reply} {after : Stage σ π}
    (torn : s.Torn bytes first) (lives : s.spooler.alive = true)
    (queued : s.spooler.queue = order :: later)
    (processed : env.process order.request s.spooler.writer s.stage = ⟨some reply, writer, after⟩)
    (steady : (env.work s).stage.Steady) : (env.work s).Torn bytes first := by
  have content := torn.whole lives
  obtain ⟨calls, framable, -, alive⟩ := torn
  obtain ⟨sound, last⟩ := alive lives
  rw [env.work_of_reply queued processed] at steady ⊢
  have replied := Stage.Untouched.reply after order.ticket reply
  have before : (env.process order.request s.spooler.writer s.stage).stage.Steady := by
    rw [processed]
    exact steady.of_untouched replied
  have stays := sound_of_steady sound before
  obtain ⟨new, called, moves, frames, same⟩ :=
    added_process tidy last (by rw [processed]; rfl) stays
  rw [processed] at called moves frames stays
  have told : (after.reply order.ticket reply).calls = s.stage.calls ++ new :=
    replied.calls.trans called
  have stored := order.request.framable_kept new
  rw [same] at stored
  refine ⟨by simp [told, calls], ?_, ⟨[], ?_, fun some => absurd rfl some⟩, fun _ => ⟨stays, ?_⟩⟩
  · rw [List.flatMap_append]
    exact framable.append (by simpa [told, Errand.stored] using stored)
  · rw [replied.file, frames, content, same]
    simp [told, Errand.stored]
  · rw [replied.file, frames, List.length_append, last,
      length_framed_flatMap (order.request.framable_kept new)]
    exact moves.cursor.symm

theorem torn_work_of_death (tidy : env.Tidy bytes) {first : List UInt8} {s : Session σ π}
    {order : Order} {later : List Order} {after : Stage σ π} (torn : s.Torn bytes first)
    (lives : s.spooler.alive = true) (some : order.request.items ≠ [])
    (queued : s.spooler.queue = order :: later)
    (processed : env.process order.request s.spooler.writer s.stage = ⟨none, writer, after⟩)
    (steady : (env.work s).stage.Steady) : (env.work s).Torn bytes first := by
  have content := torn.whole lives
  obtain ⟨calls, framable, -, alive⟩ := torn
  rw [env.work_of_death queued processed] at steady ⊢
  have dropped := (Stage.Untouched.reply after order.ticket (.error .closed)).trans
    (untouched_abandon env later _)
  have unanswered : (env.process order.request s.spooler.writer s.stage).reply? = .none := by
    rw [processed]
  obtain ⟨new, tears⟩ := tears_of_unanswered tidy some (alive lives).2 unanswered
    (by rw [processed]; exact steady.of_untouched dropped)
  have crashes : s.stage.crashes < after.crashes := by
    have effect := env.effect_process order.request s.spooler.writer s.stage
    rw [processed] at effect
    exact effect.crashes_lt rfl
  rw [processed] at tears
  obtain ⟨called, -, stored, rest, frames, ends⟩ := tears.trans_untouched dropped
  refine ⟨by simp [called, calls], ?_, ⟨rest, ?_, ?_⟩, fun lives => absurd lives (by simp)⟩
  · rw [List.flatMap_append]
    exact framable.append (by simpa [called, Errand.stored, Request.stored] using stored)
  · rw [frames, content]
    simp [called, Errand.stored, Request.stored]
  · intro some
    obtain ⟨front, call, same, fails⟩ := ends some
    have more := crashes_le_of_suffix
      (env.suffix_abandon later (after.reply order.ticket (.error .closed)))
    rw [crashes_reply] at more
    refine ⟨rfl, Nat.lt_of_lt_of_le (Nat.zero_lt_of_lt crashes) more, s.stage.calls ++ front, call,
      ?_, fails⟩
    rw [called, same, List.append_assoc]

theorem torn_work (tidy : env.Tidy bytes) {first : List UInt8} {s : Session σ π}
    (orderly : s.Orderly) (steady : (env.work s).stage.Steady) (torn : s.Torn bytes first) :
    (env.work s).Torn bytes first := by
  cases queued : s.spooler.queue with
  | nil =>
    have same : env.work s = s := by simp [work, env.step_nil queued, queued]
    rwa [same]
  | cons order later =>
    have lives := orderly.alive_of_queue (by simp [queued])
    have some := (orderly.submitted_of_queue (by rw [queued]; exact List.mem_cons_self)).2
    cases processed : env.process order.request s.spooler.writer s.stage with
    | mk reply? writer after =>
      cases reply? with
      | some reply => exact torn_work_of_reply tidy torn lives queued processed steady
      | none => exact torn_work_of_death tidy torn lives some queued processed steady

theorem Reaches.torn (tidy : env.Tidy bytes)
    (honest : env.length file = .done (bytes file).length) {s : Session σ π}
    (reached : env.Reaches settings file pool s) : s.stage.Steady → s.Torn bytes (bytes file) := by
  apply reached.rule
  · intro spooler stage started _
    obtain ⟨cursor, length, rfl, rfl⟩ := spooler_start started
    have same : (bytes file).length = cursor := by
      have told := honest.symm.trans length
      simpa using told
    exact ⟨rfl, fun buffer member => (by cases member),
      ⟨[], by simp [Session.fresh, Stage.note, Stage.record, Stage.start],
        fun some => absurd rfl some⟩, fun _ => ⟨rfl, same⟩⟩
  · intro s request _ torn steady
    exact torn_hand request (torn (steady.of_untouched (stands_hand request s).untouched))
  · intro s reached torn steady
    have before := steady.of_suffix (env.suffix_step s.spooler s.stage)
    exact torn_work tidy reached.orderly steady (torn before)
  · intro s notice _ torn steady
    have noted : s.stage.Untouched (s.note notice).stage := .note s.stage notice
    obtain ⟨calls, framable, ⟨rest, content, ends⟩, alive⟩ := torn (steady.of_untouched noted)
    refine ⟨noted.calls.trans calls, framable, ⟨rest, content, fun some => ?_⟩, alive⟩
    obtain ⟨dead, crashes, last⟩ := ends some
    exact ⟨dead, crashes, by rw [noted.calls]; exact last⟩
  · intro s _ torn steady
    obtain ⟨calls, framable, ⟨rest, content, ends⟩, -⟩ := torn steady
    exact ⟨calls, framable, ⟨rest, content, fun some => ⟨rfl, (ends some).2⟩⟩,
      fun lives => absurd lives (by simp [Session.shut])⟩

/-- A tidy file whose first contents are whole frames, on which no call crashes and every cut is made,
is in every session whole frames: those it had, and of every request those that were taken whole, and
they are scanned from the beginning to the end. The exception is a session in which something has
crashed and the last call on the file is a write that failed: what that write left is still behind
the whole frames, and the writer is dead. -/
theorem torn_only_by_a_crash_before_the_cut (tidy : env.Tidy bytes)
    (honest : env.length file = .done (bytes file).length) {before : List Buffer}
    (framable : Framable before) (whole : bytes file = before.flatMap Buffer.framed)
    {s : Session σ π} (reached : env.Reaches settings file pool s) (steady : s.stage.Steady) :
    let frames := before ++ s.errands.flatMap Errand.stored
    ∃ torn, bytes s.stage.file = frames.flatMap Buffer.framed ++ torn ∧
      (torn ≠ [] → s.spooler.alive = false ∧ 0 < s.stage.crashes ∧ EndsWriting s.stage.calls) ∧
      (torn = [] → ∀ (ρ : Type) (source : Source ρ) (stands : ρ → Nat → Prop),
        source.Plays (bytes s.stage.file) stands →
          ∀ state, stands state 0 → source.Scans state frames) := by
  intro frames
  obtain ⟨-, stored, ⟨torn, content, ends⟩, -⟩ := reached.torn tidy honest steady
  rw [whole, ← List.flatMap_append] at content
  refine ⟨torn, content, ends, ?_⟩
  intro none ρ source stands plays state here
  rw [none, List.append_nil] at content
  exact plays.scans_framed (framable.append stored) here (Nat.zero_le _) content

/-- A file in memory that ends after five bytes, and pools that crash as planned. -/
def fiveBytes : Surroundings Memory Tally := ⟨Memory.store.capped 5 16, Tally.pool⟩

/-- A frame of eleven bytes is begun in a file with room for five, and the pool that its buffer goes
back to crashes before the file is cut. -/
theorem process_fiveBytes :
    let opened := (fiveBytes.start .standard (.start ⟨.empty, false⟩ ⟨0, some 0⟩)).2
    ∃ writer after first second, fiveBytes.process ⟨[threeBytes]⟩ (.start .standard 0) opened =
        ⟨none, writer, after⟩ ∧
      after.file.contents.toList = threeBytes.buffer.framed.take 5 ∧ after.file.broken = false ∧
      after.calls = [.write 0 first (.done 5), .write 5 second (.failed (.ofCause .storageFull))] ∧
      after.crashes = 1 := by
  intro opened
  have spilt : ∃ writer after first second, fiveBytes.spill ⟨[threeBytes]⟩ (.start .standard 0) opened =
        ⟨.crashed, writer, after⟩ ∧
      after.file.contents.toList = threeBytes.buffer.framed.take 5 ∧ after.file.broken = false ∧
      after.calls = [.write 0 first (.done 5), .write 5 second (.failed (.ofCause .storageFull))] ∧
      after.crashes = 1 := by
    show ∃ writer after first second, fiveBytes.writeBatches (batches 512 [threeBytes.buffer]) _
      (opened.note (.spilling 1 11 0)) = _ ∧ _
    rw [batches_of_le (by simp) (by decide), writeBatches, writeBatch]
    simp only [encode_threeBytes]
    rw [Store.transfer, Store.transferFrom_took (n := 5) (by decide) (by decide) (by decide)
      (by decide) rfl, Store.transferFrom_failed (by decide) (by decide) (by decide) rfl]
    exact ⟨_, _, _, _, rfl, by decide, rfl, rfl, rfl⟩
  obtain ⟨writer, after, first, second, spilt, rest⟩ := spilt
  refine ⟨writer, after, first, second, ?_, rest⟩
  show fiveBytes.carryOut ⟨[threeBytes]⟩ [⟨7, 0, 0⟩] (.start .standard 0) opened = _
  rw [carryOut_of_crashed (by rw [spilt]), spilt]

theorem close_fiveBytes :
    let opened := (fiveBytes.start .standard (.start ⟨.empty, false⟩ ⟨0, some 0⟩)).2
    let s := fiveBytes.finish .close
      (fiveBytes.run [.submit ⟨[threeBytes]⟩] (.fresh ⟨.start .standard 0, true, []⟩ opened))
    s.stage.file.contents.toList = threeBytes.buffer.framed.take 5 ∧ s.stage.file.broken = false ∧
      s.stage.Steady ∧ EndsWriting s.stage.calls ∧ s.stage.crashes = 1 := by
  intro opened s
  obtain ⟨writer, after, first, second, processed, contents, healthy, calls, crashes⟩ :=
    process_fiveBytes
  have stepped : fiveBytes.step ⟨.start .standard 0, true, [⟨0, ⟨[threeBytes]⟩⟩]⟩ opened =
      (⟨writer, false, []⟩, after.reply 0 (.error .closed)) := by
    simp only [step]
    rw [processed]
    rfl
  have stage : s.stage = after.reply 0 (.error .closed) := by
    show (fiveBytes.close ⟨.start .standard 0, true, [⟨0, ⟨[threeBytes]⟩⟩]⟩ opened).2 = _
    have settled : fiveBytes.settle ⟨.start .standard 0, true, [⟨0, ⟨[threeBytes]⟩⟩]⟩ opened =
        (⟨writer, false, []⟩, after.reply 0 (.error .closed)) := by
      rw [settle, ← stepped]
      rfl
    simp only [close, settled, Bool.false_eq_true, if_false]
  have replied := Stage.Untouched.reply after 0 (.error .closed)
  rw [stage, replied.file, replied.calls, crashes_reply]
  refine ⟨contents, healthy, ?_, ⟨[.write 0 first (.done 5)], _, calls, rfl⟩, crashes⟩
  intro call member
  rw [replied.calls, calls] at member
  simp only [List.mem_cons, List.not_mem_nil, or_false] at member
  rcases member with rfl | rfl <;> exact ⟨rfl, rfl⟩

/-- A recycler that crashes tears the file. It is tidy, and could have been cut at any time; nothing but
the one pool crashed. The file has five bytes, which begin a frame and are no whole frames, and a
scan of it fails. -/
theorem recycler_crash_tears_the_file :
    let opened := (fiveBytes.start .standard (.start ⟨.empty, false⟩ ⟨0, some 0⟩)).2
    let s := fiveBytes.finish .close
      (fiveBytes.run [.submit ⟨[threeBytes]⟩] (.fresh ⟨.start .standard 0, true, []⟩ opened))
    fiveBytes.Tidy (fun memory => memory.contents.toList) ∧
      (∀ length < Word.half, (fiveBytes.truncate s.stage.file length).1 = .done ()) ∧
      s.stage.Steady ∧ s.stage.crashes = 1 ∧
      s.stage.file.contents.toList = threeBytes.buffer.framed.take 5 ∧
      (¬ ∃ buffers, Framable buffers ∧
        s.stage.file.contents.toList = buffers.flatMap Buffer.framed) ∧
      ∀ segment owner, ((Tape.sourceKeeping false).frame segment owner
        (.ofExtent s.stage.file.contents Word.span)).1.answer = .error .truncatedHeader := by
  intro opened s
  have closed : s.stage.file.contents.toList = threeBytes.buffer.framed.take 5 ∧
      s.stage.file.broken = false ∧ s.stage.Steady ∧ EndsWriting s.stage.calls ∧
      s.stage.crashes = 1 := close_fiveBytes
  obtain ⟨contents, healthy, steady, -, crashes⟩ := closed
  have five : s.stage.file.contents.toList.length = 5 := by
    rw [contents]
    decide
  refine ⟨Memory.tidy.capped 5 16, ?_, steady, crashes, contents, ?_, ?_⟩
  · intro length inside
    simp [fiveBytes, Store.capped, Memory.store, Memory.truncate, healthy, Nat.not_le.mpr inside]
  · rintro ⟨buffers, framable, whole⟩
    have size := length_framed_flatMap framable
    rw [← whole, five] at size
    have none : buffers = [] := eq_nil_of_framesSize_lt (by rw [← size]; decide)
    rw [none] at size
    cases size
  · intro segment owner
    have inside : s.stage.file.contents.size < Word.span := by
      rw [← Extent.length_toList, five]
      decide
    exact (Tape.plays_carries false _).frame_short (Tape.carries_ofExtent inside) (by omega)
      (by rw [five]; decide) segment owner

/-- That file is torn: what the last write left is behind no frames at all, and the writer is dead. -/
theorem fiveBytes_is_torn :
    let opened := (fiveBytes.start .standard (.start ⟨.empty, false⟩ ⟨0, some 0⟩)).2
    let s := fiveBytes.finish .close
      (fiveBytes.run [.submit ⟨[threeBytes]⟩] (.fresh ⟨.start .standard 0, true, []⟩ opened))
    s.stage.Steady ∧ s.errands.flatMap Errand.stored = [] ∧
      s.stage.file.contents.toList = threeBytes.buffer.framed.take 5 ∧
      s.spooler.alive = false ∧ 0 < s.stage.crashes ∧ EndsWriting s.stage.calls := by
  intro opened s
  have closed : s.stage.file.contents.toList = threeBytes.buffer.framed.take 5 ∧
      s.stage.file.broken = false ∧ s.stage.Steady ∧ EndsWriting s.stage.calls ∧
      s.stage.crashes = 1 := close_fiveBytes
  obtain ⟨contents, -, steady, -, -⟩ := closed
  have reached : fiveBytes.Reaches .standard ⟨.empty, false⟩ ⟨0, some 0⟩ s :=
    .finish .close (.act (.submit _) (.start rfl))
  have honest : fiveBytes.length ⟨.empty, false⟩ = .done Extent.empty.toList.length := rfl
  have framable : Framable [] := by simp [Framable]
  have whole : Extent.empty.toList = ([] : List Buffer).flatMap Buffer.framed := rfl
  have tidy : fiveBytes.Tidy fun memory => memory.contents.toList := Memory.tidy.capped 5 16
  have stored := (reached.torn tidy honest steady).framable
  obtain ⟨torn, content, ends, -⟩ :=
    torn_only_by_a_crash_before_the_cut tidy honest framable whole reached steady
  rw [List.nil_append, contents] at content
  have five : (threeBytes.buffer.framed.take 5).length = 5 := by decide
  have few : framesSize (s.errands.flatMap Errand.stored) ≤ 5 := by
    have size := congrArg List.length content
    rw [five, List.length_append, length_framed_flatMap stored] at size
    omega
  have none : s.errands.flatMap Errand.stored = [] :=
    eq_nil_of_framesSize_lt (Nat.lt_of_le_of_lt few (by decide))
  -- There are five bytes, so something is torn.
  have some : torn ≠ [] := by
    rintro rfl
    rw [none] at content
    rw [content] at five
    cases five
  exact ⟨steady, none, contents, ends some⟩

end Surroundings
end Spillway
