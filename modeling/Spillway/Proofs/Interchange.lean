import Spillway.Proofs.Appending
import Spillway.Proofs.Capped
import Spillway.Proofs.Finality
/-!
A file on a disk in place of one in memory. Both append, and a spooler makes the same of them as long as
no write gathers more slices than a disk takes. A request with such a write is refused by the disk,
which stays as it is, while its frames go to a file in memory. Settings with at most one slice more
than a disk takes keep every request from that, whatever its size.
-/

namespace Spillway

variable {π : Type}

/-- The bytes of a file in memory, unless a call on it has crashed. -/
def Memory.view (memory : Memory) : Option (List UInt8) :=
  if memory.broken then none else some memory.contents.toList

/-- The bytes of a file on a disk. -/
def Disk.view (disk : Disk) : Option (List UInt8) := some disk.contents.toList

namespace Surroundings

def memory (pool : Pool π) : Surroundings Memory π := ⟨Memory.store, pool⟩

def disk (pool : Pool π) : Surroundings Disk π := ⟨Disk.store, pool⟩

end Surroundings

theorem Memory.view_eq_some_iff {memory : Memory} {content : List UInt8} :
    memory.view = some content ↔ memory.broken = false ∧ memory.contents.toList = content := by
  cases broken : memory.broken <;> simp [view, broken]

theorem Memory.appends (most : Nat) : Memory.store.Appends Memory.view most where
  length memory content here := by
    obtain ⟨healthy, rfl⟩ := view_eq_some_iff.mp here
    simp [store, healthy]
  write memory content slices here _ _ room := by
    obtain ⟨healthy, rfl⟩ := view_eq_some_iff.mp here
    obtain ⟨after, written, stays, joined⟩ := write_at_end healthy rfl room
    exact ⟨after, written, view_eq_some_iff.mpr ⟨stays, joined⟩⟩
  sync memory content here := ⟨memory, rfl, here⟩

theorem Disk.appends : Disk.store.Appends Disk.view Disk.maxSlices where
  length disk content here := by
    obtain rfl := Option.some.inj here
    simp [store]
  write disk content slices here few some room := by
    obtain rfl := Option.some.inj here
    have takes : ¬ (maxSlices < slices.length ∨
        Word.half ≤ disk.contents.toList.length + Extent.totalSize slices) := by omega
    refine ⟨⟨disk.contents.overwrite disk.contents.toList.length (.concat slices)⟩, ?_, ?_⟩
    · simp only [store, write, if_neg takes, if_neg some]
    · simp [view, Extent.toList_overwrite, List.take_of_length_le, List.drop_of_length_le]
  sync disk content here := ⟨disk, rfl, here⟩

theorem Surroundings.disk_memory_append (pool : Pool π) :
    (disk pool).BothAppend (memory pool) Disk.view Memory.view Disk.maxSlices :=
  ⟨Disk.appends, Memory.appends Disk.maxSlices, rfl⟩

/-- No request gathers more slices than a disk takes, if the settings allow for at most one more. -/
theorem Request.widest_le {settings : Settings} (few : settings.maxSlices ≤ Disk.maxSlices + 1)
    (request : Request) : request.widest settings ≤ Disk.maxSlices := by
  simp only [Disk.maxSlices] at few
  simp only [widest, Settings.framesPerWrite, Settings.minSlices, Disk.maxSlices]
  omega

namespace Disk

variable {pool : Pool π} {stage : Stage Disk π}

theorem transfer_eq_refused {slices : List Extent} {offset : Nat}
    (wide : maxSlices < slices.length) (some : Extent.totalSize slices ≠ 0)
    (inside : offset < Word.span) (stage : Stage Disk π) :
    store.transfer slices offset 0 stage = ⟨.failed (.ofCause .invalidInput), 0,
      stage.record (.called (.write offset slices (.failed (.ofCause .invalidInput))))⟩ := by
  have found : Word.add? offset 0 = Option.some offset := by
    rw [Word.add?_eq_some_iff]
    omega
  have refused : store.writeOn slices offset stage = (.failed (.ofCause .invalidInput),
      stage.record (.called (.write offset slices (.failed (.ofCause .invalidInput))))) := by
    simp only [Store.writeOn, store, write, wide, true_or, if_true]
  rw [Store.transfer, store.transferFrom_write some found refused]
  simp [Failure.ofCause]

end Disk

@[simp] theorem batches_nil {α : Type} (n : Nat) : batches n ([] : List α) = [] := by
  rw [batches, if_pos (.inr (Nat.zero_le n))]
  rfl

theorem batches_eq_cons {α : Type} {n : Nat} (some : 0 < n) {xs : List α} (full : xs ≠ []) :
    batches n xs = xs.take n :: batches n (xs.drop n) := by
  rw [batches]
  split
  · rename_i short
    have last : xs.length ≤ n := by omega
    rw [if_neg (by simpa using full), List.take_of_length_le last, List.drop_of_length_le last,
      batches_nil]
  · rfl

/-- Work that a disk refused: it failed, unless a pool crashed, the writer has not moved on, and the file
is as it was. -/
structure Work.Refused (pool : Pool π) (writer : Writer) (before : Stage Disk π)
    (work : Work Disk π) : Prop where
  outcome : work.outcome = .failed (.io .invalidInput) ∨ work.outcome = .crashed ∧ ¬ pool.Calm
  moves : writer.Moves work.writer 0
  file : work.stage.file = before.file

namespace Surroundings

variable (pool : Pool π)

theorem refused_writeBatch {batch : List Buffer} (framable : Framable batch)
    (wide : Disk.maxSlices < 2 * batch.length) {writer : Writer} (inside : writer.cursor < Word.span)
    (stage : Stage Disk π) :
    ((disk pool).writeBatch batch writer stage).Refused pool writer stage := by
  obtain ⟨frames, encoded, joined⟩ := encode_batch framable
  have full : batch ≠ [] := by
    rintro rfl
    cases wide
  have some : Extent.totalSize (frames.flatMap Frame.slices) ≠ 0 := by
    rw [Extent.totalSize_eq, joined, length_framed_flatMap framable]
    exact Nat.ne_of_gt (framesSize_pos full)
  have slices : Disk.maxSlices < (frames.flatMap Frame.slices).length := by
    rwa [length_slices, length_encoded encoded]
  have moved : (disk pool).transfer (frames.flatMap Frame.slices) writer.cursor 0 stage = _ :=
    Disk.transfer_eq_refused slices some inside stage
  simp only [writeBatch, encoded, moved]
  generalize noted : Stage.note (stage.record _) _ = between
  have untouched := (disk pool).untouched_settleBatch batch 0 (.failed (.io .invalidInput)) writer
    between
  constructor
  · rcases (disk pool).outcome_settleBatch batch 0 (.failed (.io .invalidInput)) writer between
      with failed | crashed
    · exact .inl failed
    · refine .inr ⟨crashed, fun calm => ?_⟩
      rw [@calm_settleBatch _ _ (disk pool) calm] at crashed
      cases crashed
  · have bytes := (disk pool).bytes_commit 0 0 batch between
    simp only [settleBatch]
    split
    · exact .refl writer
    · rename_i calm
      rw [bytes (by simpa using calm) (Nat.le_refl _), wholeWithin_zero, List.take_zero]
      exact writer.moves_advance 0
  · exact untouched.file.trans (by rw [← noted]; rfl)

/-- A request with a batch that has too many slices is refused, since its first batch is the widest. -/
theorem refused_spill {request : Request} (framable : Framable request.buffers) {writer : Writer}
    (wide : Disk.maxSlices < request.widest writer.settings) (inside : writer.cursor < Word.span)
    (stage : Stage Disk π) : ((disk pool).spill request writer stage).Refused pool writer stage := by
  have full : request.buffers ≠ [] := by
    intro none
    have empty : request.items.length = 0 := by
      rw [← List.length_map Item.buffer, ← Request.buffers, none, List.length_nil]
    rw [Request.widest, empty, Nat.min_zero] at wide
    cases wide
  have cut := batches_eq_cons writer.settings.framesPerWrite_pos full
  generalize batches writer.settings.framesPerWrite (request.buffers.drop _) = later at cut
  have first : Disk.maxSlices < 2 * (request.buffers.take writer.settings.framesPerWrite).length := by
    rwa [List.length_take, Request.buffers, List.length_map]
  obtain ⟨outcome, moves, same⟩ := refused_writeBatch pool (framable.take _) first inside
    (stage.note (.spilling request.items.length request.framedSize writer.cursor))
  simp only [spill, writeRequest, cut, writeBatches]
  generalize (disk pool).writeBatch (request.buffers.take writer.settings.framesPerWrite) writer _ =
    work at outcome moves same
  have untouched := Stage.Untouched.releaseAll pool later.flatten work.stage
  rcases outcome with failed | ⟨crashed, wild⟩
  · simp only [failed]
    refine ⟨?_, moves, untouched.file.trans same⟩
    split
    · rename_i crashed
      refine .inr ⟨rfl, fun calm => ?_⟩
      rw [@calm_releaseAll _ _ (disk pool) calm] at crashed
      cases crashed
    · exact .inl rfl
  · simp only [crashed, ite_self]
    exact ⟨.inr ⟨rfl, wild⟩, moves, untouched.file.trans same⟩

theorem repair_disk {writer : Writer} (room : writer.cursor < Word.half) {stage : Stage Disk π}
    {content : List UInt8} (here : stage.file.view = some content)
    (last : content.length = writer.cursor) :
    ∃ after, (disk pool).repair writer stage = (false, writer, after) ∧
      after.file.view = some content := by
  obtain rfl := Option.some.inj here
  have cut : (disk pool).truncateOn writer.cursor stage = (.done (),
      Stage.record { stage with file := ⟨stage.file.contents.resize writer.cursor⟩ }
        (.called (.truncate writer.cursor (.done ())))) := by
    simp [Store.truncateOn, disk, Disk.store, Disk.truncate, Nat.not_le.mpr room]
  have same : (stage.file.contents.resize writer.cursor).toList = stage.file.contents.toList := by
    rw [Extent.toList_resize, ← last, List.take_length, Extent.length_toList, Nat.sub_self,
      List.replicate_zero, List.append_nil]
  rw [repair, cut]
  exact ⟨_, rfl, congrArg some same⟩

/-- A request with a batch that has too many slices is answered with an error, unless a pool crashes, and
nothing is written. -/
theorem refused_process {request : Request} {writer : Writer} {content : List UInt8}
    {stage : Stage Disk π} (atEnd : writer.AtEnd Disk.view content request.buffers stage.file)
    (unpoisoned : writer.poisoned = false)
    (wide : Disk.maxSlices < request.widest writer.settings) :
    let verdict := (disk pool).process request writer stage
    (verdict.reply? = some (.error (.io .invalidInput)) ∨
        verdict.reply? = none ∧ ¬ pool.Calm) ∧
      writer.Moves verdict.writer 0 ∧ verdict.stage.file.view = some content := by
  obtain ⟨here, last, framable, room⟩ := atEnd
  obtain ⟨entries, known⟩ := entries?_of_room room
  have low : writer.cursor < Word.half := by omega
  have inside : writer.cursor < Word.span := by
    simp only [Word.half, Word.span] at low ⊢
    omega
  obtain ⟨outcome, moves, same⟩ := refused_spill pool framable wide inside stage
  simp only [process, unpoisoned, Bool.false_eq_true, if_false, refusal_of_framable framable, known]
  rcases outcome with failed | ⟨crashed, wild⟩
  · rw [carryOut_of_failed failed]
    simp only
    generalize (disk pool).spill request writer stage = work at moves same
    have stands : work.writer.cursor = writer.cursor := moves.cursor
    have counted := Stage.Untouched.countFailure work.stage request writer.cursor
      (work.writer.cursor - writer.cursor) (.io .invalidInput)
    obtain ⟨after, repaired, kept⟩ := repair_disk pool
      (show work.writer.cursor < Word.half by rwa [stands]) (by rw [counted.file, same, here])
      (by rw [last, stands])
    rw [repaired]
    exact ⟨.inl rfl, moves, kept⟩
  · rw [carryOut_of_crashed crashed]
    exact ⟨.inr ⟨rfl, wild⟩, moves, by rw [same, here]⟩

end Surroundings

/-- Two sessions, one on a disk and one in memory, that have come to the same: their spoolers, and with
these the cursors, the bytes of the files, the pools, the answers, the calls, and all else that has
happened. -/
structure Session.Equals (s : Session Disk π) (t : Session Memory π) : Prop where
  spooler : t.spooler = s.spooler
  submitted : t.submitted = s.submitted
  crashed : t.crashed = s.crashed
  healthy : t.stage.file.broken = false
  contents : t.stage.file.contents.toList = s.stage.file.contents.toList
  pool : t.stage.pool = s.stage.pool
  answers : ∀ ticket, t.stage.answers ticket = s.stage.answers ticket
  calls : t.stage.calls = s.stage.calls
  journal : t.stage.journal.map (Event.map Memory.view) = s.stage.journal.map (Event.map Disk.view)

/-- What the two sessions come to when they were equal, and their next request has a batch that is too
wide for a disk: it is refused, and the file on the disk stays as it is, while the file in memory gets
longer, and all frames of the request are in it if its writer lives. -/
structure Session.Parts (pool : Pool π) (s s' : Session Disk π) (t' : Session Memory π)
    (order : Order) : Prop where
  refused : s'.spooler.alive = true →
    s'.stage.answers order.ticket = [.error (.io .invalidInput)]
  contents : s'.stage.file.contents.toList = s.stage.file.contents.toList
  cursor : s'.spooler.cursor = s.spooler.cursor
  written : t'.spooler.alive = true → ∃ entries,
    order.request.entries? s.spooler.cursor = some entries ∧
      t'.stage.answers order.ticket = [.ok entries] ∧
      t'.stage.file.contents.toList = s.stage.file.contents.toList ++
        order.request.buffers.flatMap Buffer.framed ∧
      t'.spooler.cursor = s.spooler.cursor + framesSize order.request.buffers
  longer : s.stage.file.contents.toList.length < t'.stage.file.contents.toList.length
  live : pool.Calm → s'.spooler.alive = true ∧ t'.spooler.alive = true

theorem Session.Matches.equals {s : Session Disk π} {t : Session Memory π} {first : List UInt8}
    (pair : s.Matches t Disk.view Memory.view first) : s.Equals t := by
  obtain ⟨spooler, stage, submitted, crashed, -⟩ := Session.map_eq_iff.mp pair.same
  have file : t.stage.file.view = some s.stage.file.contents.toList := congrArg Stage.file stage
  obtain ⟨healthy, contents⟩ := Memory.view_eq_some_iff.mp file
  refine ⟨spooler, submitted, crashed, healthy, contents, congrArg Stage.pool stage, ?_, ?_,
    congrArg Stage.journal stage⟩
  · intro ticket
    rw [← Stage.answers_map Memory.view, stage, Stage.answers_map]
  · rw [← Stage.calls_map Memory.view, stage, Stage.calls_map]

namespace Surroundings

theorem work_of_queue {σ : Type} (env : Surroundings σ π) {s : Session σ π} (balanced : s.Balanced)
    (alive : s.spooler.alive = true) {order : Order} {later : List Order}
    (queued : s.spooler.queue = order :: later) :
    let verdict := env.process order.request s.spooler.writer s.stage
    (env.work s).stage.file = verdict.stage.file ∧ (env.work s).spooler.writer = verdict.writer ∧
      ((env.work s).spooler.alive = true ↔ verdict.reply? ≠ none) ∧
      ∀ reply, verdict.reply? = some reply → (env.work s).stage.answers order.ticket = [reply] := by
  have waits : s.stage.answers order.ticket = [] :=
    balanced.answers_eq_nil (.inr ⟨order, by simp [queued], rfl⟩)
  have silent := (env.effect_process order.request s.spooler.writer s.stage).answers_eq order.ticket
  cases verdict : env.process order.request s.spooler.writer s.stage with
  | mk reply? writer after =>
    rw [verdict] at silent
    cases reply? with
    | some reply =>
      rw [env.work_of_reply queued verdict]
      refine ⟨rfl, rfl, by simp [alive], ?_⟩
      rintro answer same
      rw [answers_reply, if_pos rfl, silent, waits, Option.some.inj same]
    | none =>
      rw [env.work_of_death queued verdict]
      refine ⟨(untouched_abandon env later _).file, rfl, by simp, ?_⟩
      rintro answer same
      cases same

variable {pool : Pool π} {settings : Settings} {contents : Extent} {state : π}
  {s : Session Disk π} {t : Session Memory π} {first : List UInt8}

/-- A request of equal items fits if these can be framed and there is room for so many of them. -/
theorem fitting_replicate {start n : Nat} {item : Item} (short : Framable [item.buffer])
    (room : start + n * item.buffer.frameSize < Word.half) :
    Fitting start [⟨List.replicate n item⟩] := by
  constructor
  · rintro buffer member
    simp only [List.flatMap_singleton, Request.buffers, List.map_replicate] at member
    rw [List.eq_of_mem_replicate member]
    exact short item.buffer (List.mem_singleton.mpr rfl)
  · simpa only [List.flatMap_singleton, Request.buffers, List.map_replicate,
      framesSize_replicate] using room

/-- A disk refuses the oldest request in the queue if it has a batch that is too wide. -/
theorem refused_work (balanced : s.Balanced) (alive : s.spooler.alive = true) {order : Order}
    {later : List Order} (queued : s.spooler.queue = order :: later)
    (shared : s.spooler.cursor = s.spooler.writer.cursor) {content : List UInt8}
    (atEnd : s.spooler.writer.AtEnd Disk.view content order.request.buffers s.stage.file)
    (unpoisoned : s.spooler.writer.poisoned = false)
    (wide : Disk.maxSlices < order.request.widest s.spooler.writer.settings) :
    let s' := (disk pool).work s
    (s'.spooler.alive = true → s'.stage.answers order.ticket = [.error (.io .invalidInput)]) ∧
      s'.stage.file.view = some content ∧ s'.spooler.cursor = s.spooler.cursor ∧
      (pool.Calm → s'.spooler.alive = true) := by
  intro s'
  obtain ⟨file, writer, lives, answers⟩ := (disk pool).work_of_queue balanced alive queued
  obtain ⟨replied, moves, there⟩ := refused_process pool atEnd unpoisoned wide
  refine ⟨fun some => ?_, by rwa [file], ?_, fun calm => ?_⟩
  · rcases replied with refused | ⟨died, -⟩
    · exact answers _ refused
    · exact absurd died (lives.mp some)
  · rw [Spooler.cursor, writer, moves.progress shared, moves.cursor, Nat.add_zero, shared]
  · rcases replied with refused | ⟨-, wild⟩
    · exact lives.mpr (by simp [refused])
    · exact absurd calm wild

/-- In memory the oldest request in the queue is written, however wide its batches are. -/
theorem written_work (balanced : t.Balanced) (alive : t.spooler.alive = true) {order : Order}
    {later : List Order} (queued : t.spooler.queue = order :: later) (full : order.request.items ≠ [])
    (shared : t.spooler.cursor = t.spooler.writer.cursor) {content : List UInt8}
    (atEnd : t.spooler.writer.AtEnd Memory.view content order.request.buffers t.stage.file)
    (unpoisoned : t.spooler.writer.poisoned = false) :
    let t' := (memory pool).work t
    (t'.spooler.alive = true → ∃ entries,
      order.request.entries? t.spooler.cursor = some entries ∧
        t'.stage.answers order.ticket = [.ok entries] ∧
        t'.stage.file.view = some (content ++ order.request.buffers.flatMap Buffer.framed) ∧
        t'.spooler.cursor = t.spooler.cursor + framesSize order.request.buffers) ∧
      (∃ more, more ≠ [] ∧ t'.stage.file.view = some (content ++ more)) ∧
      (pool.Calm → t'.spooler.alive = true) := by
  intro t'
  obtain ⟨file, writer, lives, answers⟩ := (memory pool).work_of_queue balanced alive queued
  -- A file in memory is compared with itself, in as many slices as the request needs.
  have alone : (memory pool).BothAppend (memory pool) Memory.view Memory.view
      (order.request.widest t.spooler.writer.settings) :=
    ⟨Memory.appends _, Memory.appends _, rfl⟩
  obtain ⟨-, -, -, ended⟩ := alone.matches_process rfl atEnd unpoisoned (Nat.le_refl _)
  rw [← file] at ended
  rcases ended with ⟨entries, known, replied, moves, whole⟩ | ⟨died, wild, torn⟩
  · refine ⟨fun _ => ⟨entries, by rwa [shared], answers _ replied, whole, ?_⟩, ⟨_, ?_, whole⟩,
      fun _ => lives.mpr (by simp [replied])⟩
    · rw [Spooler.cursor, writer, moves.progress shared, moves.cursor, shared]
    · apply List.ne_nil_of_length_pos
      rw [length_framed_flatMap atEnd.framable, ← framedSize_eq]
      exact Request.framedSize_pos full
  · exact ⟨fun living => absurd died (lives.mp living), torn, fun calm => absurd calm wild⟩

/-- Equal sessions part when they come to a request that a disk refuses. -/
theorem parts_work (reached : (disk pool).Reaches settings ⟨contents⟩ state s)
    (balanced : s.Balanced) (balanced' : t.Balanced) (fitting : Fitting first.length s.submitted)
    (pair : s.Matches t Disk.view Memory.view first) {order : Order} {later : List Order}
    (queued : s.spooler.queue = order :: later)
    (wide : Disk.maxSlices < order.request.widest settings) :
    Session.Parts pool s ((disk pool).work s) ((memory pool).work t) order := by
  obtain ⟨spooler, stage, -⟩ := Session.map_eq_iff.mp pair.same
  obtain ⟨unpoisoned, atEnd⟩ := pair.next reached.orderly fitting queued
  obtain ⟨start, -, booked⟩ := reached.booked
  obtain ⟨own, shown⟩ := cursor_of_booked booked
  have shared : s.spooler.cursor = s.spooler.writer.cursor := shown.trans own.symm
  have waits : order ∈ s.spooler.queue := by simp [queued]
  have alive := reached.orderly.alive_of_queue (List.ne_nil_of_mem waits)
  obtain ⟨-, full⟩ := reached.orderly.submitted_of_queue waits
  have content := Option.some.inj atEnd.here
  have here' : t.stage.file.view = s.stage.file.view := congrArg Stage.file stage
  have atEnd' : s.spooler.writer.AtEnd Memory.view _ order.request.buffers t.stage.file :=
    ⟨here'.trans atEnd.here, atEnd.last, atEnd.framable, atEnd.room⟩
  rw [← reached.settings_eq] at wide
  obtain ⟨refused, stays, stands, lives⟩ :=
    refused_work balanced alive queued shared atEnd unpoisoned wide
  -- The other session has the same spooler.
  rw [← spooler] at alive queued shared atEnd' unpoisoned
  obtain ⟨written, ⟨more, some, longer⟩, lives'⟩ :=
    written_work balanced' alive queued full shared atEnd' unpoisoned
  rw [← content] at stays written longer
  rw [spooler] at written
  refine ⟨refused, Option.some.inj stays, stands, fun living => ?_, ?_,
    fun calm => ⟨lives calm, lives' calm⟩⟩
  · obtain ⟨entries, known, answered, whole, moved⟩ := written living
    exact ⟨entries, known, answered, (Memory.view_eq_some_iff.mp whole).2, moved⟩
  · rw [(Memory.view_eq_some_iff.mp longer).2, List.length_append]
    exact Nat.lt_add_of_pos_right (List.length_pos_iff.mpr some)

/-- A spooler is started on a disk, and one on a file in memory with the same contents, and the same is
done with both. With settings that keep requests narrow, both come to the same, also once they are given
up. With any settings they do as long as no request that was taken from the queue has a batch with more
slices than a disk takes. At the first request that has one they part. -/
theorem disk_stands_in_for_memory {spooler : Spooler} {stage : Stage Disk π}
    (started : (disk pool).start settings (.start ⟨contents⟩ state) = (.done spooler, stage)) :
    ∃ stage', (memory pool).start settings (.start ⟨contents, false⟩ state) =
        (.done spooler, stage') ∧
      ∀ acts, Fitting contents.toList.length (submissions acts) →
        let s := (disk pool).run acts (.fresh spooler stage)
        let t := (memory pool).run acts (.fresh spooler stage')
        (settings.maxSlices ≤ Disk.maxSlices + 1 → s.Equals t ∧
          ∀ ending, ((disk pool).finish ending s).Equals ((memory pool).finish ending t)) ∧
        ((∀ errand ∈ s.errands, errand.order.request.widest settings ≤ Disk.maxSlices) →
          s.Equals t ∧
            (∀ ending,
              (∀ order ∈ s.spooler.queue, order.request.widest settings ≤ Disk.maxSlices) →
                ((disk pool).finish ending s).Equals ((memory pool).finish ending t)) ∧
            ∀ order later, s.spooler.queue = order :: later →
              Disk.maxSlices < order.request.widest settings →
                Session.Parts pool s ((disk pool).work s) ((memory pool).work t) order) := by
  have there : Memory.view ⟨contents, false⟩ = some contents.toList := rfl
  obtain ⟨stage', started', fresh⟩ := (disk_memory_append pool).matches_fresh rfl there started
  refine ⟨stage', started', fun acts fitting => ?_⟩
  intro s t
  have begun : (disk pool).Reaches settings ⟨contents⟩ state s := (Reaches.start started).run acts
  have fits : Fitting contents.toList.length s.submitted := by
    rwa [show s.submitted = submissions acts from (disk pool).submitted_run acts _]
  have pair : (∀ errand ∈ s.errands, errand.order.request.widest settings ≤ Disk.maxSlices) →
      s.Matches t Disk.view Memory.view contents.toList := fun few =>
    (disk_memory_append pool).matches_run acts (Reaches.start started) fitting few fresh
  refine ⟨fun few => ?_, fun few => ⟨(pair few).equals, fun ending narrow => ?_, ?_⟩⟩
  · have narrow := Request.widest_le few
    have same := pair fun errand _ => narrow errand.order.request
    refine ⟨same.equals, fun ending => ?_⟩
    exact ((disk_memory_append pool).matches_finish ending begun fits
      (fun order _ => narrow order.request) same).equals
  · exact ((disk_memory_append pool).matches_finish ending begun fits narrow (pair few)).equals
  · intro order later queued wide
    exact parts_work begun (balanced_run acts (balanced_fresh started))
      (balanced_run acts (balanced_fresh started')) fits (pair few) queued wide

/-- A frame is spilled to an empty file with settings that allow for too many slices. It is stored alike
on a disk and in memory. But with 513 frames at once they part. -/
theorem one_frame_is_stored_alike :
    let settings : Settings := { Settings.standard with maxSlices := 1026 }
    let wide : Request := ⟨List.replicate 513 threeBytes⟩
    let stage := ((disk Pool.quiet).start settings (.start ⟨.empty⟩ ())).2
    let fresh := Session.fresh ⟨.start settings 0, true, []⟩ stage
    ∃ stage', (memory Pool.quiet).start settings (.start ⟨.empty, false⟩ ()) =
        (.done ⟨.start settings 0, true, []⟩, stage') ∧
      let fresh' := Session.fresh ⟨.start settings 0, true, []⟩ stage'
      ((disk Pool.quiet).run [.submit ⟨[threeBytes]⟩, .step] fresh).Equals
          ((memory Pool.quiet).run [.submit ⟨[threeBytes]⟩, .step] fresh') ∧
        ((disk Pool.quiet).work ((disk Pool.quiet).hand wide fresh)).stage.answers 0 =
          [.error (.io .invalidInput)] ∧
        ∃ entries, ((memory Pool.quiet).work ((memory Pool.quiet).hand wide fresh')).stage.answers 0 =
          [.ok entries] := by
  intro settings wide stage fresh
  have named : settings.threadName.toList.contains '\x00' = false := by decide
  have length : (disk Pool.quiet).length (Stage.start (⟨.empty⟩ : Disk) ()).file = .done 0 := rfl
  have started : (disk Pool.quiet).start settings (.start ⟨.empty⟩ ()) =
      (.done ⟨.start settings 0, true, []⟩, stage) := start_eq_of_length length named
  obtain ⟨stage', started', all⟩ := disk_stands_in_for_memory started
  obtain ⟨-, narrow⟩ := all [.submit ⟨[threeBytes]⟩, .step] ⟨by decide, by decide⟩
  obtain ⟨equal, -⟩ := narrow (by
    rintro errand member
    obtain rfl := List.mem_singleton.mp member
    decide)
  have fitting : Fitting Extent.empty.toList.length (submissions [.submit wide]) :=
    fitting_replicate (by decide) (by decide)
  obtain ⟨-, waits⟩ := all [.submit wide] fitting
  obtain ⟨-, -, part⟩ := waits (by simp [run, next, hand, Session.fresh])
  have tooWide : Disk.maxSlices < wide.widest settings := by
    simp only [Request.widest, wide, List.length_replicate]
    decide
  have parts := part ⟨0, wide⟩ [] rfl tooWide
  obtain ⟨lives, lives'⟩ := parts.live Pool.calm_quiet
  obtain ⟨entries, -, answers, -⟩ := parts.written lives'
  exact ⟨stage', started', equal, parts.refused lives, entries, answers⟩

/-- With settings that allow for 1026 slices, a request of 513 frames is refused by a disk, whose file stays
empty. In memory it is answered with what was spilled, and the file has all frames of it. -/
theorem wide_request_parts_them :
    let settings : Settings := { Settings.standard with maxSlices := 1026 }
    let wide : Request := ⟨List.replicate 513 threeBytes⟩
    let opened := (disk Pool.quiet).start settings (.start ⟨.empty⟩ ())
    let opened' := (memory Pool.quiet).start settings (.start ⟨.empty, false⟩ ())
    let spooler : Spooler := ⟨.start settings 0, true, []⟩
    let s := (disk Pool.quiet).run [.submit wide, .step] (.fresh spooler opened.2)
    let t := (memory Pool.quiet).run [.submit wide, .step] (.fresh spooler opened'.2)
    opened.1 = .done spooler ∧ opened'.1 = .done spooler ∧
      s.stage.answers 0 = [.error (.io .invalidInput)] ∧ s.stage.file.contents.toList = [] ∧
      s.spooler.cursor = 0 ∧
      ∃ entries, wide.entries? 0 = some entries ∧ t.stage.answers 0 = [.ok entries] ∧
        t.stage.file.contents.toList = wide.buffers.flatMap Buffer.framed ∧
        t.spooler.cursor = 5643 := by
  intro settings wide opened opened' spooler s t
  have named : settings.threadName.toList.contains '\x00' = false := by decide
  have length : (disk Pool.quiet).length (Stage.start (⟨.empty⟩ : Disk) ()).file = .done 0 := rfl
  have started : (disk Pool.quiet).start settings (.start ⟨.empty⟩ ()) = (.done spooler, opened.2) :=
    start_eq_of_length length named
  have there : Memory.view ⟨.empty, false⟩ = some Extent.empty.toList := rfl
  obtain ⟨stage', started', fresh⟩ :=
    (disk_memory_append Pool.quiet).matches_fresh rfl there started
  obtain rfl : opened'.2 = stage' := congrArg Prod.snd started'
  have fitting : Fitting Extent.empty.toList.length [wide] :=
    fitting_replicate (by decide) (by decide)
  have tooWide : Disk.maxSlices < wide.widest settings := by
    simp only [Request.widest, wide, List.length_replicate]
    decide
  have handed := (disk_memory_append Pool.quiet).matches_hand wide fresh
  have parts : Session.Parts Pool.quiet ((disk Pool.quiet).hand wide (.fresh spooler opened.2)) s t
      ⟨0, wide⟩ :=
    parts_work ((Reaches.start started).run [.submit wide]) (balanced_hand wide (balanced_fresh started))
      (balanced_hand wide (balanced_fresh started')) fitting handed rfl tooWide
  obtain ⟨-, nothing, -⟩ := handed.stands rfl
  have empty : ((disk Pool.quiet).hand wide (.fresh spooler opened.2)).stage.file.contents.toList = [] :=
    Option.some.inj nothing
  obtain ⟨lives, lives'⟩ := parts.live Pool.calm_quiet
  obtain ⟨entries, known, answered, whole, moved⟩ := parts.written lives'
  rw [empty, List.nil_append] at whole
  refine ⟨congrArg Prod.fst started, congrArg Prod.fst started', parts.refused lives,
    parts.contents.trans empty, parts.cursor, entries, known, answered, whole, moved.trans ?_⟩
  rw [Request.buffers, List.map_replicate, framesSize_replicate]
  rfl

end Surroundings
end Spillway
