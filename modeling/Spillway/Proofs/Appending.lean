import Spillway.Proofs.Calls
import Spillway.Proofs.Cutting
/-!
Files that append. Such a file takes at once what is written at its end, unless it comes in too many
slices. A spooler cannot tell two of them apart: as long as no write needs more slices than both of them
take, the same events happen whatever the pools do, and the files have the same bytes at any time.
There is one lemma about this for each function of the writer, up to `Surroundings.matches_process`, and
one for runs.
-/

namespace Spillway

variable {σ τ π : Type}

/-- A file that takes whole what is written at its end in at most so many slices, as long as it can be
viewed, unless that would reach half of the machine's span. It says how long it is, and a sync changes
nothing. -/
structure Store.Appends (store : Store σ) (view : σ → Option (List UInt8)) (most : Nat) : Prop where
  length : ∀ file content, view file = some content → store.length file = .done content.length
  write : ∀ file content slices, view file = some content → slices.length ≤ most →
    Extent.totalSize slices ≠ 0 → content.length + Extent.totalSize slices < Word.half →
      ∃ after, store.write file slices content.length = (.done (Extent.totalSize slices), after) ∧
        view after = some (content ++ slices.flatMap Extent.toList)
  sync : ∀ file content, view file = some content →
    ∃ after, store.sync file = (.done (), after) ∧ view after = some content

/-- An event with another view of the file. -/
def Event.map (f : σ → τ) : Event σ → Event τ
  | .called call => .called call
  | .released owner segment file => .released owner segment (f file)
  | .counted instrument amount => .counted instrument amount
  | .noted notice => .noted notice
  | .replied ticket reply => .replied ticket reply
  | .crashed => .crashed

/-- A stage with another view of the file, now and as it was when segments went back. -/
def Stage.map (f : σ → τ) (stage : Stage σ π) : Stage τ π :=
  ⟨f stage.file, stage.pool, stage.journal.map (Event.map f)⟩

def Session.map (f : σ → τ) (s : Session σ π) : Session τ π :=
  ⟨s.spooler, s.stage.map f, s.submitted, s.crashed, s.errands⟩

namespace Stage

variable (f : σ → τ) (stage : Stage σ π)

theorem record_map (event : Event σ) :
    (stage.record event).map f = (stage.map f).record (event.map f) := rfl

theorem map_at {τ' : Type} {stage : Stage σ π} {other : Stage τ π} {f : σ → τ'} {g : τ → τ'}
    (same : other.map g = stage.map f) {after : σ} {after' : τ} (alike : g after' = f after) :
    Stage.map g { other with file := after' } = Stage.map f { stage with file := after } := by
  have pool := congrArg Stage.pool same
  have journal := congrArg Stage.journal same
  simp only [map] at pool journal ⊢
  rw [alike, pool, journal]

theorem calls_map : (stage.map f).calls = stage.calls := by
  simp only [calls, events, map, ← List.map_reverse, List.filterMap_map]
  congr 1
  funext event
  cases event <;> rfl

theorem answers_map (ticket : Nat) : (stage.map f).answers ticket = stage.answers ticket := by
  simp only [answers, map]
  induction stage.journal with
  | nil => rfl
  | cons event older ih =>
    cases event with
    | replied t reply => simp only [List.map_cons, Event.map, answersIn, ih]
    | called _ | released _ _ _ | counted _ _ | noted _ | crashed => exact ih

end Stage

namespace Pool

variable (f : σ → τ) (pool : Pool π)

theorem release_map (buffer : Buffer) (stage : Stage σ π) :
    pool.release buffer (stage.map f) =
      ((pool.release buffer stage).1, (pool.release buffer stage).2.map f) := by
  unfold release giveBack
  cases buffer.owner with
  | nobody => rfl
  | pool number =>
    cases crash : (pool.reclaim stage.pool number buffer.segment).1 <;>
      simp [Stage.map, Stage.record, Stage.crash, crash, Event.map]

end Pool

/-- How many slices the widest write for a request gathers. -/
def Request.widest (settings : Settings) (request : Request) : Nat :=
  2 * min settings.framesPerWrite request.items.length

theorem length_of_mem_batches {α : Type} {n : Nat} (some : 0 < n) {xs batch : List α}
    (member : batch ∈ batches n xs) : batch ≠ [] ∧ batch.length ≤ min n xs.length := by
  fun_induction batches n xs with
  | case1 xs small none => cases member
  | case2 xs small full =>
    obtain rfl : batch = xs := by simpa using member
    refine ⟨by simpa using full, ?_⟩
    omega
  | case3 xs large ih =>
    rcases List.mem_cons.mp member with rfl | later
    · refine ⟨List.ne_nil_of_length_pos ?_, ?_⟩
      · rw [List.length_take]
        omega
      · exact Nat.le_of_eq List.length_take
    · obtain ⟨full, short⟩ := ih later
      rw [List.length_drop] at short
      exact ⟨full, by omega⟩

/-- The writer is at the end of the file, where there is room for some buffers, which can be framed. -/
structure Writer.AtEnd (writer : Writer) (view : σ → Option (List UInt8)) (content : List UInt8)
    (buffers : List Buffer) (file : σ) : Prop where
  here : view file = some content
  last : content.length = writer.cursor
  framable : Framable buffers
  room : writer.cursor + framesSize buffers < Word.half

theorem Writer.AtEnd.left {writer : Writer} {view : σ → Option (List UInt8)} {content : List UInt8}
    {buffers later : List Buffer} {file : σ}
    (atEnd : writer.AtEnd view content (buffers ++ later) file) :
    writer.AtEnd view content buffers file := by
  obtain ⟨here, last, framable, room⟩ := atEnd
  rw [framesSize_append] at room
  exact ⟨here, last, framable.left, by omega⟩

/-- When the first buffers are in the file, the writer is at the end again. -/
theorem Writer.AtEnd.right {writer moved : Writer} {view : σ → Option (List UInt8)}
    {content : List UInt8} {buffers later : List Buffer} {file after : σ}
    (atEnd : writer.AtEnd view content (buffers ++ later) file)
    (moves : writer.Moves moved (framesSize buffers))
    (there : view after = some (content ++ buffers.flatMap Buffer.framed)) :
    moved.AtEnd view (content ++ buffers.flatMap Buffer.framed) later after := by
  obtain ⟨here, last, framable, room⟩ := atEnd
  rw [framesSize_append] at room
  refine ⟨there, ?_, framable.right, ?_⟩
  · rw [List.length_append, length_framed_flatMap framable.left, last, moves.cursor]
  · rw [moves.cursor]
    omega

/-- Two pieces of work on buffers, at the ends of files with the same content: they ended alike, and the
same happened. Either all frames are in the files, or a pool crashed when some bytes had been written. -/
structure Work.Matches (pool : Pool π) (view : σ → Option (List UInt8))
    (view' : τ → Option (List UInt8)) (content : List UInt8) (buffers : List Buffer)
    (writer : Writer) (left : Work σ π) (right : Work τ π) : Prop where
  outcome : right.outcome = left.outcome
  moved : right.writer = left.writer
  same : right.stage.map view' = left.stage.map view
  ended : (left.outcome = .done ∧ writer.Moves left.writer (framesSize buffers) ∧
      view left.stage.file = some (content ++ buffers.flatMap Buffer.framed)) ∨
    (left.outcome = .crashed ∧ ¬ pool.Calm ∧
      ∃ more, more ≠ [] ∧ view left.stage.file = some (content ++ more))

/-- Two verdicts on a request, at the ends of files with the same content: it was answered alike, with
its entries, and all its frames are in the files, or else both writers died when some bytes had been
written. -/
structure Verdict.Matches (pool : Pool π) (view : σ → Option (List UInt8))
    (view' : τ → Option (List UInt8)) (content : List UInt8) (request : Request) (writer : Writer)
    (left : Verdict σ π) (right : Verdict τ π) : Prop where
  reply : right.reply? = left.reply?
  moved : right.writer = left.writer
  same : right.stage.map view' = left.stage.map view
  ended : (∃ entries, request.entries? writer.cursor = some entries ∧
        left.reply? = some (.ok entries) ∧
        writer.Moves left.writer (framesSize request.buffers) ∧
        view left.stage.file = some (content ++ request.buffers.flatMap Buffer.framed)) ∨
    (left.reply? = none ∧ ¬ pool.Calm ∧
      ∃ more, more ≠ [] ∧ view left.stage.file = some (content ++ more))

/-- Sessions of two spoolers on which the same has happened. As long as the writers live, everything they
took from the queue is behind `first` in the files, and that is where their cursors are. -/
structure Session.Matches (s : Session σ π) (t : Session τ π) (view : σ → Option (List UInt8))
    (view' : τ → Option (List UInt8)) (first : List UInt8) : Prop where
  same : t.map view' = s.map view
  stands : s.spooler.alive = true → s.spooler.writer.poisoned = false ∧
    view s.stage.file = some (first ++
      (s.errands.flatMap fun errand => errand.order.request.buffers).flatMap Buffer.framed) ∧
    s.spooler.writer.cursor = first.length +
      framesSize (s.errands.flatMap fun errand => errand.order.request.buffers)

/-- When the writer comes to a request, it is at the end of the file, and there is room for it. -/
theorem Session.Matches.next {s : Session σ π} {t : Session τ π} {view : σ → Option (List UInt8)}
    {view' : τ → Option (List UInt8)} {first : List UInt8} (pair : s.Matches t view view' first)
    (orderly : s.Orderly) (fitting : Fitting first.length s.submitted) {order : Order}
    {later : List Order} (queued : s.spooler.queue = order :: later) :
    s.spooler.writer.poisoned = false ∧
      s.spooler.writer.AtEnd view (first ++ (s.errands.flatMap fun errand =>
        errand.order.request.buffers).flatMap Buffer.framed) order.request.buffers s.stage.file := by
  have alive := orderly.alive_of_queue (by simp [queued])
  obtain ⟨unpoisoned, here, cursor⟩ := pair.stands alive
  have orders := orderly.alive_orders alive
  rw [queued] at orders
  obtain ⟨before, after, split, -, past, -⟩ := ordersFrom_split orders
  -- The errands so far are the requests before this one.
  have taken := buffers_errands past
  obtain ⟨framable, room⟩ := fitting
  rw [split, List.flatMap_append, List.flatMap_cons, ← taken] at framable room
  rw [framesSize_append, framesSize_append] at room
  refine ⟨unpoisoned, here, ?_, framable.right.left, by omega⟩
  rw [cursor, List.length_append, length_framed_flatMap framable.left]

theorem Session.map_eq_iff {τ' : Type} {f : σ → τ'} {g : τ → τ'} {s : Session σ π}
    {t : Session τ π} :
    t.map g = s.map f ↔ t.spooler = s.spooler ∧ t.stage.map g = s.stage.map f ∧
      t.submitted = s.submitted ∧ t.crashed = s.crashed ∧ t.errands = s.errands := by
  simp only [map, Session.mk.injEq]

theorem Session.leave_map (f : σ → τ) (ending : Ending) (s : Session σ π) :
    (s.leave ending).map f = (s.map f).leave ending := by
  cases ending with
  | close =>
    by_cases alive : s.spooler.alive = true
    · simp [leave, shut, map, alive, Stage.note, Stage.record_map, Event.map]
    · simp [leave, shut, map, alive]
  | discard => rfl

/-- What is written at the end of the file goes there with one write. -/
theorem Store.Appends.transfer_eq {store : Store σ} {view : σ → Option (List UInt8)} {most : Nat}
    (appends : store.Appends view most) {slices : List Extent} {stage : Stage σ π}
    {content : List UInt8} (here : view stage.file = some content) (few : slices.length ≤ most)
    (some : Extent.totalSize slices ≠ 0)
    (room : content.length + Extent.totalSize slices < Word.half) :
    ∃ after, view after = Option.some (content ++ slices.flatMap Extent.toList) ∧
      store.transfer slices content.length 0 stage =
        ⟨.done (), Extent.totalSize slices, Stage.record { stage with file := after }
          (.called (.write content.length slices (.done (Extent.totalSize slices))))⟩ := by
  obtain ⟨after, wrote, joined⟩ := appends.write stage.file content slices here few some room
  have call : store.writeOn slices content.length stage =
      (.done (Extent.totalSize slices), Stage.record { stage with file := after }
        (.called (.write content.length slices (.done (Extent.totalSize slices))))) := by
    simp only [writeOn, wrote]
  have found : Word.add? content.length 0 = Option.some content.length := by
    rw [Word.add?_eq_some_iff]
    simp only [Word.half, Word.span] at room ⊢
    omega
  have counted : (Word.add? (0 + 0) (Extent.totalSize slices)).isNone = false := by
    rw [Bool.eq_false_iff, ne_eq, Option.isNone_iff_eq_none, Word.add?_eq_none_iff]
    simp only [Word.half, Word.span] at room ⊢
    omega
  have rest : Extent.totalSize (Extent.advance (Extent.totalSize slices) slices) = 0 := by
    rw [Extent.totalSize_advance, Nat.sub_self]
  refine ⟨after, joined, ?_⟩
  rw [Store.transfer, store.transferFrom_write some found call]
  simp only [if_neg some, counted, Bool.false_eq_true, if_false, Nat.lt_irrefl]
  rw [transferFrom, if_pos rest]
  simp only [Nat.zero_add]

namespace Surroundings

variable {left : Surroundings σ π} {right : Surroundings τ π} {view : σ → Option (List UInt8)}
  {view' : τ → Option (List UInt8)} {most : Nat} {a : Stage σ π} {b : Stage τ π}

/-- Two files that append, with the same pools. -/
structure BothAppend (left : Surroundings σ π) (right : Surroundings τ π)
    (view : σ → Option (List UInt8)) (view' : τ → Option (List UInt8)) (most : Nat) : Prop where
  first : left.Appends view most
  second : right.Appends view' most
  pool : right.toPool = left.toPool

namespace BothAppend

/-- What is let go, counted and reported leaves alike stages alike. -/
theorem abreast (both : left.BothAppend right view view' most) :
    left.Abreast right fun a b => b.map view' = a.map view where
  release {a b} same buffer := by
    have mapped := left.release_map view buffer a
    rw [← same, ← both.pool, right.release_map view' buffer b] at mapped
    rw [both.pool] at mapped ⊢
    exact ⟨congrArg Prod.fst mapped, congrArg Prod.snd mapped⟩
  note {a b} same notice := by
    simp only [Stage.note, Stage.record_map, same]
    rfl
  count {a b} same instrument amount := by
    simp only [Stage.count, Stage.record_map, same]
    rfl
  crash {a b} same := by
    simp only [Stage.crash, Stage.record_map, same]
    rfl

theorem matches_writeBatch (both : left.BothAppend right view view' most)
    (same : b.map view' = a.map view) {content : List UInt8} {batch : List Buffer} {writer : Writer}
    (atEnd : writer.AtEnd view content batch a.file) (full : batch ≠ [])
    (few : 2 * batch.length ≤ most) :
    Work.Matches left.toPool view view' content batch writer (left.writeBatch batch writer a)
      (right.writeBatch batch writer b) := by
  obtain ⟨here, last, framable, room⟩ := atEnd
  obtain ⟨frames, encoded, joined⟩ := encode_batch framable
  have size : Extent.totalSize (frames.flatMap Frame.slices) = framesSize batch := by
    rw [Extent.totalSize_eq, joined, length_framed_flatMap framable]
  have positive := Nat.ne_of_gt (framesSize_pos full)
  have here' : view' b.file = some content := (congrArg Stage.file same).trans here
  have slices : (frames.flatMap Frame.slices).length ≤ most := by
    rwa [length_slices, length_encoded encoded]
  obtain ⟨after, wrote, moved⟩ := both.first.transfer_eq here slices (by rwa [size])
    (by rwa [size, last])
  obtain ⟨after', wrote', moved'⟩ := both.second.transfer_eq here' slices (by rwa [size])
    (by rwa [size, last])
  rw [joined] at wrote wrote'
  have taken := left.taken_writeBatch framable writer a
  simp only [writeBatch, encoded, ← last, moved, moved'] at taken ⊢
  generalize noted : Stage.note (Stage.record { a with file := after } _) _ = between at taken ⊢
  generalize noted' : Stage.note (Stage.record { b with file := after' } _) _ = between'
  have same' : between'.map view' = between.map view := by
    rw [← noted, ← noted']
    simp only [Stage.note, Stage.record_map, Stage.map_at same (wrote'.trans wrote.symm)]
    rfl
  have there : view between.file = some (content ++ batch.flatMap Buffer.framed) := by
    rw [← noted]
    exact wrote
  obtain ⟨outcome, moves, settled⟩ := both.abreast.tandem_settleBatch Writer.aside_id same' batch
    (Extent.totalSize (frames.flatMap Frame.slices)) .done writer
  have untouched := left.untouched_settleBatch batch
    (Extent.totalSize (frames.flatMap Frame.slices)) .done writer between
  rw [← untouched.file] at there
  refine ⟨outcome, moves, settled, ?_⟩
  rcases left.outcome_settleBatch batch (Extent.totalSize (frames.flatMap Frame.slices)) .done writer
    between with done | crashed
  · exact .inl ⟨done, (taken done).2, there⟩
  · refine .inr ⟨crashed, fun calm => ?_, _, List.ne_nil_of_length_pos ?_, there⟩
    · rw [calm_settleBatch calm] at crashed
      cases crashed
    · rw [length_framed_flatMap framable]
      exact framesSize_pos full

theorem matches_writeBatches (both : left.BothAppend right view view' most)
    (same : b.map view' = a.map view) {content : List UInt8} {batches : List (List Buffer)}
    {writer : Writer} (atEnd : writer.AtEnd view content batches.flatten a.file)
    (each : ∀ batch ∈ batches, batch ≠ [] ∧ 2 * batch.length ≤ most) :
    Work.Matches left.toPool view view' content batches.flatten writer
      (left.writeBatches batches writer a) (right.writeBatches batches writer b) := by
  induction batches generalizing writer content a b with
  | nil =>
    exact ⟨rfl, rfl, same, .inl ⟨rfl, .refl writer, by simpa [writeBatches] using atEnd.here⟩⟩
  | cons batch later ih =>
    obtain ⟨⟨full, few⟩, rest⟩ := List.forall_mem_cons.mp each
    rw [List.flatten_cons] at atEnd ⊢
    obtain ⟨outcome, moved, after, ended⟩ := both.matches_writeBatch same atEnd.left full few
    simp only [writeBatches, outcome, moved]
    rcases ended with ⟨done, moves, there⟩ | ⟨crashed, wild, more, some, there⟩
    · simp only [done]
      obtain ⟨outcome, moved, after, ended⟩ := ih after (atEnd.right moves there) rest
      refine ⟨outcome, moved, after, ?_⟩
      rcases ended with ⟨done, moves', all⟩ | ⟨crashed, wild, more, some, all⟩
      · rw [framesSize_append, List.flatMap_append, ← List.append_assoc]
        exact .inl ⟨done, moves.trans moves', all⟩
      · rw [List.append_assoc] at all
        exact .inr ⟨crashed, wild, _, by simp [some], all⟩
    · obtain ⟨alike, handed⟩ := both.abreast.tandem_releaseAll after later.flatten
      have untouched := Stage.Untouched.releaseAll left.toPool later.flatten
        (left.writeBatch batch writer a).stage
      simp only [crashed, alike]
      refine ⟨rfl, rfl, handed, .inr ⟨by simp, wild, more, some, ?_⟩⟩
      rw [untouched.file]
      exact there

theorem matches_spill (both : left.BothAppend right view view' most)
    (same : b.map view' = a.map view) {content : List UInt8} {request : Request} {writer : Writer}
    (atEnd : writer.AtEnd view content request.buffers a.file)
    (few : request.widest writer.settings ≤ most) :
    Work.Matches left.toPool view view' content request.buffers writer (left.spill request writer a)
      (right.spill request writer b) := by
  have all := flatten_batches writer.settings.framesPerWrite request.buffers
  have each : ∀ batch ∈ batches writer.settings.framesPerWrite request.buffers,
      batch ≠ [] ∧ 2 * batch.length ≤ most := by
    intro batch member
    obtain ⟨full, short⟩ := length_of_mem_batches writer.settings.framesPerWrite_pos member
    rw [Request.buffers, List.length_map] at short
    exact ⟨full, Nat.le_trans (Nat.mul_le_mul_left 2 short) few⟩
  have noted : (b.note (.spilling request.items.length request.framedSize writer.cursor)).map view' =
      (a.note (.spilling request.items.length request.framedSize writer.cursor)).map view :=
    both.abreast.note same _
  rw [← all] at atEnd
  have written : Work.Matches left.toPool view view' content _ writer _ _ :=
    both.matches_writeBatches noted atEnd each
  rw [all] at written
  exact written

theorem matches_syncOn (both : left.BothAppend right view view' most)
    (same : b.map view' = a.map view) {content : List UInt8} (here : view a.file = some content) :
    ∃ after after', left.syncOn a = (.done (), after) ∧ right.syncOn b = (.done (), after') ∧
      after'.map view' = after.map view ∧ view after.file = some content := by
  have here' : view' b.file = some content := (congrArg Stage.file same).trans here
  obtain ⟨synced, done, there⟩ := both.first.sync a.file content here
  obtain ⟨synced', done', there'⟩ := both.second.sync b.file content here'
  refine ⟨Stage.record { a with file := synced } (.called (.sync (.done ()))),
    Stage.record { b with file := synced' } (.called (.sync (.done ()))), ?_, ?_, ?_, there⟩
  · simp only [Store.syncOn, done]
  · simp only [Store.syncOn, done']
  simp only [Stage.record_map, Stage.map_at same (there'.trans there.symm)]
  rfl

theorem matches_carryOut (both : left.BothAppend right view view' most)
    (same : b.map view' = a.map view) {content : List UInt8} {request : Request} {writer : Writer}
    (atEnd : writer.AtEnd view content request.buffers a.file) {entries : List Entry}
    (known : request.entries? writer.cursor = some entries)
    (few : request.widest writer.settings ≤ most) :
    Verdict.Matches left.toPool view view' content request writer
      (left.carryOut request entries writer a) (right.carryOut request entries writer b) := by
  obtain ⟨outcome, moved, after, ended⟩ := both.matches_spill same atEnd few
  rcases ended with ⟨done, moves, there⟩ | ⟨crashed, wild, more, some, there⟩
  · by_cases each : writer.settings.syncEach = true
    · rw [← moves.settings] at each
      obtain ⟨synced, synced', call, call', same', kept⟩ := both.matches_syncOn after there
      rw [carryOut_of_sync done each, call,
        carryOut_of_sync (outcome.trans done) (by rw [moved]; exact each), call']
      exact ⟨rfl, moved, both.abreast.tandem_countSuccess same' request,
        .inl ⟨entries, known, rfl, moves, kept⟩⟩
    · have never : (left.spill request writer a).writer.settings.syncEach = false := by
        rw [moves.settings]
        simpa using each
      rw [carryOut_of_done done never,
        carryOut_of_done (outcome.trans done) (by rw [moved]; exact never)]
      exact ⟨rfl, moved, both.abreast.tandem_countSuccess after request,
        .inl ⟨entries, known, rfl, moves, there⟩⟩
  · rw [carryOut_of_crashed crashed, carryOut_of_crashed (outcome.trans crashed)]
    exact ⟨rfl, moved, after, .inr ⟨rfl, wild, more, some, there⟩⟩

theorem matches_process (both : left.BothAppend right view view' most)
    (same : b.map view' = a.map view) {content : List UInt8} {request : Request} {writer : Writer}
    (atEnd : writer.AtEnd view content request.buffers a.file)
    (unpoisoned : writer.poisoned = false) (few : request.widest writer.settings ≤ most) :
    Verdict.Matches left.toPool view view' content request writer (left.process request writer a)
      (right.process request writer b) := by
  obtain ⟨entries, known⟩ := entries?_of_room atEnd.room
  simp only [process, unpoisoned, Bool.false_eq_true, if_false, refusal_of_framable atEnd.framable,
    known]
  exact both.matches_carryOut same atEnd known few

/-! ## Runs -/

theorem matches_abandon (both : left.BothAppend right view view' most)
    (same : b.map view' = a.map view) (orders : List Order) :
    (right.abandon orders b).map view' = (left.abandon orders a).map view := by
  induction orders generalizing a b with
  | nil => exact same
  | cons order later ih =>
    obtain ⟨-, handed⟩ := both.abreast.tandem_releaseAll same order.request.buffers
    apply ih
    simp only [Stage.reply, Stage.record_map, handed]
    rfl

variable {settings : Settings} {file : σ} {pool : π} {first : List UInt8} {s : Session σ π}
  {t : Session τ π}

theorem matches_hand (both : left.BothAppend right view view' most) (request : Request)
    (pair : s.Matches t view view' first) :
    (left.hand request s).Matches (right.hand request t) view view' first := by
  obtain ⟨same, stands⟩ := pair
  obtain ⟨spooler, stage, submitted, crashed, errands⟩ := Session.map_eq_iff.mp same
  obtain ⟨alike, handed⟩ := both.abreast.tandem_releaseAll stage request.buffers
  simp only [hand, submit, spooler, submitted, crashed, alike]
  by_cases empty : request.items.isEmpty = true
  · simp only [if_pos empty]
    refine ⟨Session.map_eq_iff.mpr ⟨rfl, ?_, rfl, rfl, errands⟩, stands⟩
    simp only [Stage.reply, Stage.record_map, stage]
    rfl
  · simp only [if_neg empty]
    by_cases alive : s.spooler.alive = true
    · simp only [if_pos alive]
      exact ⟨Session.map_eq_iff.mpr ⟨rfl, stage, rfl, rfl, errands⟩, stands⟩
    · simp only [if_neg alive]
      refine ⟨Session.map_eq_iff.mpr ⟨rfl, ?_, rfl, rfl, errands⟩, fun lives => absurd lives alive⟩
      simp only
      split
      · exact handed
      · simp only [Stage.reply, Stage.record_map, handed]
        rfl

/-- The writers come to the same request, which both answer alike or die over. -/
theorem matches_work (both : left.BothAppend right view view' most)
    (reached : left.Reaches settings file pool s) (fitting : Fitting first.length s.submitted)
    (few : ∀ order ∈ s.spooler.queue.head?, order.request.widest settings ≤ most)
    (pair : s.Matches t view view' first) :
    (left.work s).Matches (right.work t) view view' first := by
  obtain ⟨same, stands⟩ := pair
  obtain ⟨spooler, stage, submitted, crashed, errands⟩ := Session.map_eq_iff.mp same
  have calls : ∀ {a : Stage σ π} {b : Stage τ π}, b.map view' = a.map view → b.calls = a.calls := by
    intro a b same
    rw [← Stage.calls_map view', same, Stage.calls_map]
  cases queued : s.spooler.queue with
  | nil =>
    have none : left.work s = s := by simp [work, left.step_nil queued, queued]
    have queued' : t.spooler.queue = [] := by rw [spooler, queued]
    have none' : right.work t = t := by simp [work, right.step_nil queued', queued']
    rw [none, none']
    exact ⟨same, stands⟩
  | cons order later =>
    have queued' : t.spooler.queue = order :: later := by rw [spooler, queued]
    obtain ⟨unpoisoned, atEnd⟩ := Session.Matches.next ⟨same, stands⟩ reached.orderly fitting queued
    obtain ⟨-, -, cursor⟩ := stands (reached.orderly.alive_of_queue (by simp [queued]))
    obtain ⟨reply, moved, alike, ended⟩ := both.matches_process stage atEnd unpoisoned
      (by rw [reached.settings_eq]; exact few order (by simp [queued]))
    cases verdict : left.process order.request s.spooler.writer s.stage with
    | mk reply? writer last =>
    cases verdict' : right.process order.request s.spooler.writer t.stage with
    | mk reply?' writer' last' =>
    rw [verdict] at reply moved alike ended
    rw [verdict'] at reply moved alike
    obtain rfl : reply?' = reply? := reply
    obtain rfl : writer' = writer := moved
    rw [← spooler] at verdict'
    have replied : ∀ answer, (last'.reply order.ticket answer).map view' =
        (last.reply order.ticket answer).map view := by
      intro answer
      simp only [Stage.reply, Stage.record_map, alike]
      rfl
    rcases ended with ⟨entries, -, rfl, moves, there⟩ | ⟨rfl, -, more, some, there⟩
    · rw [left.work_of_reply queued verdict, right.work_of_reply queued' verdict']
      have moved : writer'.cursor = _ := moves.cursor
      refine ⟨Session.map_eq_iff.mpr ⟨by rw [spooler], replied _, submitted, crashed, ?_⟩,
        fun _ => ⟨moves.poisoned.trans unpoisoned, ?_, ?_⟩⟩
      · rw [errands, calls (replied _), calls stage]
      · rw [List.flatMap_append, List.flatMap_singleton, List.flatMap_append, ← List.append_assoc]
        exact there
      · rw [List.flatMap_append, List.flatMap_singleton, framesSize_append, ← Nat.add_assoc, ← cursor]
        exact moved
    · rw [left.work_of_death queued verdict, right.work_of_death queued' verdict']
      have abandoned := both.matches_abandon (replied (.error .closed)) later
      refine ⟨Session.map_eq_iff.mpr ⟨rfl, abandoned, submitted, crashed, ?_⟩, ?_⟩
      · rw [errands, calls abandoned, calls stage]
      · intro alive
        cases alive

theorem matches_run (both : left.BothAppend right view view' most) (acts : List Act)
    (reached : left.Reaches settings file pool s)
    (fitting : Fitting first.length (s.submitted ++ submissions acts))
    (few : ∀ errand ∈ (left.run acts s).errands, errand.order.request.widest settings ≤ most)
    (pair : s.Matches t view view' first) :
    (left.run acts s).Matches (right.run acts t) view view' first := by
  induction acts generalizing s t with
  | nil => exact pair
  | cons act acts ih =>
    cases act with
    | submit request =>
      refine ih (.act (.submit request) reached) ?_ few (both.matches_hand request pair)
      simpa [submissions, next, hand] using fitting
    | forget ticket => exact ih reached fitting few pair
    | step =>
      have taken : (left.work s).errands <+: (left.run acts (left.work s)).errands :=
        left.errands_run acts _
      refine ih (.act .step reached) fitting few
        (both.matches_work reached fitting.left (fun order next => ?_) pair)
      obtain ⟨later, queued⟩ := List.head?_eq_some_iff.mp next
      have own : ⟨order, (left.step s.spooler s.stage).2.calls.drop s.stage.calls.length⟩ ∈
          (left.work s).errands := by
        simp [work, queued]
      exact few _ (taken.subset own)

theorem matches_workOff (both : left.BothAppend right view view' most) (n : Nat)
    (reached : left.Reaches settings file pool s) (fitting : Fitting first.length s.submitted)
    (few : ∀ order ∈ s.spooler.queue, order.request.widest settings ≤ most)
    (pair : s.Matches t view view' first) :
    (left.workOff n s).Matches (right.workOff n t) view view' first := by
  induction n generalizing s t with
  | zero => exact pair
  | succ n ih =>
    refine ih (.act .step reached) fitting ?_ (both.matches_work reached fitting ?_ pair)
    · intro order waits
      exact few order ((left.queue_work s).subset waits)
    · intro order next
      exact few order (List.mem_of_mem_head? next)

/-- What waits is worked off alike before the spoolers are given up. -/
theorem matches_finish (both : left.BothAppend right view view' most) (ending : Ending)
    (reached : left.Reaches settings file pool s) (fitting : Fitting first.length s.submitted)
    (few : ∀ order ∈ s.spooler.queue, order.request.widest settings ≤ most)
    (pair : s.Matches t view view' first) :
    (left.finish ending s).Matches (right.finish ending t) view view' first := by
  obtain ⟨spooler, -⟩ := Session.map_eq_iff.mp pair.same
  have settled := both.matches_workOff s.spooler.queue.length reached fitting few pair
  rw [finish_eq_leave, finish_eq_leave, spooler]
  refine ⟨?_, fun alive => ?_⟩
  · rw [Session.leave_map, settled.same, ← Session.leave_map]
  · cases alive

theorem matches_fresh (both : left.BothAppend right view view' most) {other : τ}
    (here : view file = some first) (here' : view' other = some first) {spooler : Spooler}
    {stage : Stage σ π} (started : left.start settings (.start file pool) = (.done spooler, stage)) :
    ∃ stage', right.start settings (.start other pool) = (.done spooler, stage') ∧
      (Session.fresh spooler stage).Matches (.fresh spooler stage') view view' first := by
  obtain ⟨cursor, length, rfl, rfl⟩ := spooler_start started
  have named := named_of_start started
  obtain rfl : first.length = cursor :=
    Answer.done.inj ((both.first.length file first here).symm.trans length)
  refine ⟨_, start_of_length (both.second.length other first here') named,
    Session.map_eq_iff.mpr ⟨rfl, ?_, rfl, rfl, rfl⟩, fun _ => ⟨rfl, ?_, rfl⟩⟩
  · simp only [Session.fresh, Stage.note, Stage.record_map]
    simp [Stage.map, Stage.start, here, here', Event.map]
  · exact here.trans (by simp [Session.fresh])

end BothAppend

end Surroundings
end Spillway
