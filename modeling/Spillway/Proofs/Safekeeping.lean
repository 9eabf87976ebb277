import Spillway.Proofs.Calls
import Spillway.Proofs.Cursor
import Spillway.Proofs.Placement
/-!
No buffer is let go before it is written, unless its request fails. While the writer is at a request, the
frames of its first buffers are in the file by the time these go back, and they stay (`Safe`): as many
of them as the cursor moves on by. The request can only be answered with its entries if these are all.
There is one lemma about this for each function of the writer, up to `Surroundings.handles_process`, and
in a session every segment goes back while a request is handled.
-/

namespace Spillway

variable {σ π : Type}

/-- The first buffers to go back from the moment `old` on are `kept`, and whenever one of them had gone
back, its frame was in the file, behind those of the buffers before it, which lie from `offset` on. -/
def Safe (env : Surroundings σ π) (bytes : σ → List UInt8) (file : σ) (offset : Nat)
    (kept : List Buffer) (old journal : List (Event σ)) : Prop :=
  ∀ moment, old <:+ moment → moment <:+ journal →
    (kept.take ((handovers moment).length - (handovers old).length)).flatMap Buffer.framed <+:
      (bytes (env.fileAt file moment)).drop offset

/-- If the event is a write, `P` is true of the journal on which it was made, and of what it offered
where. -/
def Event.OnWrite (P : List (Event σ) → Nat → List Extent → Prop) :
    Event σ → List (Event σ) → Prop
  | .called (.write position slices _), older => P older position slices
  | _, _ => True

/-- If a segment goes back, it is the file as the calls before have left it that its pool gets to see. -/
def Event.Shows (store : Store σ) (file : σ) : Event σ → List (Event σ) → Prop
  | .released _ _ seen, older => seen = store.fileAt file older
  | _, _ => True

/-- An event that comes when the frames of a request have been written and its buffers are gone. -/
def Event.IsLate : Event σ → Prop
  | .called (.write _ _ _) | .released _ _ _ => False
  | _ => True

/-- Work on some buffers that moves the writer on by the first `whole` of them, whose frames are safe
when they go back. These are all buffers if the work is done. -/
structure Work.Keeps (env : Surroundings σ π) (bytes : σ → List UInt8) (file : σ) (writer : Writer)
    (buffers : List Buffer) (before : Stage σ π) (whole : Nat) (work : Work σ π) : Prop where
  le : whole ≤ buffers.length
  all : work.outcome = .done → whole = buffers.length
  moves : writer.Moves work.writer (framesSize (buffers.take whole))
  safe : Safe env bytes file writer.cursor (buffers.take whole) before.journal work.stage.journal
  shows : Grown (Event.Shows env.toStore file) before.journal work.stage.journal

/-- The write is one for a batch of the request, whose frames begin at `start`, made when exactly the
buffers of the batches before it had gone back. -/
def OffersBatch (settings : Settings) (request : Request) (start : Nat)
    (gone : List (Owner × Segment)) (older : List (Event σ)) (position : Nat) (slices : List Extent) :
    Prop :=
  ∃ front batch back, batches settings.framesPerWrite request.buffers = front ++ batch :: back ∧
    Offers batch (start + framesSize front.flatten) (gone ++ front.flatten.map Buffer.handover)
      older position slices

/-- What the writer made of a request between the moments `begun` and `ended`: the file holds the frames
of its first `whole` buffers, and the cursor is behind them. The segments of all its buffers went back,
those of the first ones when they were safe. -/
structure Handled (env : Surroundings σ π) (bytes : σ → List UInt8) (file : σ) (settings : Settings)
    (start : Nat) (request : Request) (reply : Reply) (begun ended : List (Event σ)) (whole : Nat) :
    Prop where
  work : ∃ new, ended = new ++ begun ∧ ∀ event ∈ new, event.IsWork (cursorAt start begun)
  handed : handovers ended = handovers begun ++ request.handovers
  le : whole ≤ request.buffers.length
  framable : Framable (request.buffers.take whole)
  moved : cursorAt start ended =
    cursorAt start begun + framesSize (request.buffers.take whole)
  all : ∀ entries, reply = .ok entries →
    whole = request.buffers.length ∧ request.entries? (cursorAt start begun) = some entries
  safe : Safe env bytes file (cursorAt start begun) (request.buffers.take whole) begun ended
  writes : Grown (Event.OnWrite (OffersBatch settings request (cursorAt start begun)
    (handovers begun))) begun ended
  shows : Grown (Event.Shows env.toStore file) begun ended

/-- The file held the frame of a buffer when its segment went back at the moment `older`, and has held
it ever since. -/
structure Session.Holds (env : Surroundings σ π) (bytes : σ → List UInt8) (file : σ)
    (s : Session σ π) (older : List (Event σ)) (seen : σ) (buffer : Buffer) (offset : Nat) : Prop where
  now : buffer.framed <+: (bytes seen).drop offset
  since : ∀ moment, .released buffer.owner buffer.segment seen :: older <:+ moment →
    moment <:+ s.stage.journal → buffer.framed <+: (bytes (env.fileAt file moment)).drop offset

/-- What was in the file below the cursor stays there. -/
theorem Store.Retains.stays {store : Store σ} {bytes : σ → List UInt8} (retains : store.Retains bytes)
    (file : σ) {start : Nat} {earlier moment : List (Event σ)} (before : earlier <:+ moment)
    (inPlace : AtEveryMoment (InPlace start) moment) :
    (bytes (store.fileAt file earlier)).take (cursorAt start earlier) <+:
      bytes (store.fileAt file moment) := by
  obtain ⟨new, rfl⟩ := before
  induction new with
  | nil => exact List.take_prefix _ _
  | cons event new ih =>
    have first := ih fun moment suffix => inPlace moment (suffix.trans (List.suffix_cons _ _))
    cases event with
    | called call =>
      have above : call.Above (cursorAt start earlier) :=
        Surroundings.above_of_inPlace inPlace (List.suffix_refl _) (List.suffix_append _ _)
      exact take_prefix_trans first (retains.redo above _) (Nat.le_refl _)
    | released _ _ _ | counted _ _ | noted _ | replied _ _ | crashed => exact first

theorem Event.OnlyWrites.onWrite {P : List (Event σ) → Nat → List Extent → Prop}
    (event : Event σ) (older : List (Event σ)) (only : event.OnlyWrites P older) :
    event.OnWrite P older := by
  cases event with
  | called call =>
    cases call with
    | write position slices answer => exact only
    | truncate _ _ | sync _ => trivial
  | released _ _ _ | counted _ _ | noted _ | replied _ _ | crashed => trivial

theorem Event.IsLate.onWrite {event : Event σ} (late : event.IsLate)
    (P : List (Event σ) → Nat → List Extent → Prop) (older : List (Event σ)) :
    event.OnWrite P older := by
  cases event with
  | called call =>
    cases call with
    | write _ _ _ => exact late.elim
    | truncate _ _ | sync _ => trivial
  | released _ _ _ | counted _ _ | noted _ | replied _ _ | crashed => trivial

theorem Event.IsLate.shows {event : Event σ} (late : event.IsLate) (store : Store σ) (file : σ)
    (older : List (Event σ)) : event.Shows store file older := by
  cases event with
  | released _ _ _ => exact late.elim
  | called _ | counted _ _ | noted _ | replied _ _ | crashed => trivial

theorem Event.IsTransfer.shows {event : Event σ} (transfer : event.IsTransfer) (store : Store σ)
    (file : σ) (older : List (Event σ)) : event.Shows store file older := by
  cases event with
  | released _ _ _ => exact transfer.elim
  | called _ | counted _ _ | noted _ | replied _ _ | crashed => trivial

namespace Grown

variable {old journal : List (Event σ)} {store : Store σ} {file : σ}

theorem fileAt_eq (none : Grown (Event.OnlyWrites fun _ _ _ => False) old journal)
    (store : Store σ) (file : σ) {moment : List (Event σ)} (before : old <:+ moment)
    (within : moment <:+ journal) : store.fileAt file moment = store.fileAt file old := by
  obtain ⟨new, rfl⟩ := before
  induction new with
  | nil => rfl
  | cons event new ih =>
    have first := ih ((List.suffix_cons _ _).trans within)
    cases event with
    | called call =>
      have never := none.each _ _ within (List.suffix_append _ _)
      cases call <;> exact never.elim
    | released _ _ _ | counted _ _ | noted _ | replied _ _ | crashed => exact first

theorem shows_releaseAll {stage : Stage σ π} (grown : Grown (Event.Shows store file) old stage.journal)
    (pool : Pool π) (buffers : List Buffer) (here : stage.file = store.fileAt file stage.journal) :
    Grown (Event.Shows store file) old (pool.releaseAll buffers stage).2.journal := by
  induction buffers generalizing stage with
  | nil => exact grown
  | cons buffer rest ih =>
    have gone : Grown (Event.Shows store file) old
        (.released buffer.owner buffer.segment stage.file :: stage.journal) := grown.cons here
    have same := (Stage.Untouched.release pool buffer stage).file
    apply ih
    · rw [pool.journal_release]
      split
      · exact gone.cons trivial
      · exact gone
    · rw [same, pool.journal_release]
      split
      · exact here
      · exact here

end Grown

namespace Safe

variable {env : Surroundings σ π} {bytes : σ → List UInt8} {file : σ} {start offset : Nat}
  {kept next : List Buffer} {old between journal : List (Event σ)}

theorem nil (env : Surroundings σ π) (bytes : σ → List UInt8) (file : σ) (offset : Nat)
    (old journal : List (Event σ)) : Safe env bytes file offset [] old journal := by
  intro moment before within
  rw [List.take_nil]
  exact List.nil_prefix

/-- Frames are safe that are in the file before the first buffer goes back, if the file is not called
afterwards. -/
theorem of_written (same : handovers between = handovers old)
    (rest : Grown (Event.OnlyWrites fun _ _ _ => False) between journal)
    (there : kept.flatMap Buffer.framed <+: (bytes (env.fileAt file between)).drop offset) :
    Safe env bytes file offset kept old journal := by
  intro moment before within
  rcases List.suffix_or_suffix_of_suffix within rest.suffix with early | late
  · have none := length_handovers_le early
    rw [same] at none
    rw [Nat.sub_eq_zero_of_le none]
    exact List.nil_prefix
  · rw [rest.fileAt_eq env.toStore file late within]
    exact (framed_isPrefix (List.take_prefix _ _)).trans there

theorem stay (safe : Safe env bytes file offset kept old between) (retains : env.Retains bytes)
    (framable : Framable kept) (begun : old <:+ between)
    (gone : (handovers old).length + kept.length ≤ (handovers between).length)
    (cursor : cursorAt start between = offset + framesSize kept) {moment : List (Event σ)}
    (late : between <:+ moment) (inPlace : AtEveryMoment (InPlace start) moment) :
    kept.flatMap Buffer.framed <+: (bytes (env.fileAt file moment)).drop offset := by
  have there := safe between begun (List.suffix_refl _)
  rw [List.take_of_length_le (by omega)] at there
  apply prefix_drop_of_take there ?_ (retains.stays file late inPlace)
  exact Nat.le_of_eq (by rw [length_framed_flatMap framable, cursor])

/-- What is safe stays so when the writer goes on. -/
theorem keep (safe : Safe env bytes file offset kept old between) (retains : env.Retains bytes)
    (framable : Framable kept) (begun : old <:+ between)
    (gone : (handovers old).length + kept.length ≤ (handovers between).length)
    (cursor : cursorAt start between = offset + framesSize kept) (grown : between <:+ journal)
    (inPlace : AtEveryMoment (InPlace start) journal) :
    Safe env bytes file offset kept old journal := by
  intro moment before within
  rcases List.suffix_or_suffix_of_suffix within grown with early | late
  · exact safe moment before early
  · have stays := safe.stay retains framable begun gone cursor late
      fun earlier suffix => inPlace earlier (suffix.trans within)
    exact (framed_isPrefix (List.take_prefix _ _)).trans stays

theorem trans (first : Safe env bytes file offset kept old between)
    (second : Safe env bytes file (offset + framesSize kept) next between journal)
    (retains : env.Retains bytes) (framable : Framable kept) (begun : old <:+ between)
    (gone : (handovers between).length = (handovers old).length + kept.length)
    (cursor : cursorAt start between = offset + framesSize kept) (grown : between <:+ journal)
    (inPlace : AtEveryMoment (InPlace start) journal) :
    Safe env bytes file offset (kept ++ next) old journal := by
  intro moment before within
  rcases List.suffix_or_suffix_of_suffix within grown with early | late
  · have few := length_handovers_le early
    rw [List.take_append_of_le_length (by omega)]
    exact first moment before early
  · have more := length_handovers_le late
    have stays := first.stay retains framable begun (Nat.le_of_eq gone.symm) cursor late
      fun earlier suffix => inPlace earlier (suffix.trans within)
    have split : (handovers moment).length - (handovers old).length =
        kept.length + ((handovers moment).length - (handovers between).length) := by omega
    rw [split, List.take_length_add_append, List.flatMap_append, append_prefix_drop_iff,
      length_framed_flatMap framable]
    exact ⟨stays, second moment late within⟩

theorem before (safe : Safe env bytes file offset kept between journal)
    (quiet : handovers between = handovers old) (grown : between <:+ journal) :
    Safe env bytes file offset kept old journal := by
  intro moment before within
  rw [← quiet]
  rcases List.suffix_or_suffix_of_suffix within grown with early | late
  · have none := length_handovers_le early
    rw [Nat.sub_eq_zero_of_le none]
    exact List.nil_prefix
  · exact safe moment late within

/-- The frame of a buffer that has gone back and is kept is in the file. -/
theorem frame (safe : Safe env bytes file offset kept old journal) (framable : Framable kept)
    {place : Nat} {buffer : Buffer} (found : kept[place]? = some buffer)
    {moment : List (Event σ)} (before : old <:+ moment) (within : moment <:+ journal)
    (gone : (handovers old).length + place < (handovers moment).length) :
    buffer.framed <+:
      (bytes (env.fileAt file moment)).drop (offset + framesSize (kept.take place)) := by
  have inside : place < kept.length := (List.getElem?_eq_some_iff.mp found).1
  have there := safe moment before within
  have first : (kept.take place ++ [buffer]) <+:
      kept.take ((handovers moment).length - (handovers old).length) := by
    have taken : kept.take (place + 1) = kept.take place ++ [buffer] := by
      rw [List.take_add_one, found, Option.toList_some]
    rw [← taken]
    exact List.take_prefix_take_left (by omega)
  have both := (framed_isPrefix first).trans there
  rw [List.flatMap_append, append_prefix_drop_iff, length_framed_flatMap (framable.take place)] at both
  simpa using both.2

end Safe

namespace Work.Keeps

variable {env : Surroundings σ π} {bytes : σ → List UInt8} {file : σ} {start : Nat} {writer : Writer}
  {before : Stage σ π} {work rest : Work σ π}

/-- Work that kept all of its buffers is followed by work on others. -/
theorem followed (retains : env.Retains bytes) {batch later : List Buffer}
    (framable : Framable batch) {more : Nat}
    (first : work.Keeps env bytes file writer batch before batch.length)
    (second : rest.Keeps env bytes file work.writer later work.stage more)
    (begun : before.journal <:+ work.stage.journal)
    (gone : (handovers work.stage.journal).length = (handovers before.journal).length + batch.length)
    (books : work.writer.Books start 0 work.stage.journal)
    (grown : work.stage.journal <:+ rest.stage.journal)
    (inPlace : AtEveryMoment (InPlace start) rest.stage.journal) :
    rest.Keeps env bytes file writer (batch ++ later) before (batch.length + more) := by
  have moves := first.moves
  have safe := first.safe
  rw [List.take_length] at moves safe
  have cursor : cursorAt start work.stage.journal = writer.cursor + framesSize batch := by
    rw [← moves.cursor, books.cursor]
  refine ⟨?_, ?_, ?_, ?_, first.shows.trans second.shows⟩
  · rw [List.length_append]
    exact Nat.add_le_add_left second.le _
  · intro finished
    rw [List.length_append, second.all finished]
  · rw [List.take_length_add_append, framesSize_append]
    exact moves.trans second.moves
  · rw [List.take_length_add_append]
    refine safe.trans ?_ retains framable begun gone cursor grown inPlace
    rw [← moves.cursor]
    exact second.safe

/-- Work that was not done is followed by nothing but releases. -/
theorem stopped (retains : env.Retains bytes) {batch later : List Buffer}
    (framable : Framable batch) {whole pending : Nat}
    (first : work.Keeps env bytes file writer batch before whole)
    (fails : rest.outcome ≠ .done) (same : rest.writer = work.writer)
    (begun : before.journal <:+ work.stage.journal)
    (gone : (handovers work.stage.journal).length = (handovers before.journal).length + batch.length)
    (books : work.writer.Books start pending work.stage.journal)
    (grown : work.stage.journal <:+ rest.stage.journal)
    (inPlace : AtEveryMoment (InPlace start) rest.stage.journal)
    (shows : Grown (Event.Shows env.toStore file) before.journal rest.stage.journal) :
    rest.Keeps env bytes file writer (batch ++ later) before whole := by
  obtain ⟨le, -, moves, safe, -⟩ := first
  have cursor : cursorAt start work.stage.journal =
      writer.cursor + framesSize (batch.take whole) := by
    rw [← moves.cursor, books.cursor]
  refine ⟨?_, fun done => absurd done fails, ?_, ?_, shows⟩
  · rw [List.length_append]
    exact Nat.le_add_right_of_le le
  · rw [List.take_append_of_le_length le, same]
    exact moves
  · rw [List.take_append_of_le_length le]
    refine safe.keep retains (framable.take whole) begun ?_ cursor grown inPlace
    rw [gone, List.length_take_of_le le]
    exact Nat.add_le_add_left le _

end Work.Keeps

namespace Surroundings

variable {env : Surroundings σ π} {bytes : σ → List UInt8} {file : σ} {start : Nat}

/-! ## A batch, a request -/

theorem Effect.file_eq {low : Nat} {released : List Buffer} {crashed : Prop}
    {before after : Stage σ π} (effect : env.Effect low released crashed before after)
    (here : before.file = env.fileAt file before.journal) :
    after.file = env.fileAt file after.journal := by
  obtain ⟨new, journal, file_eq, -⟩ := effect
  rw [file_eq, journal, here, fileAt_append]

/-- A batch is settled when its frames are in the file as far as the file took them. -/
theorem keeps_settleBatch (calm : env.Calm) {batch : List Buffer} (framable : Framable batch)
    {n : Nat} {outcome : Outcome} {writer : Writer} {before between : Stage σ π} (notice : Notice)
    (some : outcome ≠ .crashed) (same : handovers between.journal = handovers before.journal)
    (here : between.file = env.fileAt file between.journal)
    (shows : Grown (Event.Shows env.toStore file) before.journal between.journal)
    (there : (batch.flatMap Buffer.framed).take n <+: (bytes between.file).drop writer.cursor)
    (all : outcome = .done → n = (batch.flatMap Buffer.framed).length) :
    (env.settleBatch batch n outcome writer (between.note notice)).Keeps env bytes file writer batch
      before (wholeWithin n batch) := by
  have ends := calm_settleBatch calm batch n outcome writer (between.note notice)
  obtain ⟨-, -, moves⟩ := moves_settleBatch batch n outcome writer (between.note notice)
    (by rwa [ends])
  have quiet : Grown (Event.OnlyWrites fun _ _ _ => False) between.journal
      (env.settleBatch batch n outcome writer (between.note notice)).stage.journal :=
    env.writes_settleBatch batch n outcome writer ((Grown.refl _ _).cons trivial)
  have noted : Grown (Event.Shows env.toStore file) before.journal (between.note notice).journal :=
    shows.cons trivial
  refine ⟨wholeWithin_le n batch, ?_, moves, .of_written same quiet ?_, ?_⟩
  · intro done
    rw [ends] at done
    rw [all done, length_framed_flatMap framable, wholeWithin_framesSize]
  · rw [← here]
    exact (framed_wholeWithin framable n).trans there
  · have committed := noted.shows_releaseAll env.toPool batch here
    rw [← (env.commit_releases n 0 batch (between.note notice)).2] at committed
    simp only [settleBatch]
    split
    · exact committed
    · exact committed.cons trivial

theorem keeps_writeBatch (retains : env.Retains bytes) (calm : env.Calm) {batch : List Buffer}
    (framable : Framable batch) (writer : Writer) {stage : Stage σ π}
    (here : stage.file = env.fileAt file stage.journal) :
    ∃ whole, (env.writeBatch batch writer stage).Keeps env bytes file writer batch stage whole := by
  obtain ⟨frames, encoded, joined⟩ := encode_batch framable
  have moved := retains.writes.writing_transferFrom writer.cursor 0
    (frames.flatMap Frame.slices) 0 stage
  have effect := env.effect_transferFrom writer.cursor 0 (frames.flatMap Frame.slices) 0 stage
  have same := effect.handovers_eq
  have after := effect.file_eq here
  have shows : Grown (Event.Shows env.toStore file) stage.journal
      (env.transferFrom writer.cursor 0 (frames.flatMap Frame.slices) 0 stage).stage.journal := by
    obtain ⟨new, grown, transfer⟩ :=
      env.events_transferFrom writer.cursor 0 (frames.flatMap Frame.slices) 0 stage
    rw [grown]
    exact .of_new (fun event member older => (transfer event member).shows env.toStore file older) _
  unfold writeBatch
  simp only [encoded, Store.transfer]
  rw [List.map_nil, List.append_nil] at same
  rw [joined] at moved
  generalize env.transferFrom writer.cursor 0 (frames.flatMap Frame.slices) 0 stage = transfer
    at moved same after shows
  cases finish : transfer.finish with
  | crashed =>
    refine ⟨0, Nat.zero_le _, ?_, .refl writer, .nil env bytes file writer.cursor _ _,
      shows.shows_releaseAll env.toPool batch after⟩
    intro done
    cases done
  | failed failure =>
    obtain ⟨n, calls, written, writing⟩ := moved (by simp [finish])
    rw [Nat.add_zero, Nat.zero_add] at written
    rw [written]
    exact ⟨_, keeps_settleBatch calm framable _ (by simp) same after shows
      writing.wrote.there (by simp)⟩
  | done value =>
    obtain ⟨n, calls, written, writing⟩ := moved (by simp [finish])
    rw [Nat.add_zero, Nat.zero_add] at written
    rw [written]
    exact ⟨_, keeps_settleBatch calm framable _ (by simp) same after shows
      writing.wrote.there
      fun _ => (writing.of_done finish).1⟩

theorem keeps_writeBatches (retains : env.Retains bytes) (calm : env.Calm)
    {batches : List (List Buffer)} (framable : Framable batches.flatten) {writer : Writer}
    {stage : Stage σ π} (books : writer.Books start 0 stage.journal)
    (here : stage.file = env.fileAt file stage.journal) :
    ∃ whole, (env.writeBatches batches writer stage).Keeps env bytes file writer batches.flatten
      stage whole := by
  fun_induction env.writeBatches batches writer stage with
  | case1 writer stage =>
    exact ⟨0, Nat.le_refl _, fun _ => rfl, .refl writer, .nil env bytes file writer.cursor _ _,
      .refl _ _⟩
  | case2 batch later writer stage work done ih =>
    rw [List.flatten_cons] at framable ⊢
    have effect := env.effect_writeBatch batch writer stage
    have handed := congrArg List.length effect.handovers_eq
    rw [List.length_append, List.length_map] at handed
    obtain ⟨whole, first⟩ := keeps_writeBatch retains calm framable.left writer here
    obtain rfl := first.all done
    obtain ⟨pending, books', settled⟩ := env.booked_writeBatch batch books
    obtain rfl := settled (by rw [done]; simp)
    obtain ⟨more, rest⟩ := ih framable.right books' (effect.file_eq here)
    obtain ⟨_, after, -⟩ := env.booked_writeBatches later books'
    have grown := (env.effect_writeBatches later work.writer work.stage).suffix
    exact ⟨batch.length + more, first.followed retains framable.left rest effect.suffix handed books'
      grown after.inPlace⟩
  | case3 batch later writer stage work dropped fails =>
    rw [List.flatten_cons] at framable ⊢
    have effect := env.effect_writeBatch batch writer stage
    have handed := congrArg List.length effect.handovers_eq
    rw [List.length_append, List.length_map] at handed
    obtain ⟨whole, first⟩ := keeps_writeBatch retains calm framable.left writer here
    obtain ⟨pending, books', -⟩ := env.booked_writeBatch batch books
    have grown := (env.effect_releaseAll 0 later.flatten work.stage).suffix
    have after := books'.releaseAll env.toPool later.flatten
    refine ⟨whole, first.stopped retains framable.left ?_ rfl effect.suffix handed books' grown
      after.inPlace (first.shows.shows_releaseAll env.toPool later.flatten (effect.file_eq here))⟩
    intro done
    simp only at done
    split at done
    · cases done
    · exact absurd done fails

/-- A repair makes one call, the cut, and reports it unless it crashed. -/
theorem journal_repair (env : Surroundings σ π) (writer : Writer) (stage : Stage σ π) :
    ∃ answer, ∃ notices : List Notice, (env.repair writer stage).2.2.journal =
      notices.map .noted ++ .called (.truncate writer.cursor answer) :: stage.journal := by
  unfold repair
  cases truncated : env.truncateOn writer.cursor stage with
  | mk answer after =>
    have cut : after.journal = .called (.truncate writer.cursor answer) :: stage.journal := by
      cases truncated
      rfl
    refine ⟨answer, ?_⟩
    cases answer with
    | done value => exact ⟨[.truncated writer.cursor], congrArg _ cut⟩
    | failed failure => exact ⟨[.unrepaired writer.cursor failure], congrArg _ cut⟩
    | crashed => exact ⟨[], cut⟩

/-- What comes after the frames of a request have been written: the cursor stays where it is, nothing is
written, and only a request that is done is answered with its entries. -/
theorem after_spill (env : Surroundings σ π) (request : Request) (entries : List Entry)
    (writer : Writer) (stage : Stage σ π) :
    let spilt := env.spill request writer stage
    let verdict := env.carryOut request entries writer stage
    verdict.writer.cursor = spilt.writer.cursor ∧
      (∃ new, verdict.stage.journal = new ++ spilt.stage.journal ∧ ∀ event ∈ new, event.IsLate) ∧
      ∀ found, verdict.reply? = some (.ok found) → spilt.outcome = .done ∧ found = entries := by
  intro spilt verdict
  have same : verdict = env.carryOut request entries writer stage := rfl
  cases outcome : spilt.outcome with
  | crashed =>
    rw [carryOut_of_crashed outcome] at same
    rw [same]
    exact ⟨rfl, ⟨[], rfl, by simp [Event.IsLate]⟩, by simp⟩
  | failed error =>
    rw [carryOut_of_failed outcome] at same
    obtain ⟨answer, notices, journal⟩ := journal_repair env spilt.writer
      (spilt.stage.countFailure request writer.cursor (spilt.writer.cursor - writer.cursor) error)
    rw [same]
    refine ⟨env.cursor_repair _ _, ⟨notices.map .noted ++
      [.called (.truncate spilt.writer.cursor answer),
        .noted (.failed request.items.length writer.cursor
          (spilt.writer.cursor - writer.cursor) error), .counted .failedRequests 1], ?_, ?_⟩, ?_⟩
    · rw [List.append_assoc]
      exact journal
    · refine List.forall_mem_append.mpr ⟨fun event member => ?_, by simp [Event.IsLate]⟩
      obtain ⟨notice, -, rfl⟩ := List.mem_map.mp member
      trivial
    · intro found answered
      simp only at answered
      split at answered <;> simp at answered
  | done =>
    by_cases each : spilt.writer.settings.syncEach = true
    · rw [carryOut_of_sync outcome each] at same
      have called : (env.syncOn spilt.stage).2.journal =
          .called (.sync (env.syncOn spilt.stage).1) :: spilt.stage.journal := rfl
      generalize env.syncOn spilt.stage = synced at same called
      obtain ⟨answer, after⟩ := synced
      simp only at called
      rw [same]
      cases answer with
      | crashed => exact ⟨rfl, ⟨[_], called, by simp [Event.IsLate]⟩, by simp⟩
      | failed failure =>
        exact ⟨rfl, ⟨[_, _, _], congrArg (fun journal => _ :: _ :: journal) called, by simp [Event.IsLate]⟩, by simp⟩
      | done value =>
        refine ⟨rfl, ⟨[_, _, _, _], congrArg (fun journal => _ :: _ :: _ :: journal) called, by simp [Event.IsLate]⟩, ?_⟩
        intro found answered
        cases answered
        exact ⟨rfl, rfl⟩
    · rw [carryOut_of_done outcome (by simpa using each)] at same
      rw [same]
      refine ⟨rfl, ⟨[_, _, _], rfl, by simp [Event.IsLate]⟩, ?_⟩
      intro found answered
      cases answered
      exact ⟨rfl, rfl⟩

/-- The frames of a request are safe when its buffers go back, as far as the writer moves on. -/
theorem keeps_spill (retains : env.Retains bytes) (calm : env.Calm) {request : Request}
    (accepted : request.refusal? = none) {writer : Writer} {stage : Stage σ π}
    (books : writer.Books start 0 stage.journal)
    (here : stage.file = env.fileAt file stage.journal) :
    ∃ whole, (env.spill request writer stage).Keeps env bytes file writer request.buffers stage
      whole := by
  have cut := flatten_batches writer.settings.framesPerWrite request.buffers
  have framable : Framable (batches writer.settings.framesPerWrite request.buffers).flatten := by
    rw [cut]
    exact framable_of_refusal accepted
  let noted := stage.note (.spilling request.items.length request.framedSize writer.cursor)
  have reported : writer.Books start 0 noted.journal := books.note rfl
  obtain ⟨whole, keeps⟩ := keeps_writeBatches retains calm framable reported here
  rw [cut] at keeps
  obtain ⟨le, all, moves, safe, shows⟩ := keeps
  exact ⟨whole, le, all, moves, safe.before rfl shows.suffix,
    ((Grown.refl _ _).cons trivial).trans shows⟩

variable {settings : Settings}

/-- Buffers that are dropped are not in the file, and the cursor stays where it is. -/
theorem handled_of_dropped (request : Request) (error : SpillError) {begun : List (Event σ)}
    {stage : Stage σ π} (here : stage.file = env.fileAt file stage.journal)
    (top : stage.journal = begun ∨ stage.journal = .crashed :: begun) :
    Handled env bytes file settings start request (.error error) begun
      (env.releaseAll request.buffers stage).2.journal 0 := by
  obtain ⟨new, journal, -, -, work, handed, -⟩ :=
    env.effect_releaseAll (cursorAt start begun) request.buffers stage
  have first : ∃ front, stage.journal = front ++ begun ∧
      (∀ event ∈ front, event.IsWork (cursorAt start begun)) ∧
      handovers stage.journal = handovers begun ∧ writtenIn stage.journal = writtenIn begun ∧
      ∀ P : Event σ → List (Event σ) → Prop, (∀ older, P .crashed older) →
        Grown P begun stage.journal := by
    rcases top with same | crashed
    · rw [same]
      exact ⟨[], rfl, by simp, rfl, rfl, fun P _ => .refl P begun⟩
    · rw [crashed]
      exact ⟨[.crashed], rfl, by simp [Event.IsWork], rfl, rfl,
        fun P crash => (Grown.refl P begun).cons (crash begun)⟩
  obtain ⟨front, grown, isWork, same, counted, before⟩ := first
  refine ⟨⟨new ++ front, ?_, List.forall_mem_append.mpr ⟨work, isWork⟩⟩, ?_, Nat.zero_le _, ?_, ?_,
    ?_, .nil _ _ _ _ _ _, ?_, (before _ fun _ => trivial).shows_releaseAll _ _ here⟩
  · rw [journal, grown, List.append_assoc]
  · rw [journal, handovers_append, handed, same]
    rfl
  · intro buffer member
    cases member
  · rw [cursorAt, writtenIn_releaseAll, counted]
    rfl
  · intro entries answered
    cases answered
  · exact (before _ fun _ => trivial).releaseAll _ _ (fun _ => trivial) fun _ _ _ _ => trivial

theorem handled_carryOut (retains : env.Retains bytes) (calm : env.Calm) {request : Request}
    (accepted : request.refusal? = none) {entries : List Entry} {writer : Writer}
    (known : request.entries? writer.cursor = some entries) {stage : Stage σ π}
    (books : writer.Books start 0 stage.journal) (own : writer.settings = settings)
    (here : stage.file = env.fileAt file stage.journal) :
    ∃ whole, Handled env bytes file settings start request
      ((env.carryOut request entries writer stage).reply?.getD (.error .closed)) stage.journal
      (env.carryOut request entries writer stage).stage.journal whole := by
  subst own
  obtain ⟨whole, le, all, moves, safe, shows⟩ := keeps_spill retains calm accepted books here
  obtain ⟨cursor, ⟨new, grown, late⟩, answered⟩ :=
    after_spill env request entries writer stage
  obtain ⟨_, after, -⟩ := env.booked_carryOut request entries books
  obtain ⟨_, wrote, -⟩ := env.booked_spill request books
  have all_gone := (env.effect_carryOut request entries writer stage).handovers_eq
  have spilt := env.effect_spill request writer stage
  have framable := (framable_of_refusal accepted).take whole
  have writes := ((env.writes_spill accepted writer stage).mono Event.OnlyWrites.onWrite).trans
    (.of_new (fun event member older => (late event member).onWrite _ older) _)
  have shows := shows.trans
    (.of_new (fun event member older => (late event member).shows env.toStore file older) _)
  obtain ⟨events, journal, -, -, work, -⟩ := env.effect_carryOut request entries writer stage
  have handed := congrArg List.length spilt.handovers_eq
  rw [List.length_append, List.length_map] at handed
  have safe := safe.keep retains framable spilt.suffix
    (by rw [handed, List.length_take_of_le le]; exact Nat.add_le_add_left le _)
    (by rw [← wrote.cursor, moves.cursor]) ⟨new, grown.symm⟩ after.inPlace
  rw [books.cursor] at known work safe
  rw [← grown, books.cursor] at writes
  rw [← grown] at shows
  refine ⟨whole, ⟨events, journal, work⟩, all_gone, le, framable, ?_, ?_, safe, writes, shows⟩
  · rw [← after.cursor, cursor, moves.cursor, books.cursor]
  · intro found replied
    have given : (env.carryOut request entries writer stage).reply? = some (.ok found) := by
      cases reply : (env.carryOut request entries writer stage).reply? with
      | none =>
        rw [reply] at replied
        cases replied
      | some reply' =>
        rw [reply] at replied
        exact congrArg some replied
    obtain ⟨done, rfl⟩ := answered found given
    exact ⟨all done, known⟩

theorem handles_process (retains : env.Retains bytes) (calm : env.Calm) (request : Request)
    {writer : Writer} {stage : Stage σ π} (books : writer.Books start 0 stage.journal)
    (own : writer.settings = settings) (here : stage.file = env.fileAt file stage.journal) :
    ∃ whole, Handled env bytes file settings start request
      ((env.process request writer stage).reply?.getD (.error .closed)) stage.journal
      (env.process request writer stage).stage.journal whole := by
  have refused : ∀ error, ∃ whole, Handled env bytes file settings start request
      ((env.refuse request error writer stage).reply?.getD (.error .closed)) stage.journal
      (env.refuse request error writer stage).stage.journal whole := by
    intro error
    have dropped : (env.releaseAll request.buffers stage).1 = false :=
      calm_releaseAll calm request.buffers stage
    simp only [refuse, dropped, Bool.false_eq_true, if_false, Option.getD_some]
    exact ⟨0, handled_of_dropped request error here (.inl rfl)⟩
  unfold process
  split
  · exact refused .poisoned
  · split
    · exact refused _
    · rename_i accepted
      split
      · exact ⟨0, handled_of_dropped request .closed here (.inr rfl)⟩
      · rename_i entries known
        exact handled_carryOut retains calm accepted known books own here

end Surroundings

/-- Every segment that has gone back did so while a request was handled, which has been answered. -/
def Attended (env : Surroundings σ π) (bytes : σ → List UInt8) (file : σ) (settings : Settings)
    (start : Nat) (submitted : List Request) (journal : List (Event σ)) : Prop :=
  ∀ owner segment seen older, .released owner segment seen :: older <:+ journal →
    ∃ ticket request reply begun ended whole, submitted[ticket]? = some request ∧
      Handled env bytes file settings start request reply begun ended whole ∧
      begun <:+ older ∧ .released owner segment seen :: older <:+ ended ∧
      .replied ticket reply :: ended <:+ journal

namespace Attended

variable {env : Surroundings σ π} {bytes : σ → List UInt8} {file : σ} {settings : Settings}
  {start : Nat} {submitted : List Request} {journal : List (Event σ)}

theorem more (attended : Attended env bytes file settings start submitted journal)
    (requests : List Request) :
    Attended env bytes file settings start (submitted ++ requests) journal := by
  intro owner segment seen older moment
  obtain ⟨ticket, request, reply, begun, ended, whole, found, rest⟩ :=
    attended owner segment seen older moment
  have inside : ticket < submitted.length := (List.getElem?_eq_some_iff.mp found).1
  exact ⟨ticket, request, reply, begun, ended, whole, by rw [List.getElem?_append_left inside, found],
    rest⟩

theorem cons (attended : Attended env bytes file settings start submitted journal)
    {event : Event σ} (other : ∀ owner segment seen, event ≠ .released owner segment seen) :
    Attended env bytes file settings start submitted (event :: journal) := by
  intro owner segment seen older moment
  rcases List.suffix_cons_iff.mp moment with same | earlier
  · cases same
    exact absurd rfl (other owner segment seen)
  · obtain ⟨ticket, request, reply, begun, ended, whole, found, handled, first, last, answered⟩ :=
      attended owner segment seen older earlier
    exact ⟨ticket, request, reply, begun, ended, whole, found, handled, first, last,
      answered.trans (List.suffix_cons _ _)⟩

theorem reply {begun ended : List (Event σ)}
    (attended : Attended env bytes file settings start submitted begun) {ticket : Nat}
    {request : Request} (found : submitted[ticket]? = some request) {reply : Reply} {whole : Nat}
    (handled : Handled env bytes file settings start request reply begun ended whole) :
    Attended env bytes file settings start submitted (.replied ticket reply :: ended) := by
  obtain ⟨new, grown, -⟩ := handled.work
  have behind : begun <:+ ended := ⟨new, grown.symm⟩
  intro owner segment seen older moment
  rcases List.suffix_cons_iff.mp moment with same | inside
  · cases same
  · by_cases early : .released owner segment seen :: older <:+ begun
    · obtain ⟨ticket', request', reply', begun', ended', whole', found', handled', first, last,
        answered⟩ := attended owner segment seen older early
      exact ⟨ticket', request', reply', begun', ended', whole', found', handled', first, last,
        answered.trans (behind.trans (List.suffix_cons _ _))⟩
    · have late := (List.suffix_or_suffix_of_suffix inside behind).resolve_left early
      have later : begun <:+ older := by
        rcases List.suffix_cons_iff.mp late with same | later
        · exact absurd (same ▸ List.suffix_refl _) early
        · exact later
      exact ⟨ticket, request, reply, begun, ended, whole, found, handled, later, inside,
        List.suffix_refl _⟩

end Attended

namespace Surroundings

variable {env : Surroundings σ π} {bytes : σ → List UInt8} {file : σ} {settings : Settings}
  {start : Nat} {pool : π}

/-! ## Runs -/

theorem attended_abandon {submitted : List Request} {orders : List Order}
    (found : ∀ order ∈ orders, submitted[order.ticket]? = some order.request) {stage : Stage σ π}
    (here : stage.file = env.fileAt file stage.journal)
    (attended : Attended env bytes file settings start submitted stage.journal) :
    Attended env bytes file settings start submitted (env.abandon orders stage).journal := by
  induction orders generalizing stage with
  | nil => exact attended
  | cons order later ih =>
    apply ih fun other member => found other (List.mem_cons_of_mem _ member)
    · exact (env.effect_releaseAll 0 order.request.buffers stage).file_eq here
    · exact attended.reply (found order List.mem_cons_self)
        (handled_of_dropped order.request .closed here (.inl rfl))

theorem attended_hand (calm : env.Calm) (request : Request) {s : Session σ π}
    (here : s.stage.file = env.fileAt file s.stage.journal)
    (attended : Attended env bytes file settings start s.submitted s.stage.journal) :
    Attended env bytes file settings start (env.hand request s).submitted
      (env.hand request s).stage.journal := by
  have dropped : (env.releaseAll request.buffers s.stage).1 = false :=
    calm_releaseAll calm request.buffers s.stage
  have last : (s.submitted ++ [request])[s.submitted.length]? = some request := by simp
  simp only [hand, submit, dropped, Bool.false_eq_true, if_false]
  split
  · apply (attended.more [request]).cons
    intro owner segment seen same
    cases same
  · split
    · exact attended.more [request]
    · exact (attended.more [request]).reply last
        (handled_of_dropped request .closed here (.inl rfl))

theorem attended_work (retains : env.Retains bytes) (calm : env.Calm)
    (length : env.length file = .done start) {s : Session σ π}
    (reached : env.Reaches settings file pool s)
    (attended : Attended env bytes file settings start s.submitted s.stage.journal) :
    Attended env bytes file settings start s.submitted (env.work s).stage.journal := by
  simp only [work, step]
  split
  · exact attended
  · rename_i order later queued
    have orderly := reached.orderly
    obtain ⟨start', length', pending, books, settled⟩ := reached.booked
    obtain rfl : start = start' := by simpa [length] using length'
    obtain rfl := settled (orderly.alive_of_queue (by simp [queued]))
    obtain ⟨whole, handled⟩ := handles_process retains calm order.request books reached.settings_eq
      reached.accounts.1
    have found := (orderly.submitted_of_queue (by simp [queued] : order ∈ s.spooler.queue)).1
    split
    · rename_i reply answered
      rw [answered] at handled
      exact attended.reply found handled
    · rename_i unanswered
      rw [unanswered] at handled
      refine attended_abandon ?_ ?_ (attended.reply found handled)
      · intro other member
        exact (orderly.submitted_of_queue (by simp [queued, member])).1
      · exact (env.effect_process order.request s.spooler.writer s.stage).file_eq reached.accounts.1

theorem Reaches.attended (retains : env.Retains bytes) (calm : env.Calm)
    (length : env.length file = .done start) {s : Session σ π}
    (reached : env.Reaches settings file pool s) :
    Attended env bytes file settings start s.submitted s.stage.journal := by
  apply reached.rule
  · intro spooler stage started owner segment seen older moment
    obtain ⟨cursor, -, -, rfl⟩ := spooler_start started
    have none := length_handovers_le moment
    simp [handovers, Session.fresh, Stage.note, Stage.record, Stage.start] at none
  · exact fun s request reached attended =>
      attended_hand calm request reached.accounts.1 attended
  · exact fun s reached attended => attended_work retains calm length reached attended
  · intro s notice _ attended
    apply attended.cons
    intro owner segment seen same
    cases same
  · exact fun s _ attended => attended

end Surroundings
end Spillway
