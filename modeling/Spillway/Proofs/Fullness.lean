import Spillway.Proofs.Boundary
import Spillway.Proofs.Capped
import Spillway.Proofs.Cutting
/-!
What fits on a file that fills up. Of every request the frames that end at or below the limit of the
file stay in it; the request is answered with entries if these are all of its frames, and otherwise
with the failure of the first write for which there is no room. Where a request begins is decided by
what stayed of those before it, so all of this follows from the requests, the limit and the first
length alone: how much the file takes at a time, and how many frames a write gathers, are nowhere in
it.
-/

namespace Spillway

variable {σ π : Type}

/-- What is kept of a request whose first frame begins at `start`: the frames that end at or below
the limit. -/
def Request.within (limit start : Nat) (request : Request) : List Buffer :=
  request.buffers.take (wholeWithin (limit - start) request.buffers)

/-- What is kept of requests, one behind the other. -/
def keptUnder (limit : Nat) : (start : Nat) → List Request → List Buffer
  | _, [] => []
  | start, request :: later =>
    request.within limit start ++
      keptUnder limit (start + framesSize (request.within limit start)) later

/-- What a request is answered with when its first frame begins at `start`. -/
def Request.ComesTo (limit start : Nat) (request : Request) : Reply → Prop
  | .ok entries => (request.items = [] ∨ start + request.framedSize ≤ limit) ∧
      request.entries? start = some entries
  | .error error => (request.items ≠ [] ∧ limit < start + request.framedSize) ∧
      error = .io .storageFull

/-- The requests that the writer has taken from the queue. -/
def Session.served (s : Session σ π) : List Request := s.errands.map fun errand => errand.order.request

/-- A spooler with these settings can be started on the file, which fills up to a limit and can be
synced if that is asked for, with pools that take every segment back. -/
structure Surroundings.FillsUp (env : Surroundings σ π) (settings : Settings)
    (bytes : σ → List UInt8) (sound : σ → Prop) (limit : Nat) (file : σ) : Prop where
  fills : ∃ chunk, 0 < chunk ∧ env.Fills bytes sound limit chunk
  calm : env.Calm
  syncs : settings.syncEach = true → env.Syncs bytes sound
  sound : sound file
  honest : env.length file = .done (bytes file).length

/-- What comes of a session on a file that fills up, whose first contents are `first`. What was
submitted was taken in order, or waits; the file has what is kept of the requests that were taken;
the cursor is at its end, and its frames are what was written; the segments of these requests went
back in order; and whatever was submitted and does not wait has one answer, as it follows from where
it began. -/
structure Session.FilledTo (s : Session σ π) (bytes : σ → List UInt8) (first : List UInt8)
    (limit : Nat) : Prop where
  orders : s.errands.map Errand.order ++ s.spooler.queue = ordersFrom 0 s.submitted
  content : bytes s.stage.file =
    first ++ (keptUnder limit first.length s.served).flatMap Buffer.framed
  cursor : s.spooler.cursor = (bytes s.stage.file).length
  written : s.spooler.written = framesSize (keptUnder limit first.length s.served)
  released : s.stage.releases.map (fun release => (release.1, release.2.1)) =
    s.served.flatMap Request.handovers
  answered : ∀ ticket request, s.submitted[ticket]? = some request →
    (∀ order ∈ s.spooler.queue, order.ticket ≠ ticket) →
      ∃ reply, s.stage.answers ticket = [reply] ∧ request.ComesTo limit (first.length +
        framesSize (keptUnder limit first.length (s.submitted.take ticket))) reply

/-- What is kept to on the way there. -/
structure Session.Brimming (s : Session σ π) (settings : Settings) (bytes : σ → List UInt8)
    (sound : σ → Prop) (limit : Nat) (first : List UInt8) : Prop where
  alive : s.spooler.alive = true
  unpoisoned : s.spooler.writer.poisoned = false
  settings : s.spooler.writer.settings = settings
  sound : sound s.stage.file
  content : bytes s.stage.file =
    first ++ (keptUnder limit first.length s.served).flatMap Buffer.framed
  cursor : (bytes s.stage.file).length = s.spooler.writer.cursor
  answered : s.AnsweredBy fun before request reply => request.ComesTo limit
    (first.length + framesSize (keptUnder limit first.length before)) reply

/-- The orders that wait after some acts, if a writer that does not die has given out so many tickets
before, and these orders waited. -/
def waitingAfter : List Act → (tickets : Nat) → List Order → List Order
  | [], _, queue => queue
  | .submit request :: later, tickets, queue =>
    waitingAfter later (tickets + 1)
      (if request.items.isEmpty then queue else queue ++ [⟨tickets, request⟩])
  | .forget _ :: later, tickets, queue => waitingAfter later tickets queue
  | .step :: later, tickets, queue => waitingAfter later tickets queue.tail

/-- So much of `all` was written behind the end of the file as there was room for up to the limit:
either all of it, which is `done`, or less, as the file is `full`. -/
structure Stage.Brimmed (bytes : σ → List UInt8) (sound : σ → Prop) (limit : Nat)
    (all : List UInt8) (before after : Stage σ π) (done full : Prop) : Prop where
  sound : sound after.file
  content : bytes after.file =
    bytes before.file ++ all.take (limit - (bytes before.file).length)
  of_room : all.length ≤ limit - (bytes before.file).length → done
  of_beyond : limit - (bytes before.file).length < all.length → full

/-! ## What fits -/

/-- What is kept of a request is the longest front of its frames that ends at or below the limit. -/
theorem Request.le_length_within_iff {limit start n : Nat} {request : Request} (some : 0 < n)
    (inside : n ≤ request.buffers.length) :
    n ≤ (request.within limit start).length ↔
      start + framesSize (request.buffers.take n) ≤ limit := by
  have whole : n ≤ wholeWithin (limit - start) request.buffers ↔
      framesSize (request.buffers.take n) ≤ limit - start := le_wholeWithin_iff inside
  have most := wholeWithin_le (limit - start) request.buffers
  -- A front that is not empty takes room, so it cannot end at the limit if it begins behind it.
  have positive : 0 < framesSize (request.buffers.take n) := by
    cases buffers : request.buffers with
    | nil => simp [buffers] at inside; omega
    | cons buffer rest =>
      obtain ⟨m, rfl⟩ : ∃ m, n = m + 1 := ⟨n - 1, by omega⟩
      have := buffer.frameSize_pos
      simp only [List.take_succ_cons, framesSize_cons]
      omega
  rw [within, List.length_take, Nat.min_eq_left most, whole]
  omega

theorem Request.framable_within {limit start : Nat} {request : Request}
    (framable : Framable request.buffers) : Framable (request.within limit start) :=
  framable.take _

theorem Request.within_of_le {limit start : Nat} {request : Request}
    (fits : framesSize request.buffers ≤ limit - start) :
    request.within limit start = request.buffers := by
  rw [within, wholeWithin_of_le fits, List.take_length]

theorem Request.within_of_empty {request : Request} (empty : request.items = [])
    (limit start : Nat) : request.within limit start = [] := by
  simp [within, buffers, empty]

theorem Request.ComesTo.unique {limit start : Nat} {request : Request} {reply other : Reply}
    (comes : request.ComesTo limit start reply) (comes' : request.ComesTo limit start other) :
    reply = other := by
  cases reply with
  | ok entries =>
    obtain ⟨fits, known⟩ := comes
    cases other with
    | ok entries' =>
      have same := known.symm.trans comes'.2
      simpa using same
    | error error =>
      obtain ⟨⟨some, beyond⟩, -⟩ := comes'
      rcases fits with none | fits
      · exact absurd none some
      · omega
  | error error =>
    obtain ⟨⟨some, beyond⟩, rfl⟩ := comes
    cases other with
    | ok entries' =>
      rcases comes'.1 with none | fits
      · exact absurd none some
      · omega
    | error error' => rw [comes'.2]

theorem keptUnder_append (limit start : Nat) (requests later : List Request) :
    keptUnder limit start (requests ++ later) = keptUnder limit start requests ++
      keptUnder limit (start + framesSize (keptUnder limit start requests)) later := by
  induction requests generalizing start with
  | nil => rfl
  | cons request rest ih =>
    simp only [List.cons_append, keptUnder, ih, framesSize_append, List.append_assoc, Nat.add_assoc]

theorem keptUnder_ordersFrom (limit start ticket : Nat) (requests : List Request) :
    keptUnder limit start ((ordersFrom ticket requests).map Order.request) =
      keptUnder limit start requests := by
  induction requests generalizing start ticket with
  | nil => rfl
  | cons request rest ih =>
    cases empty : request.items.isEmpty with
    | true =>
      have nothing := Request.within_of_empty (List.isEmpty_iff.mp empty) limit start
      simp [ordersFrom, keptUnder, empty, nothing, ih]
    | false => simp [ordersFrom, keptUnder, empty, ih]

theorem framesSize_keptUnder_le (limit start : Nat) (requests : List Request) :
    framesSize (keptUnder limit start requests) ≤
      framesSize (requests.flatMap Request.buffers) := by
  induction requests generalizing start with
  | nil => exact Nat.le_refl _
  | cons request rest ih =>
    have first : framesSize (request.within limit start) ≤ framesSize request.buffers :=
      framesSize_take_le _ _
    have later := ih (start + framesSize (request.within limit start))
    rw [keptUnder, List.flatMap_cons, framesSize_append, framesSize_append]
    omega

theorem framable_keptUnder {requests : List Request}
    (framable : Framable (requests.flatMap Request.buffers)) (limit start : Nat) :
    Framable (keptUnder limit start requests) := by
  induction requests generalizing start with
  | nil => exact framable
  | cons request rest ih =>
    rw [List.flatMap_cons] at framable
    exact (framable.left.take _).append (ih framable.right _)

/-! ## Writing up to the limit -/

namespace Stage.Brimmed

variable {bytes : σ → List UInt8} {sound : σ → Prop} {limit : Nat} {all more : List UInt8}
  {before between after : Stage σ π} {done full done' full' : Prop}

theorem of_untouched (untouched : before.Untouched after) (healthy : sound before.file)
    (finished : done) : before.Brimmed bytes sound limit [] after done full where
  sound := by rwa [untouched.file]
  content := by rw [untouched.file, List.take_nil, List.append_nil]
  of_room _ := finished
  of_beyond beyond := absurd beyond (Nat.not_lt_zero _)

theorem trans_untouched (brimmed : before.Brimmed bytes sound limit all between done full)
    (untouched : between.Untouched after) : before.Brimmed bytes sound limit all after done full :=
  ⟨by rw [untouched.file]; exact brimmed.sound, by rw [untouched.file]; exact brimmed.content,
    brimmed.of_room, brimmed.of_beyond⟩

theorem untouched_trans (untouched : before.Untouched between)
    (brimmed : between.Brimmed bytes sound limit all after done full) :
    before.Brimmed bytes sound limit all after done full := by
  obtain ⟨healthy, content, of_room, of_beyond⟩ := brimmed
  rw [untouched.file] at content of_room of_beyond
  exact ⟨healthy, content, of_room, of_beyond⟩

theorem mono (brimmed : before.Brimmed bytes sound limit all after done full)
    (weaker : done → done') (weaker' : full → full') :
    before.Brimmed bytes sound limit all after done' full' :=
  ⟨brimmed.sound, brimmed.content, weaker ∘ brimmed.of_room, weaker' ∘ brimmed.of_beyond⟩

/-- Behind what there was room for, there may be room for more. -/
theorem trans (first : before.Brimmed bytes sound limit all between done full)
    (fits : all.length ≤ limit - (bytes before.file).length)
    (second : between.Brimmed bytes sound limit more after done' full') :
    before.Brimmed bytes sound limit (all ++ more) after done' full' := by
  obtain ⟨healthy, content, of_room, of_beyond⟩ := second
  have joined := first.content
  rw [List.take_of_length_le fits] at joined
  rw [joined, List.length_append] at content of_room of_beyond
  have left : limit - (bytes before.file).length - all.length =
      limit - ((bytes before.file).length + all.length) := by omega
  refine ⟨healthy, ?_, fun room => ?_, fun beyond => ?_⟩
  · rw [content, List.take_append, List.take_of_length_le fits, left, List.append_assoc]
  · rw [List.length_append] at room
    exact of_room (by omega)
  · rw [List.length_append] at beyond
    exact of_beyond (by omega)

/-- What was not begun does not matter when there was no room before it. -/
theorem append (brimmed : before.Brimmed bytes sound limit all after done full)
    (beyond : limit - (bytes before.file).length < all.length) (more : List UInt8) :
    before.Brimmed bytes sound limit (all ++ more) after done full where
  sound := brimmed.sound
  content := by
    rw [List.take_append_of_le_length (Nat.le_of_lt beyond)]
    exact brimmed.content
  of_room room := by
    rw [List.length_append] at room
    omega
  of_beyond _ := brimmed.of_beyond beyond

end Stage.Brimmed

/-- A write below the limit takes something, which is the front of what it was offered. -/
theorem Store.Fills.writeOn_took {store : Store σ} {bytes : σ → List UInt8} {sound : σ → Prop}
    {limit chunk : Nat} (fills : store.Fills bytes sound limit chunk) (some : 0 < chunk)
    {position : Nat} {slices : List Extent} {stage : Stage σ π} (healthy : sound stage.file)
    (offered : Extent.totalSize slices ≠ 0) (last : (bytes stage.file).length = position)
    (inside : position < limit) (room : position + Extent.totalSize slices < Word.half) :
    ∃ n, 0 < n ∧ n ≤ limit - position ∧ n ≤ Extent.totalSize slices ∧
      (store.writeOn slices position stage).1 = .done n ∧
      stage.Brimmed bytes sound limit ((slices.flatMap Extent.toList).take n)
        (store.writeOn slices position stage).2 True True ∧
      (bytes (store.writeOn slices position stage).2.file).length = position + n := by
  obtain ⟨after, wrote, stays, joined⟩ :=
    fills.takes stage.file slices position healthy offered last inside room
  have positive := Store.accepts_pos some inside offered
  have most := Store.accepts_le limit chunk position (Extent.totalSize slices)
  generalize accepts limit chunk position (Extent.totalSize slices) = n
    at wrote joined positive most
  have file : (store.writeOn slices position stage).2.file = after := congrArg Prod.snd wrote
  refine ⟨n, positive, by omega, by omega, congrArg Prod.fst wrote,
    ⟨by rwa [file], ?_, fun _ => trivial, fun _ => trivial⟩, ?_⟩
  · rw [file, joined, List.take_take, Nat.min_eq_right (by omega)]
  · rw [file, joined, List.length_append, last, List.length_take, ← Extent.totalSize_eq]
    omega

/-- A transfer to the end of a file that fills up writes what there is room for. -/
theorem Store.Fills.brimmed_transferFrom {store : Store σ} {bytes : σ → List UInt8}
    {sound : σ → Prop} {limit chunk : Nat} (fills : store.Fills bytes sound limit chunk)
    (some : 0 < chunk) (offset before : Nat) (slices : List Extent) (taken : Nat)
    (stage : Stage σ π) (healthy : sound stage.file)
    (last : (bytes stage.file).length = offset + taken)
    (room : offset + taken + Extent.totalSize slices < Word.half)
    (counted : before + taken + Extent.totalSize slices < Word.span) :
    (store.transferFrom offset before slices taken stage).written =
        before + taken + min (limit - (offset + taken)) (Extent.totalSize slices) ∧
      stage.Brimmed bytes sound limit (slices.flatMap Extent.toList)
        (store.transferFrom offset before slices taken stage).stage
        ((store.transferFrom offset before slices taken stage).finish = .done ())
        (∃ text, (store.transferFrom offset before slices taken stage).finish =
          .failed ⟨.storageFull, text⟩) := by
  have reachable : Word.half < Word.span := by decide
  -- Each write takes something, or finds the file full, which ends the transfer.
  induction whole : Extent.totalSize slices using Nat.strongRecOn generalizing slices taken stage with
  | ind total ih =>
    have size := Extent.totalSize_eq slices
    by_cases none : Extent.totalSize slices = 0
    · rw [Store.transferFrom, if_pos none]
      rw [size, List.length_eq_zero_iff] at none
      refine ⟨by rw [← whole, size, none]; simp, ?_⟩
      rw [none]
      exact .of_untouched (.refl stage) healthy rfl
    · by_cases behind : limit ≤ offset + taken
      · obtain ⟨text, after, failed, stays, same⟩ :=
          fills.full stage.file slices (offset + taken) healthy none behind
        rw [transferFrom_failed none (by omega) (by simp) (congrArg Prod.fst failed)]
        refine ⟨by rw [Nat.sub_eq_zero_of_le behind]; simp, ?_⟩
        have file : (store.writeOn slices (offset + taken) stage).2.file = after :=
          congrArg Prod.snd failed
        refine ⟨by rwa [file], ?_, fun fits => ?_, fun _ => ⟨text, rfl⟩⟩
        · rw [file, same, last, Nat.sub_eq_zero_of_le behind, List.take_zero, List.append_nil]
        · omega
      · obtain ⟨n, positive, inside, most, took, first, length⟩ :=
          fills.writeOn_took some healthy none last (Nat.not_le.mp behind) room
        rw [transferFrom_took (by omega) most (by omega) (by omega) took]
        have left := Extent.totalSize_advance n slices
        obtain ⟨written, brimmed⟩ := ih (total - n) (by omega) (Extent.advance n slices) (taken + n)
          (store.writeOn slices (offset + taken) stage).2 first.sound (by omega) (by omega)
          (by omega) (by omega)
        refine ⟨by rw [written]; omega, ?_⟩
        rw [Extent.flatMap_advance] at brimmed
        have both := first.trans (by rw [List.length_take, last]; omega) brimmed
        rwa [List.take_append_drop] at both

namespace Surroundings

variable {env : Surroundings σ π} {settings : Settings} {file : σ} {pool : π}
  {bytes : σ → List UInt8} {sound : σ → Prop} {limit chunk : Nat} {first : List UInt8}

theorem brimmed_writeBatch (fills : env.Fills bytes sound limit chunk) (some : 0 < chunk)
    (calm : env.Calm) {batch : List Buffer} (framable : Framable batch) (writer : Writer)
    (stage : Stage σ π) (healthy : sound stage.file)
    (last : (bytes stage.file).length = writer.cursor)
    (room : writer.cursor + framesSize batch < Word.half) :
    stage.Brimmed bytes sound limit (batch.flatMap Buffer.framed)
        (env.writeBatch batch writer stage).stage
        ((env.writeBatch batch writer stage).outcome = .done)
        ((env.writeBatch batch writer stage).outcome = .failed (.io .storageFull)) ∧
      writer.Moves (env.writeBatch batch writer stage).writer
        (framesSize (batch.take (wholeWithin (limit - writer.cursor) batch))) := by
  obtain ⟨frames, encoded, joined⟩ := encode_batch framable
  have reachable : Word.half < Word.span := by decide
  have size : Extent.totalSize (frames.flatMap Frame.slices) = framesSize batch := by
    rw [Extent.totalSize_eq, joined, length_framed_flatMap framable]
  obtain ⟨written, brimmed⟩ := fills.brimmed_transferFrom some writer.cursor 0
    (frames.flatMap Frame.slices) 0 stage healthy last (by omega) (by omega)
  rw [joined] at brimmed
  rw [size, Nat.add_zero, Nat.add_zero, Nat.zero_add] at written
  unfold writeBatch
  simp only [encoded, Store.transfer]
  generalize env.transferFrom writer.cursor 0 (frames.flatMap Frame.slices) 0 stage = transfer
    at written brimmed
  have noted := Stage.Untouched.note transfer.stage
    (.wrote transfer.written batch.length writer.cursor)
  have settled := fun outcome => calm_settleBatch calm batch transfer.written outcome writer
    (transfer.stage.note (.wrote transfer.written batch.length writer.cursor))
  -- However it ends, the batch is settled by what was written.
  have moved := fun outcome (fine : outcome ≠ .crashed) => moves_settleBatch batch transfer.written
    outcome writer (transfer.stage.note (.wrote transfer.written batch.length writer.cursor))
    (by rw [settled]; exact fine)
  rw [written, wholeWithin_min, ← written] at moved
  by_cases fits : (batch.flatMap Buffer.framed).length ≤ limit - (bytes stage.file).length
  · have done := brimmed.of_room fits
    obtain ⟨untouched, same, moves⟩ := moved .done (by simp)
    simp only [done]
    refine ⟨((brimmed.trans_untouched noted).trans_untouched untouched).mono (fun _ => same) ?_,
      moves⟩
    rintro ⟨text, full⟩
    rw [done] at full
    cases full
  · obtain ⟨text, full⟩ := brimmed.of_beyond (Nat.not_le.mp fits)
    obtain ⟨untouched, same, moves⟩ := moved (.failed (.io .storageFull)) (by simp)
    simp only [full]
    refine ⟨((brimmed.trans_untouched noted).trans_untouched untouched).mono ?_ (fun _ => same),
      moves⟩
    intro done
    rw [full] at done
    cases done

theorem brimmed_writeBatches (fills : env.Fills bytes sound limit chunk) (some : 0 < chunk)
    (calm : env.Calm) {batches : List (List Buffer)} (framable : Framable batches.flatten)
    (writer : Writer) (stage : Stage σ π) (healthy : sound stage.file)
    (last : (bytes stage.file).length = writer.cursor)
    (room : writer.cursor + framesSize batches.flatten < Word.half) :
    stage.Brimmed bytes sound limit (batches.flatten.flatMap Buffer.framed)
        (env.writeBatches batches writer stage).stage
        ((env.writeBatches batches writer stage).outcome = .done)
        ((env.writeBatches batches writer stage).outcome = .failed (.io .storageFull)) ∧
      writer.Moves (env.writeBatches batches writer stage).writer
        (framesSize (batches.flatten.take
          (wholeWithin (limit - writer.cursor) batches.flatten))) := by
  induction batches generalizing writer stage with
  | nil => exact ⟨.of_untouched (.refl stage) healthy rfl, .refl writer⟩
  | cons batch later ih =>
    rw [List.flatten_cons] at framable room ⊢
    rw [framesSize_append] at room
    have size := length_framed_flatMap framable.left
    obtain ⟨brimmed, moves⟩ :=
      brimmed_writeBatch fills some calm framable.left writer stage healthy last (by omega)
    rw [List.flatMap_append, writeBatches]
    by_cases fits : (batch.flatMap Buffer.framed).length ≤ limit - (bytes stage.file).length
    · have done := brimmed.of_room fits
      have content := brimmed.content
      rw [List.take_of_length_le fits] at content
      rw [wholeWithin_of_le (by omega), List.take_length] at moves
      obtain ⟨rest, moves'⟩ := ih framable.right (env.writeBatch batch writer stage).writer
        (env.writeBatch batch writer stage).stage brimmed.sound
        (by rw [content, List.length_append, moves.cursor]; omega)
        (by rw [moves.cursor]; omega)
      simp only [done]
      refine ⟨brimmed.trans fits rest, ?_⟩
      have split : limit - writer.cursor =
          framesSize batch + (limit - (env.writeBatch batch writer stage).writer.cursor) := by
        rw [moves.cursor]
        omega
      rw [split, wholeWithin_append, List.take_length_add_append, framesSize_append]
      exact moves.trans moves'
    · have beyond := Nat.not_le.mp fits
      have full := brimmed.of_beyond beyond
      simp only [full, calm_releaseAll calm, Bool.false_eq_true, if_false]
      rw [full] at brimmed
      have dropped := (brimmed.append beyond (later.flatten.flatMap Buffer.framed)).trans_untouched
        (.releaseAll env.toPool later.flatten _)
      refine ⟨dropped.mono id fun _ => trivial, ?_⟩
      rw [wholeWithin_append_of_lt (by omega),
        List.take_append_of_le_length (wholeWithin_le _ batch)]
      exact moves

/-- A request is written as far as there is room for it. -/
theorem brimmed_spill (fills : env.Fills bytes sound limit chunk) (some : 0 < chunk)
    (calm : env.Calm) {request : Request} (framable : Framable request.buffers) {writer : Writer}
    {stage : Stage σ π} (healthy : sound stage.file)
    (last : (bytes stage.file).length = writer.cursor)
    (room : writer.cursor + framesSize request.buffers < Word.half) :
    stage.Brimmed bytes sound limit (request.buffers.flatMap Buffer.framed)
        (env.spill request writer stage).stage
        ((env.spill request writer stage).outcome = .done)
        ((env.spill request writer stage).outcome = .failed (.io .storageFull)) ∧
      writer.Moves (env.spill request writer stage).writer
        (framesSize (request.within limit writer.cursor)) := by
  have all := flatten_batches writer.settings.framesPerWrite request.buffers
  have noted := Stage.Untouched.note stage
    (.spilling request.items.length request.framedSize writer.cursor)
  rw [← all] at framable room
  obtain ⟨brimmed, moves⟩ := brimmed_writeBatches fills some calm framable writer
    (stage.note (.spilling request.items.length request.framedSize writer.cursor))
    (by rwa [noted.file]) (by rwa [noted.file]) room
  rw [all] at brimmed moves
  exact ⟨.untouched_trans noted brimmed, moves⟩

theorem repair_of_cut {writer : Writer} {stage : Stage σ π} {before cut : σ}
    (same : stage.file = before) (truncated : env.truncate before writer.cursor = (.done (), cut)) :
    ∃ after, env.repair writer stage = (false, writer, after) ∧ after.file = cut := by
  have called : env.truncateOn writer.cursor stage = (.done (),
      { stage with file := cut }.record (.called (.truncate writer.cursor (.done ())))) := by
    rw [Store.truncateOn, same, truncated]
  exact ⟨_, by rw [repair, called], rfl⟩

/-- A request that fails for want of space is cut back to its frames that are whole. -/
theorem carryOut_of_full (fills : env.Fills bytes sound limit chunk) {request : Request}
    (framable : Framable request.buffers) (entries : List Entry) {writer : Writer}
    {stage : Stage σ π} (last : (bytes stage.file).length = writer.cursor)
    (room : writer.cursor + framesSize request.buffers < Word.half)
    (full : (env.spill request writer stage).outcome = .failed (.io .storageFull))
    (brimmed : stage.Brimmed bytes sound limit (request.buffers.flatMap Buffer.framed)
      (env.spill request writer stage).stage False True)
    (moves : writer.Moves (env.spill request writer stage).writer
      (framesSize (request.within limit writer.cursor))) :
    ∃ after, env.carryOut request entries writer stage =
        ⟨some (.error (.io .storageFull)), (env.spill request writer stage).writer, after⟩ ∧
      sound after.file ∧ bytes after.file =
        bytes stage.file ++ (request.within limit writer.cursor).flatMap Buffer.framed := by
  have reported := Stage.Untouched.countFailure (env.spill request writer stage).stage request
    writer.cursor ((env.spill request writer stage).writer.cursor - writer.cursor)
    (.io .storageFull)
  have behind : bytes stage.file ++ (request.within limit writer.cursor).flatMap Buffer.framed <+:
      bytes (env.spill request writer stage).stage.file := by
    rw [brimmed.content, last]
    exact (List.prefix_append_right_inj _).mpr (framed_wholeWithin framable _)
  have cursor : (bytes stage.file ++
      (request.within limit writer.cursor).flatMap Buffer.framed).length =
        (env.spill request writer stage).writer.cursor := by
    rw [moves.cursor, List.length_append, last,
      length_framed_flatMap (Request.framable_within framable)]
  have most : framesSize (request.within limit writer.cursor) ≤ framesSize request.buffers :=
    framesSize_take_le _ _
  obtain ⟨cut, truncated, stays, remains⟩ := fills.cuts (env.spill request writer stage).stage.file
    (env.spill request writer stage).writer.cursor brimmed.sound (cursor ▸ behind.length_le)
    (by rw [moves.cursor]; omega)
  obtain ⟨after, repaired, file⟩ := repair_of_cut reported.file truncated
  refine ⟨after, ?_, by rwa [file], ?_⟩
  · rw [carryOut_of_failed full]
    simp only [repaired, Bool.false_eq_true, if_false]
  · rw [file, remains, ← cursor]
    exact (List.prefix_iff_eq_take.mp behind).symm

/-- A request comes to what there is room for, and its whole frames are in the file. -/
theorem brimmed_process (fills : env.Fills bytes sound limit chunk) (some : 0 < chunk)
    (calm : env.Calm) (request : Request) {writer : Writer} {stage : Stage σ π}
    (framable : Framable request.buffers)
    (syncs : writer.settings.syncEach = true → env.Syncs bytes sound)
    (unpoisoned : writer.poisoned = false) (healthy : sound stage.file)
    (last : (bytes stage.file).length = writer.cursor)
    (room : writer.cursor + framesSize request.buffers < Word.half) :
    ∃ reply moved after, env.process request writer stage = ⟨.some reply, moved, after⟩ ∧
      request.ComesTo limit writer.cursor reply ∧
      writer.Moves moved (framesSize (request.within limit writer.cursor)) ∧
      sound after.file ∧ bytes after.file =
        bytes stage.file ++ (request.within limit writer.cursor).flatMap Buffer.framed := by
  have reachable : Word.half < Word.span := by decide
  obtain ⟨entries, known⟩ : ∃ entries, request.entries? writer.cursor = .some entries :=
    entriesFrom?_of_room (Nat.lt_trans room reachable)
  obtain ⟨brimmed, moves⟩ := brimmed_spill fills some calm framable healthy last room
  have carried : env.process request writer stage = env.carryOut request entries writer stage := by
    simp [process, unpoisoned, refusal_of_framable framable, known]
  have size := length_framed_flatMap framable
  have framed := framedSize_eq request
  rw [carried]
  by_cases fits : (request.buffers.flatMap Buffer.framed).length ≤ limit - (bytes stage.file).length
  · obtain ⟨after, done, same⟩ := carryOut_of_synced entries (brimmed.of_room fits) moves.settings
      syncs brimmed.sound _ _
    have content := same.appended rfl rfl
    rw [List.append_nil, brimmed.content, List.take_of_length_le fits] at content
    refine ⟨_, _, after, done, ⟨?_, known⟩, moves, same.sound, ?_⟩
    · by_cases none : request.items = []
      · exact .inl none
      · have positive := request.framedSize_pos none
        exact .inr (by omega)
    · rw [content, Request.within_of_le (by omega)]
  · have beyond := Nat.not_le.mp fits
    have full := brimmed.of_beyond beyond
    rw [full] at brimmed
    obtain ⟨after, cut, stays, content⟩ := carryOut_of_full fills framable entries last room full
      (brimmed.mono (fun done => by cases done) fun _ => trivial) moves
    refine ⟨_, _, after, cut, ⟨⟨?_, by omega⟩, rfl⟩, moves, stays, content⟩
    intro none
    simp [Request.buffers, none] at beyond

/-! ## Runs -/

/-- What was taken from the queue has been kept as if empty requests had been taken as well. -/
theorem keptUnder_served {s : Session σ π} {requests : List Request}
    (orders : s.errands.map Errand.order = ordersFrom 0 requests) (start : Nat) :
    keptUnder limit start s.served = keptUnder limit start requests := by
  rw [← keptUnder_ordersFrom limit start 0 requests, ← orders, List.map_map]
  rfl

/-- When nothing waits, so much is kept of what was submitted. -/
theorem keptUnder_of_settled {s : Session σ π} (filled : s.FilledTo bytes first limit)
    (none : s.spooler.queue = []) (start : Nat) :
    keptUnder limit start s.served = keptUnder limit start s.submitted := by
  have orders := filled.orders
  rw [none, List.append_nil] at orders
  exact keptUnder_served orders start

/-- When nothing waits, a request has been answered with what it comes to. -/
theorem answers_of_settled {s : Session σ π} (filled : s.FilledTo bytes first limit)
    (none : s.spooler.queue = []) {ticket : Nat} {request : Request} {reply : Reply}
    (found : s.submitted[ticket]? = some request)
    (comes : request.ComesTo limit (first.length +
      framesSize (keptUnder limit first.length (s.submitted.take ticket))) reply) :
    s.stage.answers ticket = [reply] := by
  obtain ⟨other, given, comes'⟩ := filled.answered ticket request found (by rw [none]; simp)
  rw [given, comes'.unique comes]

theorem brimming_hand {s : Session σ π} (request : Request)
    (brimming : s.Brimming settings bytes sound limit first) :
    (env.hand request s).Brimming settings bytes sound limit first := by
  obtain ⟨alive, unpoisoned, same, healthy, content, cursor, answered⟩ := brimming
  have handed : (env.hand request s).AnsweredBy fun before request reply => request.ComesTo limit
      (first.length + framesSize (keptUnder limit first.length before)) reply := by
    refine answeredBy_hand request alive (fun none => ⟨.inl none, ?_⟩) answered
    rw [Request.entries?, none]
    rfl
  cases empty : request.items.isEmpty with
  | true =>
    simp only [hand, submit, empty, if_true] at handed ⊢
    exact ⟨alive, unpoisoned, same, healthy, content, cursor, handed⟩
  | false =>
    simp only [hand, submit, empty, alive, if_true, Bool.false_eq_true, if_false] at handed ⊢
    exact ⟨rfl, unpoisoned, same, healthy, content, cursor, handed⟩

theorem brimming_work (fills : env.Fills bytes sound limit chunk) (some : 0 < chunk)
    (calm : env.Calm) (syncs : settings.syncEach = true → env.Syncs bytes sound)
    {s : Session σ π} (orderly : s.Orderly) (fitting : Fitting first.length s.submitted)
    (brimming : s.Brimming settings bytes sound limit first) :
    (env.work s).Brimming settings bytes sound limit first ∧
      (env.work s).spooler.queue = s.spooler.queue.tail := by
  cases queued : s.spooler.queue with
  | nil =>
    have same : env.work s = s := by simp [work, env.step_nil queued, queued]
    rw [same]
    exact ⟨brimming, queued⟩
  | cons order later =>
    obtain ⟨alive, unpoisoned, same, healthy, content, cursor, answered⟩ := brimming
    have orders := orderly.alive_orders alive
    rw [queued] at orders
    obtain ⟨before, after, submitted, place, past, -⟩ := ordersFrom_split orders
    rw [Nat.zero_add] at place
    obtain ⟨framable, room⟩ := fitting
    rw [submitted, List.flatMap_append, List.flatMap_cons] at framable room
    rw [framesSize_append, framesSize_append] at room
    -- What is kept of the requests before this one ends at the cursor.
    have kept : keptUnder limit first.length s.served = keptUnder limit first.length before :=
      keptUnder_served past _
    have stands : s.spooler.writer.cursor =
        first.length + framesSize (keptUnder limit first.length before) := by
      rw [← cursor, content, kept, List.length_append,
        length_framed_flatMap (framable_keptUnder framable.left limit _)]
    have most := framesSize_keptUnder_le limit first.length before
    obtain ⟨reply, moved, done, processed, comes, moves, stays, added⟩ := brimmed_process fills some
      calm order.request framable.right.left (by rwa [same]) unpoisoned healthy cursor (by omega)
    have front : s.submitted.take order.ticket = before := by
      rw [submitted, place]
      simp
    have meets : order.request.ComesTo limit (first.length +
        framesSize (keptUnder limit first.length (s.submitted.take order.ticket))) reply := by
      rwa [front, ← stands]
    have answers := answeredBy_work orderly queued processed meets answered
    rw [env.work_of_reply queued processed] at answers ⊢
    refine ⟨⟨alive, moves.poisoned.trans unpoisoned, moves.settings.trans same, stays, ?_, ?_,
      answers⟩, rfl⟩
    · show bytes done.file = first ++
        (keptUnder limit first.length ((s.errands ++ [_]).map _)).flatMap Buffer.framed
      rw [List.map_append, keptUnder_append]
      change _ = first ++ (keptUnder limit first.length s.served ++ keptUnder limit
        (first.length + framesSize (keptUnder limit first.length s.served))
          [order.request]).flatMap Buffer.framed
      rw [added, content, kept, ← stands]
      simp [keptUnder]
    · show (bytes done.file).length = moved.cursor
      rw [added, List.length_append, cursor, moves.cursor,
        length_framed_flatMap (Request.framable_within framable.right.left)]

theorem brimming_run (fills : env.Fills bytes sound limit chunk) (some : 0 < chunk)
    (calm : env.Calm) (syncs : settings.syncEach = true → env.Syncs bytes sound)
    (acts : List Act) {s : Session σ π} (reached : env.Reaches settings file pool s)
    (fitting : Fitting first.length (s.submitted ++ submissions acts))
    (brimming : s.Brimming settings bytes sound limit first) :
    (env.run acts s).Brimming settings bytes sound limit first ∧ (env.run acts s).spooler.queue =
      waitingAfter acts s.submitted.length s.spooler.queue := by
  induction acts generalizing s with
  | nil => exact ⟨brimming, rfl⟩
  | cons act acts ih =>
    cases act with
    | submit request =>
      obtain ⟨ran, queue⟩ := ih (.act (.submit request) reached)
        (by simpa [submissions, next, hand] using fitting) (brimming_hand request brimming)
      refine ⟨ran, queue.trans ?_⟩
      have alive := brimming.alive
      cases empty : request.items.isEmpty <;>
        simp [waitingAfter, next, hand, submit, empty, alive]
    | forget ticket => exact ih reached fitting brimming
    | step =>
      obtain ⟨worked, queue⟩ := brimming_work fills some calm syncs reached.orderly fitting.left
        brimming
      obtain ⟨ran, rest⟩ := ih (.act .step reached) fitting worked
      refine ⟨ran, rest.trans ?_⟩
      rw [next, queue]
      rfl

theorem brimming_fresh {spooler : Spooler} {stage : Stage σ π} (healthy : sound file)
    (honest : env.length file = .done (bytes file).length)
    (started : env.start settings (.start file pool) = (.done spooler, stage)) :
    (Session.fresh spooler stage).Brimming settings bytes sound limit (bytes file) := by
  obtain ⟨cursor, length, rfl, rfl⟩ := spooler_start started
  have told := honest.symm.trans length
  refine ⟨rfl, rfl, rfl, healthy, (List.append_nil _).symm, Answer.done.inj told, ?_⟩
  intro ticket request found
  cases found

/-- What comes of a session in which all that was kept to. -/
theorem filledTo_of_brimming (honest : env.length file = .done (bytes file).length)
    {s : Session σ π} (reached : env.Reaches settings file pool s) (balanced : s.Balanced)
    (fitting : Fitting (bytes file).length s.submitted)
    (brimming : s.Brimming settings bytes sound limit (bytes file)) :
    s.FilledTo bytes (bytes file) limit := by
  obtain ⟨alive, -, -, -, content, cursor, answered⟩ := brimming
  obtain ⟨start, length, booked⟩ := reached.booked
  obtain rfl : (bytes file).length = start := Answer.done.inj (honest.symm.trans length)
  obtain ⟨stands, seen⟩ := cursor_of_booked booked
  obtain ⟨pending, books, -⟩ := booked
  have orders := reached.orderly.alive_orders alive
  have none : ∀ request : Request, request.items = [] → request.buffers = [] := by
    intro request empty
    simp [Request.buffers, empty]
  have framable : Framable (s.served.flatMap Request.buffers) := by
    have all := flatMap_ordersFrom none 0 s.submitted
    rw [← orders, List.flatMap_append, List.flatMap_map] at all
    rw [Session.served, List.flatMap_map]
    exact (all ▸ fitting.framable).left
  refine ⟨orders, content, by rw [cursor, stands, seen], ?_, ?_, ?_⟩
  · have size := length_framed_flatMap (framable_keptUnder framable limit (bytes file).length)
    have written : s.spooler.written = writtenIn s.stage.journal :=
      congrArg Progress.written books.progress
    have all := congrArg List.length content
    rw [cursor, stands, List.length_append, size, cursorAt] at all
    omega
  · have all := reached.returned.all
    rw [← orderHandovers_ordersFrom 0, ← orders, orderHandovers_append] at all
    rw [map_releases, List.append_cancel_right all, orderHandovers, Session.served,
      List.flatMap_map, List.flatMap_map]
  · intro ticket request found away
    obtain ⟨reply, given, comes⟩ := answered ticket request found away
    exact ⟨reply, balanced.answers_eq given, comes⟩

/-- What comes of every moment of a run on a file that fills up. -/
theorem filledTo_run (filling : env.FillsUp settings bytes sound limit file) {spooler : Spooler}
    {stage : Stage σ π} (started : env.start settings (.start file pool) = (.done spooler, stage))
    (acts : List Act) (fitting : Fitting (bytes file).length (submissions acts)) :
    let s := env.run acts (.fresh spooler stage)
    s.FilledTo bytes (bytes file) limit ∧ s.submitted = submissions acts ∧
      s.spooler.queue = waitingAfter acts 0 [] ∧ s.Balanced := by
  intro s
  obtain ⟨⟨chunk, some, fills⟩, calm, syncs, healthy, honest⟩ := filling
  have reached : env.Reaches settings file pool s := (Reaches.start started).run acts
  have balanced : s.Balanced := balanced_run acts (balanced_fresh started)
  have submitted : s.submitted = submissions acts := env.submitted_run acts _
  have empty : spooler.queue = [] := by
    obtain ⟨cursor, -, rfl, -⟩ := spooler_start started
    rfl
  have fresh : (Session.fresh spooler stage).Brimming settings bytes sound limit (bytes file) :=
    brimming_fresh healthy honest started
  obtain ⟨brimming, queue⟩ :=
    brimming_run fills some calm syncs acts (.start started) fitting fresh
  refine ⟨filledTo_of_brimming honest reached balanced (by rwa [submitted]) brimming, submitted,
    ?_, balanced⟩
  change s.spooler.queue = waitingAfter acts 0 spooler.queue at queue
  rwa [empty] at queue

/-- Writers that were given the same, and from whom the same waits, have taken the same. -/
theorem served_eq {σ' π' : Type} {bytes' : σ' → List UInt8} {first' : List UInt8} {limit' : Nat}
    {s : Session σ π} {s' : Session σ' π'} (filled : s.FilledTo bytes first limit)
    (filled' : s'.FilledTo bytes' first' limit') (submitted : s'.submitted = s.submitted)
    (queue : s'.spooler.queue = s.spooler.queue) : s'.served = s.served := by
  have orders := filled.orders
  have orders' := filled'.orders
  rw [queue, submitted, ← orders] at orders'
  have taken := congrArg (List.map Order.request) (List.append_cancel_right orders')
  rwa [List.map_map, List.map_map] at taken

/-- They have given the same answers, if they began at the same length. -/
theorem answers_eq {σ' π' : Type} {bytes' : σ' → List UInt8} {first' : List UInt8}
    {s : Session σ π} {s' : Session σ' π'} (filled : s.FilledTo bytes first limit)
    (filled' : s'.FilledTo bytes' first' limit) (balanced : s.Balanced) (balanced' : s'.Balanced)
    (same : first'.length = first.length) (submitted : s'.submitted = s.submitted)
    (queue : s'.spooler.queue = s.spooler.queue) (ticket : Nat) :
    s'.stage.answers ticket = s.stage.answers ticket := by
  by_cases settled : ticket < s.submitted.length ∧ ∀ order ∈ s.spooler.queue, order.ticket ≠ ticket
  · obtain ⟨inside, away⟩ := settled
    have found : s.submitted[ticket]? = some s.submitted[ticket] := List.getElem?_eq_getElem inside
    obtain ⟨reply, given, comes⟩ := filled.answered ticket _ found away
    obtain ⟨reply', given', comes'⟩ := filled'.answered ticket s.submitted[ticket]
      (by rw [submitted, found]) (by rwa [queue])
    rw [same, submitted] at comes'
    rw [given, given', comes.unique comes']
  · have pending : s.submitted.length ≤ ticket ∨
        ∃ order ∈ s.spooler.queue, order.ticket = ticket := by
      by_cases inside : ticket < s.submitted.length
      · have waits : ¬ ∀ order ∈ s.spooler.queue, order.ticket ≠ ticket := fun away =>
          settled ⟨inside, away⟩
        exact .inr (by simpa using waits)
      · exact .inl (Nat.not_lt.mp inside)
    have pending' : s'.submitted.length ≤ ticket ∨
        ∃ order ∈ s'.spooler.queue, order.ticket = ticket := by
      rwa [submitted, queue]
    rw [balanced.answers_eq_nil pending, balanced'.answers_eq_nil pending']

/-- Two spoolers are started on files with the same contents and the same limit, and the same is done
to both, with buffers that can be framed. Their settings may differ, and so may how much their files
take at a time. Each request is answered with entries if it is empty or ends at or below the limit,
and as lacking space otherwise, and of each the longest front of frames that ends at or below the
limit stays in the file; and both spoolers give the same answers, leave the same in their files, have
come as far, have written as much and have given back the same segments in the same order, at every
moment between two steps. -/
theorem fullness_does_not_depend_on_batching {σ' π' : Type} {env' : Surroundings σ' π'}
    {settings' : Settings} {file' : σ'} {pool' : π'} {bytes' : σ' → List UInt8} {sound' : σ' → Prop}
    (filling : env.FillsUp settings bytes sound limit file)
    (filling' : env'.FillsUp settings' bytes' sound' limit file') (same : bytes' file' = bytes file)
    {spooler : Spooler} {stage : Stage σ π}
    (started : env.start settings (.start file pool) = (.done spooler, stage))
    {spooler' : Spooler} {stage' : Stage σ' π'}
    (started' : env'.start settings' (.start file' pool') = (.done spooler', stage'))
    (acts : List Act) (fitting : Fitting (bytes file).length (submissions acts)) :
    let s := env.run acts (.fresh spooler stage)
    let s' := env'.run acts (.fresh spooler' stage')
    s.FilledTo bytes (bytes file) limit ∧ s.submitted = submissions acts ∧
      s.spooler.queue = waitingAfter acts 0 [] ∧
      (∀ (request : Request) (start n : Nat), 0 < n → n ≤ request.buffers.length →
        (n ≤ (request.within limit start).length ↔
          start + framesSize (request.buffers.take n) ≤ limit)) ∧
      (∀ ticket, s'.stage.answers ticket = s.stage.answers ticket) ∧
      bytes' s'.stage.file = bytes s.stage.file ∧
      s'.spooler.cursor = s.spooler.cursor ∧
      s'.spooler.written = s.spooler.written ∧
      s'.stage.releases.map (fun release => (release.1, release.2.1)) =
        s.stage.releases.map (fun release => (release.1, release.2.1)) := by
  intro s s'
  obtain ⟨filled, submitted, queue, balanced⟩ := filledTo_run filling started acts fitting
  obtain ⟨filled', submitted', queue', balanced'⟩ :=
    filledTo_run filling' started' acts (by rwa [same])
  have given : s'.submitted = s.submitted := submitted'.trans submitted.symm
  have waits : s'.spooler.queue = s.spooler.queue := queue'.trans queue.symm
  have served : s'.served = s.served := served_eq filled filled' given waits
  have content : bytes' s'.stage.file = bytes s.stage.file := by
    rw [filled'.content, filled.content, same, served]
  refine ⟨filled, submitted, queue, fun _ _ _ some inside => Request.le_length_within_iff some inside,
    answers_eq filled filled' balanced balanced' (by rw [same]) given waits, content, ?_, ?_, ?_⟩
  · rw [filled'.cursor, filled.cursor, content]
  · rw [filled'.written, filled.written, same, served]
  · rw [filled'.released, filled.released, served]

/-- A file in memory with a limit, which takes so many bytes at a time, and quiet pools. -/
def cramped (limit chunk : Nat) : Surroundings Memory Unit :=
  ⟨Memory.store.capped limit chunk, Pool.quiet⟩

theorem length_cramped {limit chunk : Nat} {memory : Memory} (healthy : memory.broken = false) :
    (cramped limit chunk).length memory = .done memory.contents.toList.length := by
  rw [Extent.length_toList]
  simp only [cramped, Store.capped, Memory.store, healthy, Bool.false_eq_true, if_false]

theorem fillsUp_cramped {limit chunk : Nat} (some : 0 < chunk) (settings : Settings)
    {memory : Memory} (healthy : memory.broken = false) :
    (cramped limit chunk).FillsUp settings (fun memory => memory.contents.toList)
      (fun memory => memory.broken = false) limit memory where
  fills := ⟨chunk, some, Memory.fills_capped limit chunk⟩
  calm := Pool.calm_quiet
  syncs _ := Memory.syncs
  sound := healthy
  honest := length_cramped healthy

/-- Two frames go to a file of two bytes with room for forty, then two more, of which one is kept,
then nothing, and then one for which there is no room. It makes no difference whether the file takes
three bytes at a time, with a single frame for each write, or all that there is room for. -/
theorem three_frames_fit :
    let file : Memory := ⟨.ofList [1, 2], false⟩
    let narrow : Settings := { Settings.standard with maxSlices := 0, syncEach := true }
    let stage := (Stage.start file ()).note (.starting 2 narrow.threadName)
    let acts : List Act := [.submit ⟨[threeBytes, threeBytes]⟩, .step,
      .submit ⟨[threeBytes, threeBytes]⟩, .submit ⟨[]⟩, .submit ⟨[threeBytes]⟩, .step, .step]
    let s := (cramped 40 3).run acts (.fresh ⟨.start narrow 2, true, []⟩ stage)
    let s' := (cramped 40 1000).run acts (.fresh ⟨.start .standard 2, true, []⟩ stage)
    s.stage.answers 0 = [.ok [⟨7, 0, 2⟩, ⟨7, 0, 13⟩]] ∧
      s.stage.answers 1 = [.error (.io .storageFull)] ∧ s.stage.answers 2 = [.ok []] ∧
      s.stage.answers 3 = [.error (.io .storageFull)] ∧
      (∀ ticket, s'.stage.answers ticket = s.stage.answers ticket) ∧
      s.spooler.written = 33 ∧ s'.spooler.written = 33 ∧
      s'.stage.file.contents.toList = s.stage.file.contents.toList := by
  intro file narrow stage acts s s'
  have named : narrow.threadName.toList.contains '\x00' = false := by decide
  have started : (cramped 40 3).start narrow (.start file ()) =
      (.done ⟨.start narrow 2, true, []⟩, stage) := start_of_length rfl named
  have started' : (cramped 40 1000).start .standard (.start file ()) =
      (.done ⟨.start .standard 2, true, []⟩, stage) := start_of_length rfl named
  obtain ⟨filled, submitted, queue, -, answers, content, -, written, -⟩ :=
    fullness_does_not_depend_on_batching (fillsUp_cramped (by decide) narrow rfl)
      (fillsUp_cramped (by decide) .standard rfl) rfl started started' acts
      ⟨by decide, by rw [Extent.length_toList]; decide⟩
  change s.FilledTo _ _ 40 at filled
  change s.submitted = _ at submitted
  change s.spooler.queue = [] at queue
  change s'.spooler.written = s.spooler.written at written
  have start : (Extent.ofList [1, 2]).toList.length = 2 := by simp
  have comes : ∀ ticket request, (submissions acts)[ticket]? = some request → ∀ reply,
      request.ComesTo 40 (2 + framesSize (keptUnder 40 2 ((submissions acts).take ticket))) reply →
        s.stage.answers ticket = [reply] := by
    intro ticket request found reply comes
    apply answers_of_settled filled queue (by rwa [submitted])
    rwa [submitted, start]
  have all : s.spooler.written = 33 := by
    rw [filled.written, keptUnder_of_settled filled queue, submitted, start]
    decide
  exact ⟨comes 0 _ rfl _ ⟨.inr (by decide), rfl⟩, comes 1 _ rfl _ ⟨⟨by simp, by decide⟩, rfl⟩,
    comes 2 _ rfl _ ⟨.inl rfl, rfl⟩, comes 3 _ rfl _ ⟨⟨by simp, by decide⟩, rfl⟩, answers, all,
    written.trans all, content⟩

end Surroundings
end Spillway
