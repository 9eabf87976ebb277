import Spillway.Proofs.Offsets
import Spillway.Proofs.Queue
/-!
How the work is cut up makes no difference. On a file that takes what it is offered, with pools that
take every segment back, all requests are answered with entries, as long as their buffers can be
framed and there is room for them. What comes of a run (the entries, the bytes, the cursor, the
segments that went back) is what the items say, one after the other: it does not depend on the
requests they came in, on the batches these are written in, or on how much the file takes at a time.
-/

namespace Spillway

variable {σ π : Type}

/-- The buffers of requests can be framed, and their frames end below half of the machine's span when
the first begins at `start`. -/
structure Fitting (start : Nat) (requests : List Request) : Prop where
  framable : Framable (requests.flatMap Request.buffers)
  room : start + framesSize (requests.flatMap Request.buffers) < Word.half

/-- All that was taken from the queue is behind `first` in the file, and all that was submitted and
does not wait has been answered with entries, as they follow from what was submitted before. -/
structure Session.Unbroken (s : Session σ π) (settings : Settings) (bytes : σ → List UInt8)
    (sound : σ → Prop) (first : List UInt8) : Prop where
  alive : s.spooler.alive = true
  unpoisoned : s.spooler.writer.poisoned = false
  settings : s.spooler.writer.settings = settings
  sound : sound s.stage.file
  content : bytes s.stage.file =
    first ++ (s.errands.flatMap fun errand => errand.order.request.buffers).flatMap Buffer.framed
  cursor : (bytes s.stage.file).length = s.spooler.writer.cursor
  shared : s.spooler.writer.progress.cursor = s.spooler.writer.cursor
  answered : ∀ ticket request, s.submitted[ticket]? = some request →
    (∀ order ∈ s.spooler.queue, order.ticket ≠ ticket) →
      ∃ entries, request.entries? (first.length +
          framesSize ((s.submitted.take ticket).flatMap Request.buffers)) = some entries ∧
        .ok entries ∈ s.stage.answers ticket

/-- What comes of a run in which everything is carried out, in terms of a single request with all the
items: each request submitted has been answered once, with entries; all entries together are those of
the single request; what the items become on a plain output is behind `first` in the file; the cursor
is at its end; and the segments went back in the order of the items. -/
structure Session.Yields (s : Session σ π) (bytes : σ → List UInt8) (first : List UInt8)
    (whole : Request) : Prop where
  answered : ∀ ticket < s.submitted.length, ∃ entries, s.stage.answers ticket = [.ok entries]
  entries : whole.entries? first.length =
    some ((List.range s.submitted.length).flatMap s.stage.entriesOf)
  content : bytes s.stage.file = first ++
    whole.items.flatMap fun item => (Sink.keep.writeFrame item.buffer .empty).2.toList
  cursor : s.spooler.cursor = (bytes s.stage.file).length
  released : s.stage.releases.map (fun release => (release.1, release.2.1)) =
    whole.items.map fun item => item.buffer.handover

/-- A request is answered with its entries, which begin behind the frames of what was submitted
before. -/
def EntersBehind (start : Nat) (before : List Request) (request : Request) (reply : Reply) : Prop :=
  ∃ entries, request.entries? (start + framesSize (before.flatMap Request.buffers)) = some entries ∧
    reply = .ok entries

theorem entersBehind_iff {s : Session σ π} {start : Nat} :
    s.AnsweredBy (EntersBehind start) ↔ ∀ ticket request, s.submitted[ticket]? = some request →
      (∀ order ∈ s.spooler.queue, order.ticket ≠ ticket) →
        ∃ entries, request.entries? (start +
            framesSize ((s.submitted.take ticket).flatMap Request.buffers)) = some entries ∧
          .ok entries ∈ s.stage.answers ticket := by
  constructor
  · intro answered ticket request found away
    obtain ⟨reply, given, entries, known, rfl⟩ := answered ticket request found away
    exact ⟨entries, known, given⟩
  · intro answered ticket request found away
    obtain ⟨entries, known, given⟩ := answered ticket request found away
    exact ⟨.ok entries, given, entries, known, rfl⟩

theorem Fitting.left {start : Nat} {requests more : List Request}
    (fitting : Fitting start (requests ++ more)) : Fitting start requests := by
  obtain ⟨framable, room⟩ := fitting
  rw [List.flatMap_append] at framable room
  rw [framesSize_append] at room
  exact ⟨framable.left, by omega⟩

theorem Stage.entriesOf_eq {stage : Stage σ π} {ticket : Nat} {entries : List Entry}
    (only : stage.answers ticket = [.ok entries]) : stage.entriesOf ticket = entries := by
  rw [Stage.entriesOf, reply?_eq_head?, only]
  rfl

theorem buffers_errands {errands : List Errand} {requests : List Request}
    (orders : errands.map Errand.order = ordersFrom 0 requests) :
    (errands.flatMap fun errand => errand.order.request.buffers) =
      requests.flatMap Request.buffers := by
  have none : ∀ request : Request, request.items = [] → request.buffers = [] := by
    intro request empty
    simp [Request.buffers, empty]
  rw [← flatMap_ordersFrom none 0, ← orders, List.flatMap_map]

/-! ## The entries and the frames of items -/

theorem entriesFrom?_append {start : Nat} {items later : List Item} {entries more : List Entry}
    (first : Request.entriesFrom? start items = some entries)
    (second : Request.entriesFrom? (start + framesSize (items.map Item.buffer)) later = some more) :
    Request.entriesFrom? start (items ++ later) = some (entries ++ more) := by
  induction items generalizing start entries with
  | nil =>
    cases first
    exact second
  | cons item rest ih =>
    obtain ⟨inside, others, known, rfl⟩ := entriesFrom?_cons.mp first
    rw [List.map_cons, framesSize_cons, ← Nat.add_assoc] at second
    exact entriesFrom?_cons.mpr ⟨inside, _, ih known second, rfl⟩

/-- The entries of requests, each of which goes on where the one before ends, are those of a single
request with all their items. -/
theorem entriesFrom?_flatMap {start : Nat} {requests : List Request} {f : Nat → List Entry}
    (each : ∀ ticket request, requests[ticket]? = some request →
      request.entries? (start + framesSize ((requests.take ticket).flatMap Request.buffers)) =
        some (f ticket)) :
    Request.entriesFrom? start (requests.flatMap Request.items) =
      some ((List.range requests.length).flatMap f) := by
  have upTo : ∀ n ≤ requests.length,
      Request.entriesFrom? start ((requests.take n).flatMap Request.items) =
        some ((List.range n).flatMap f) := by
    intro n
    induction n with
    | zero => exact fun _ => rfl
    | succ n ih =>
      intro le
      have found : requests[n]? = some requests[n] := List.getElem?_eq_getElem le
      have buffers : ((requests.take n).flatMap Request.items).map Item.buffer =
          (requests.take n).flatMap Request.buffers := List.map_flatMap
      rw [List.take_add_one, found, List.range_succ, List.flatMap_append, List.flatMap_append]
      apply entriesFrom?_append (ih (by omega))
      rw [buffers]
      simpa [Request.entries?] using each n _ found
  simpa using upTo requests.length (Nat.le_refl _)

namespace Surroundings

variable {env : Surroundings σ π} {settings : Settings} {file : σ} {pool : π}
  {bytes : σ → List UInt8} {sound : σ → Prop} {first : List UInt8}

/-! ## Runs -/

theorem unbroken_hand {s : Session σ π} (request : Request)
    (unbroken : s.Unbroken settings bytes sound first) :
    (env.hand request s).Unbroken settings bytes sound first := by
  obtain ⟨alive, unpoisoned, same, healthy, content, cursor, shared, answered⟩ := unbroken
  have none : request.items = [] → EntersBehind first.length s.submitted request (.ok []) := by
    intro empty
    exact ⟨[], by rw [Request.entries?, empty]; rfl, rfl⟩
  have handed : (env.hand request s).AnsweredBy (EntersBehind first.length) :=
    answeredBy_hand request alive none (entersBehind_iff.mpr answered)
  have enters := entersBehind_iff.mp handed
  cases empty : request.items.isEmpty with
  | true =>
    simp only [hand, submit, empty, if_true] at enters ⊢
    exact ⟨alive, unpoisoned, same, healthy, content, cursor, shared, enters⟩
  | false =>
    simp only [hand, submit, empty, alive, if_true, Bool.false_eq_true, if_false] at enters ⊢
    exact ⟨rfl, unpoisoned, same, healthy, content, cursor, shared, enters⟩

theorem unbroken_work (takes : env.Takes bytes sound) (calm : env.Calm)
    (syncs : settings.syncEach = true → env.Syncs bytes sound) {s : Session σ π}
    (orderly : s.Orderly) (fitting : Fitting first.length s.submitted)
    (unbroken : s.Unbroken settings bytes sound first) :
    (env.work s).Unbroken settings bytes sound first := by
  cases queued : s.spooler.queue with
  | nil =>
    have same : env.work s = s := by simp [work, env.step_nil queued, queued]
    rwa [same]
  | cons order later =>
    obtain ⟨alive, unpoisoned, same, healthy, content, cursor, shared, answered⟩ := unbroken
    have orders := orderly.alive_orders alive
    rw [queued] at orders
    obtain ⟨before, after, submitted, place, past, -⟩ := ordersFrom_split orders
    rw [Nat.zero_add] at place
    -- The errands so far are the requests before this one, so their frames end at the cursor.
    have taken := buffers_errands past
    obtain ⟨framable, room⟩ := fitting
    rw [submitted, List.flatMap_append, List.flatMap_cons] at framable room
    have short := framable.right.left
    have stands : s.spooler.writer.cursor =
        first.length + framesSize (before.flatMap Request.buffers) := by
      rw [← cursor, content, taken, List.length_append, length_framed_flatMap framable.left]
    rw [framesSize_append, framesSize_append] at room
    obtain ⟨entries, moved, done, known, processed, moves, filled⟩ := filled_process takes calm
      order.request s.spooler.writer s.stage short (by rwa [same]) unpoisoned healthy (by omega)
    have added := filled.appended cursor (by rw [length_framed_flatMap short])
    have front : s.submitted.take order.ticket = before := by
      rw [submitted, place]
      simp
    have enters : EntersBehind first.length (s.submitted.take order.ticket) order.request
        (.ok entries) := by
      refine ⟨entries, ?_, rfl⟩
      rwa [front, ← stands]
    have answers := entersBehind_iff.mp
      (answeredBy_work orderly queued processed enters (entersBehind_iff.mpr answered))
    rw [env.work_of_reply queued processed] at answers ⊢
    refine ⟨alive, moves.poisoned.trans unpoisoned, moves.settings.trans same, filled.sound, ?_, ?_,
      moves.progress shared, answers⟩
    · show bytes done.file = _
      rw [added, content]
      simp
    · show (bytes done.file).length = _
      rw [added, List.length_append, cursor, length_framed_flatMap short, moves.cursor]

theorem unbroken_run (takes : env.Takes bytes sound) (calm : env.Calm)
    (syncs : settings.syncEach = true → env.Syncs bytes sound) (acts : List Act) {s : Session σ π}
    (reached : env.Reaches settings file pool s)
    (fitting : Fitting first.length (s.submitted ++ submissions acts))
    (unbroken : s.Unbroken settings bytes sound first) :
    (env.run acts s).Unbroken settings bytes sound first := by
  induction acts generalizing s with
  | nil => exact unbroken
  | cons act acts ih =>
    cases act with
    | submit request =>
      refine ih (.act (.submit request) reached) ?_ (unbroken_hand request unbroken)
      simpa [submissions, next, hand] using fitting
    | forget ticket => exact ih reached fitting unbroken
    | step =>
      exact ih (.act .step reached) fitting
        (unbroken_work takes calm syncs reached.orderly fitting.left unbroken)

/-- When nothing waits any more, everything has been carried out. -/
theorem yields_of_unbroken {s : Session σ π}
    (unbroken : s.Unbroken settings bytes sound first) (none : s.spooler.queue = [])
    (orderly : s.Orderly) (returned : s.Returned) (balanced : s.Balanced)
    (fitting : Fitting first.length s.submitted) {whole : Request}
    (cut : s.submitted.flatMap Request.items = whole.items) : s.Yields bytes first whole := by
  obtain ⟨alive, -, -, -, content, cursor, shared, answered⟩ := unbroken
  have orders := orderly.alive_orders alive
  rw [none, List.append_nil] at orders
  have buffers : s.submitted.flatMap Request.buffers = whole.items.map Item.buffer := by
    rw [← cut, List.map_flatMap]
    rfl
  have once : ∀ ticket request, s.submitted[ticket]? = some request →
      request.entries? (first.length +
          framesSize ((s.submitted.take ticket).flatMap Request.buffers)) =
        some (s.stage.entriesOf ticket) ∧
      s.stage.answers ticket = [.ok (s.stage.entriesOf ticket)] := by
    intro ticket request found
    obtain ⟨entries, known, given⟩ := answered ticket request found (by simp [none])
    have only := balanced.answers_eq given
    rw [Stage.entriesOf_eq only]
    exact ⟨known, only⟩
  refine ⟨?_, ?_, ?_, ?_, ?_⟩
  · intro ticket inside
    exact ⟨_, (once ticket _ (List.getElem?_eq_getElem inside)).2⟩
  · rw [Request.entries?, ← cut]
    exact entriesFrom?_flatMap fun ticket request found => (once ticket request found).1
  · rw [content, buffers_errands orders, buffers, List.flatMap_map]
    congr 1
    apply List.flatMap_congr
    intro item member
    have short : item.buffer.size ≤ Header.maxLength := by
      apply fitting.framable
      rw [buffers]
      exact List.mem_map_of_mem member
    obtain ⟨after, written, frame⟩ := writeFrame_keep short .empty
    rw [written, frame, Extent.toList_empty, List.nil_append]
  · rw [cursor, ← shared]
    rfl
  · have all := returned.all
    have handed : s.submitted.flatMap Request.handovers =
        (s.submitted.flatMap Request.buffers).map Buffer.handover := List.map_flatMap.symm
    rw [none, orderHandovers, List.flatMap_nil, List.append_nil] at all
    rw [map_releases, all, handed, buffers, List.map_map]
    rfl

theorem unbroken_fresh {spooler : Spooler} {stage : Stage σ π} (healthy : sound file)
    (honest : env.length file = .done (bytes file).length)
    (started : env.start settings (.start file pool) = (.done spooler, stage)) :
    (Session.fresh spooler stage).Unbroken settings bytes sound (bytes file) := by
  obtain ⟨cursor, length, rfl, rfl⟩ := spooler_start started
  have told := honest.symm.trans length
  refine ⟨rfl, rfl, rfl, healthy, (List.append_nil _).symm, Answer.done.inj told, rfl, ?_⟩
  intro ticket request found
  cases found

theorem yields_finish {whole : Request} {s : Session σ π} (ending : Ending)
    (yields : (env.workOff s.spooler.queue.length s).Yields bytes first whole) :
    (env.finish ending s).Yields bytes first whole := by
  obtain ⟨answered, entries, content, cursor, released⟩ := yields
  obtain same | ⟨notice, -, same⟩ := env.finish_eq ending s
  · rw [same]
    exact ⟨answered, entries, content, cursor, released⟩
  · rw [same]
    refine ⟨answered, entries, content, cursor, ?_⟩
    rw [map_releases] at released ⊢
    exact released

/-- A spooler is started on a file that takes what it is offered and says how long it is, with pools
that take every segment back, and is given up after a run. Whatever the settings are, however the
items of `whole` are cut into the requests of the run, and whenever the writer comes to them: if the
buffers can be framed and there is room for them, the run yields what `whole` says. -/
theorem cutting_makes_no_difference (takes : env.Takes bytes sound) (calm : env.Calm)
    (syncs : settings.syncEach = true → env.Syncs bytes sound) (healthy : sound file)
    (honest : env.length file = .done (bytes file).length) {spooler : Spooler} {stage : Stage σ π}
    (started : env.start settings (.start file pool) = (.done spooler, stage)) (whole : Request)
    (acts : List Act) (cut : (submissions acts).flatMap Request.items = whole.items)
    (short : ∀ item ∈ whole.items, item.buffer.size ≤ Header.maxLength)
    (room : (bytes file).length + whole.framedSize < Word.half) (ending : Ending) :
    let last := env.finish ending (env.run acts (.fresh spooler stage))
    last.submitted = submissions acts ∧ last.Yields bytes (bytes file) whole := by
  have buffers : (submissions acts).flatMap Request.buffers = whole.buffers := by
    rw [Request.buffers, ← cut, List.map_flatMap]
    rfl
  have fitting : Fitting (bytes file).length (submissions acts) := by
    refine ⟨?_, ?_⟩
    · rw [buffers]
      intro buffer member
      obtain ⟨item, found, rfl⟩ := List.mem_map.mp member
      exact short item found
    · rwa [buffers, ← framedSize_eq]
  have reached : env.Reaches settings file pool (env.run acts (.fresh spooler stage)) :=
    (Reaches.start started).run acts
  have ran := unbroken_run takes calm syncs acts (.start started) fitting
    (unbroken_fresh healthy honest started)
  have submitted : (env.run acts (.fresh spooler stage)).submitted = submissions acts :=
    env.submitted_run acts _
  have balanced : (env.run acts (.fresh spooler stage)).Balanced :=
    balanced_run acts (balanced_fresh started)
  generalize env.run acts (.fresh spooler stage) = s at reached ran submitted balanced ⊢
  -- Giving the spooler up has the writer take as many steps as requests wait.
  have steps : submissions (List.replicate s.spooler.queue.length .step) = [] := by
    simp [submissions]
  have settled := unbroken_run takes calm syncs _ reached
    (by rw [steps, List.append_nil, submitted]; exact fitting) ran
  have reached' := reached.run (List.replicate s.spooler.queue.length .step)
  have balanced' : (env.run (List.replicate s.spooler.queue.length .step) s).Balanced :=
    balanced_run _ balanced
  rw [← env.workOff_eq_run] at settled reached' balanced'
  have same : (env.workOff s.spooler.queue.length s).submitted = submissions acts := by
    rw [submitted_workOff, submitted]
  refine ⟨?_, yields_finish ending (yields_of_unbroken settled (env.queue_workOff s)
    reached'.orderly reached'.returned balanced' (by rwa [same]) (by rwa [same]))⟩
  exact same

/-- Three items come in three requests, one of them empty, with room for no slices and a sync after each
request, to a file that takes seven bytes at a time, is interrupted, and claims less than it stores. The
entries are those of a single request, and the three segments go back. -/
theorem three_items_in_three_requests :
    let file : Planned Memory := ⟨⟨.ofList [1, 2], false⟩,
      { Plan.none with script := [.atMost 5, .fail .interrupted, .claim 1], chunk := some 7 }⟩
    let settings : Settings := { Settings.standard with maxSlices := 0, syncEach := true }
    let stage := (exercise.start settings (.start file ())).2
    let acts : List Act := [.submit ⟨[threeBytes]⟩, .step, .submit ⟨[]⟩, .forget 0,
      .submit ⟨[threeBytes, threeBytes]⟩]
    let last := exercise.finish .discard
      (exercise.run acts (.fresh ⟨.start settings 2, true, []⟩ stage))
    (∀ ticket < 3, ∃ entries, last.stage.answers ticket = [.ok entries]) ∧
      (List.range 3).flatMap last.stage.entriesOf = [⟨7, 0, 2⟩, ⟨7, 0, 13⟩, ⟨7, 0, 24⟩] ∧
      last.stage.releases.map (fun release => (release.1, release.2.1)) =
        List.replicate 3 threeBytes.buffer.handover := by
  intro file settings stage acts last
  have mild : file.plan.Mild := ⟨by decide, rfl, by decide, rfl⟩
  have honest : exercise.length file = .done file.inner.contents.toList.length := by
    rw [Extent.length_toList]
    rfl
  have room : file.inner.contents.toList.length +
      Request.framedSize ⟨List.replicate 3 threeBytes⟩ < Word.half := by
    rw [Extent.length_toList]
    decide
  have named : settings.threadName.toList.contains '\x00' = false := by decide
  have length : exercise.length (Stage.start file ()).file = .done 2 := rfl
  have started : exercise.start settings (.start file ()) =
      (.done ⟨.start settings 2, true, []⟩, stage) :=
    Prod.ext (by rw [start, length]; simp only [named, Bool.false_eq_true, if_false]) rfl
  obtain ⟨submitted, answered, entries, -, -, released⟩ := cutting_makes_no_difference takes_exercise
    Pool.calm_quiet (fun _ => syncs_exercise) ⟨rfl, mild⟩ honest started
    ⟨List.replicate 3 threeBytes⟩ acts rfl (by decide) room .discard
  have three : last.submitted.length = 3 := congrArg List.length submitted
  change ∀ ticket < last.submitted.length, _ at answered
  change _ = some ((List.range last.submitted.length).flatMap last.stage.entriesOf) at entries
  rw [three] at answered entries
  rw [Extent.length_toList] at entries
  exact ⟨answered, (Option.some.inj entries).symm, released⟩

end Surroundings
end Spillway
