import Mathlib.Data.List.Basic
import Spillway.Proofs.Cursor
import Spillway.Proofs.Release
/-!
Offsets agree with the cursor. The entries of a request are known before anything is written: they are
consecutive (`Consecutive`) from the cursor on. If the request is answered with them, the file took
exactly its frames, and the cursor has moved to where the last of them ends. Requests are answered in
the order of their tickets, so all entries that are handed out in a run lie one behind the other,
between where the writer began and where it is.
-/

namespace Spillway

variable {σ π : Type}

/-- Entries of items whose frames lie one behind the other: the first one starts at `start`, and the
last one ends at `stop`. -/
inductive Consecutive : (start : Nat) → List Item → List Entry → (stop : Nat) → Prop
  | nil (start : Nat) : Consecutive start [] [] start
  | cons {start stop : Nat} {item : Item} {items : List Item} {entries : List Entry}
      (rest : Consecutive (start + item.frameSize) items entries stop) :
      Consecutive start (item :: items) (⟨item.subpartition, item.index, start⟩ :: entries) stop

/-- The frame of one item starts and ends before that of the other. -/
def Before (one other : Item × Entry) : Prop :=
  one.2.offset < other.2.offset ∧ one.2.offset + one.1.frameSize ≤ other.2.offset

/-- The entries that the request with a ticket has been answered with. -/
def Stage.entriesOf (stage : Stage σ π) (ticket : Nat) : List Entry :=
  match stage.reply? ticket with
  | some (.ok entries) => entries
  | _ => []

/-- The items of the request with a ticket, with the entries it has been answered with. -/
def Session.placedBy (s : Session σ π) (ticket : Nat) : List (Item × Entry) :=
  (s.submitted[ticket]?.toList.flatMap Request.items).zip (s.stage.entriesOf ticket)

/-- All items with their entries, in the order of submission. -/
def Session.placed (s : Session σ π) : List (Item × Entry) :=
  (List.range s.submitted.length).flatMap s.placedBy

/-- An answer is accounted for: since the writer took the request, the file took exactly its frames,
nothing else was answered, and the entries lead from the cursor of that moment to the cursor now. -/
def Accounted (start : Nat) (submitted : List Request) (ticket : Nat) (entries : List Entry)
    (older : List (Event σ)) : Prop :=
  ∃ request new before, submitted[ticket]? = some request ∧ older = new ++ before ∧
    (∀ event ∈ new, event.IsWork (cursorAt start before)) ∧
    Consecutive (cursorAt start before) request.items entries (cursorAt start older) ∧
    takenIn new = request.framedSize

namespace Consecutive

theorem of_entriesFrom {start : Nat} {items : List Item} {entries : List Entry}
    (known : Request.entriesFrom? start items = some entries) :
    Consecutive start items entries (start + framesSize (items.map Item.buffer)) := by
  induction items generalizing start entries with
  | nil =>
    cases known
    exact .nil start
  | cons item rest ih =>
    obtain ⟨-, later, known', rfl⟩ := entriesFrom?_cons.mp known
    rw [List.map_cons, framesSize_cons, ← Nat.add_assoc]
    exact .cons (ih known')

variable {start stop : Nat} {items : List Item} {entries : List Entry}

theorem le (consecutive : Consecutive start items entries stop) : start ≤ stop := by
  induction consecutive with
  | nil start => exact Nat.le_refl start
  | cons rest ih => exact Nat.le_trans (Nat.le_add_right _ _) ih

theorem bounds (consecutive : Consecutive start items entries stop) {placed : Item × Entry}
    (member : placed ∈ items.zip entries) :
    start ≤ placed.2.offset ∧ placed.2.offset + placed.1.frameSize ≤ stop := by
  induction consecutive with
  | nil start => cases member
  | cons rest ih =>
    rw [List.zip_cons_cons] at member
    rcases List.mem_cons.mp member with rfl | later
    · exact ⟨Nat.le_refl _, rest.le⟩
    · obtain ⟨low, high⟩ := ih later
      exact ⟨Nat.le_trans (Nat.le_add_right _ _) low, high⟩

theorem pairwise (consecutive : Consecutive start items entries stop) :
    (items.zip entries).Pairwise Before := by
  induction consecutive with
  | nil start => exact .nil
  | @cons start stop item items entries rest ih =>
    rw [List.zip_cons_cons]
    refine List.pairwise_cons.mpr ⟨fun other member => ?_, ih⟩
    have positive : 0 < item.frameSize := item.buffer.frameSize_pos
    have behind := (rest.bounds member).1
    exact ⟨by simp only; omega, behind⟩

end Consecutive

namespace Surroundings

variable {env : Surroundings σ π} {settings : Settings} {file : σ} {pool : π} {start : Nat}

/-- A request that is answered with entries was taken by the file as a whole, and its entries lead
from the cursor to where the writer has moved on to. -/
theorem accounted_process {request : Request} {writer : Writer} {stage : Stage σ π}
    {entries : List Entry}
    (answered : (env.process request writer stage).reply? = some (.ok entries)) :
    Consecutive writer.cursor request.items entries (env.process request writer stage).writer.cursor ∧
      takenBy (env.process request writer stage).stage.calls =
        takenBy stage.calls + request.framedSize := by
  have settles := env.settles_process (by rw [answered]; rfl)
  generalize env.process request writer stage = verdict at settles answered
  cases settles with
  | poisoned _ _ | refused _ _ _ | cut _ _ _ _ _ _ | stuck _ _ _ => cases answered
  | @written reply after sound accepted done last answer =>
    cases answered
    obtain ⟨cause, failed⟩ | ⟨found, known, same⟩ := answer
    · cases failed
    · cases same
      obtain ⟨took, moves⟩ := env.taken_spill accepted done
      refine ⟨?_, ?_⟩
      · rw [moves.cursor]
        exact .of_entriesFrom known
      · rw [framedSize_eq, ← took]
        rcases last with untouched | ⟨answer, -, -, called⟩
        · rw [untouched.calls]
        · rw [called, takenBy_append]
          rfl

theorem Reaches.accounted {s : Session σ π} (reached : env.Reaches settings file pool s)
    (length : env.length file = .done start) :
    ∀ ticket entries older, .replied ticket (.ok entries) :: older <:+ s.stage.journal →
      Accounted start s.submitted ticket entries older := by
  refine reached.answered_rule (P := Accounted start) ?_ ?_ ?_
  · rintro submitted request ticket entries older ⟨taken, new, before, found, rest⟩
    have inside : ticket < submitted.length := (List.getElem?_eq_some_iff.mp found).1
    exact ⟨taken, new, before, by rw [List.getElem?_append_left inside, found], rest⟩
  · intro s request _ none
    refine ⟨request, [], s.stage.journal, by simp, rfl, by simp, ?_, ?_⟩
    · rw [none]
      exact .nil _
    · rw [Request.framedSize, none]
      rfl
  · intro s order later entries reached queued answered
    obtain ⟨start', length', pending, books, settled⟩ := reached.booked
    obtain rfl : start = start' := by simpa [length] using length'
    obtain rfl := settled (reached.orderly.alive_of_queue (by simp [queued]))
    obtain ⟨consecutive, took⟩ := accounted_process answered
    obtain ⟨left, after, -⟩ := env.booked_process order.request books
    obtain ⟨new, journal, -, -, work, -⟩ :=
      env.effect_process order.request s.spooler.writer s.stage
    refine ⟨order.request, new, s.stage.journal,
      (reached.orderly.submitted_of_queue (by simp [queued])).1, journal, ?_, ?_, ?_⟩
    · rwa [books.cursor] at work
    · rwa [books.cursor, after.cursor] at consecutive
    · rw [takenBy_calls, takenBy_calls, journal, takenIn_append] at took
      omega

end Surroundings

theorem Session.placedBy_eq {s : Session σ π} {ticket : Nat} {placed : Item × Entry}
    (member : placed ∈ s.placedBy ticket) :
    ∃ entries older, .replied ticket (.ok entries) :: older <:+ s.stage.journal ∧
      ∀ request, s.submitted[ticket]? = some request →
        s.placedBy ticket = request.items.zip entries := by
  have paired : placed.2 ∈ s.stage.entriesOf ticket := (List.of_mem_zip member).2
  unfold Stage.entriesOf at paired
  split at paired
  · rename_i entries given
    obtain ⟨older, moment⟩ := moment_of_reply given
    refine ⟨entries, older, moment, fun request found => ?_⟩
    simp [placedBy, found, Stage.entriesOf, given]
  · cases paired

namespace Surroundings

variable {env : Surroundings σ π} {settings : Settings} {file : σ} {pool : π} {start : Nat}

/-- Of two requests with buffers, the one that was submitted first is answered first. -/
theorem Reaches.answered_earlier {s : Session σ π} (reached : env.Reaches settings file pool s)
    {ticket later : Nat} (lt : ticket < later) {request other : Request}
    (found : s.submitted[ticket]? = some request) (full : request.items ≠ [])
    (found' : s.submitted[later]? = some other) (full' : other.items ≠ []) {reply reply' : Reply}
    {older older' : List (Event σ)} (moment : .replied ticket reply :: older <:+ s.stage.journal)
    (moment' : .replied later reply' :: older' <:+ s.stage.journal) :
    .replied ticket reply :: older <:+ older' := by
  have distinct : Event.replied ticket reply :: older ≠ .replied later reply' :: older' := by
    intro same
    cases same
    exact Nat.lt_irrefl _ lt
  rcases List.suffix_or_suffix_of_suffix moment moment' with first | second
  · rcases List.suffix_cons_iff.mp first with same | earlier
    · exact absurd same distinct
    · exact earlier
  · rcases List.suffix_cons_iff.mp second with same | ⟨new, joined⟩
    · exact absurd same.symm distinct
    -- By the later answer, the segments of more requests had gone back than by the earlier one.
    · obtain ⟨first, here, handed⟩ := reached.returned.first _ moment
      obtain ⟨second, here', handed'⟩ := reached.returned.first _ moment'
      obtain rfl : request = first := by simpa [found] using here
      obtain rfl : other = second := by simpa [found'] using here'
      have grown : (handovers older').length ≤ (handovers older).length := by
        have front : handovers (.replied later reply' :: older') = handovers older' := rfl
        rw [← joined, handovers_append, List.length_append, front]
        exact Nat.le_add_right _ _
      have own : 0 < other.handovers.length := by
        simpa [Request.handovers, Request.buffers, List.length_pos_iff] using full'
      have split : s.submitted.take (later + 1) =
          s.submitted.take (ticket + 1) ++ (s.submitted.drop (ticket + 1)).take (later - ticket) := by
        have sum : later + 1 = ticket + 1 + (later - ticket) := by omega
        rw [sum, List.take_add]
      have member : other ∈ (s.submitted.drop (ticket + 1)).take (later - ticket) := by
        apply List.mem_iff_getElem?.mpr
        refine ⟨later - (ticket + 1), ?_⟩
        have place : ticket + 1 + (later - (ticket + 1)) = later := by omega
        rw [List.getElem?_take_of_lt (by omega), List.getElem?_drop, place, found']
      obtain ⟨front, back, between⟩ := List.append_of_mem member
      rw [handed full, handed' full', split, between] at grown
      simp only [List.flatMap_append, List.flatMap_cons, List.length_append] at grown
      omega

/-- Items of two requests are placed in the order in which the requests were submitted. -/
theorem Reaches.placed_earlier {s : Session σ π} (reached : env.Reaches settings file pool s)
    {ticket later : Nat} (lt : ticket < later) {one other : Item × Entry}
    (member : one ∈ s.placedBy ticket) (member' : other ∈ s.placedBy later) : Before one other := by
  obtain ⟨start, length, -⟩ := reached.booked
  obtain ⟨entries, older, moment, placed⟩ := Session.placedBy_eq member
  obtain ⟨entries', older', moment', placed'⟩ := Session.placedBy_eq member'
  obtain ⟨request, new, before, found, -, -, consecutive, -⟩ :=
    reached.accounted length _ _ _ moment
  obtain ⟨request', new', before', found', joined, work, consecutive', -⟩ :=
    reached.accounted length _ _ _ moment'
  rw [placed request found] at member
  rw [placed' request' found'] at member'
  have full : request.items ≠ [] := List.ne_nil_of_mem (List.of_mem_zip member).1
  have full' : request'.items ≠ [] := List.ne_nil_of_mem (List.of_mem_zip member').1
  -- The earlier request was answered before the writer took the later one.
  have earlier := reached.answered_earlier lt found full found' full' moment moment'
  rw [joined] at earlier
  have low := cursorAt_mono start ((List.suffix_cons _ _).trans (suffix_of_isWork work earlier))
  have ends := (consecutive.bounds member).2
  have begins := (consecutive'.bounds member').1
  have positive : 0 < one.1.frameSize := one.1.buffer.frameSize_pos
  exact ⟨by omega, by omega⟩

/-- In every session: the frames of all entries that requests have been answered with are placed one
after the other, in the order of submission, between the cursor at which the writer began and the
cursor now; every answer with entries is accounted for; and if the writer answers the oldest request
in its queue with entries, these lead from the cursor before to the cursor after. -/
theorem offsets_agree_with_the_cursor {s : Session σ π}
    (reached : env.Reaches settings file pool s) :
    ∃ start, env.length file = .done start ∧
      s.spooler.cursor = cursorAt start s.stage.journal ∧
      s.placed.Pairwise Before ∧
      (∀ placed ∈ s.placed, start ≤ placed.2.offset ∧
        placed.2.offset + placed.1.frameSize ≤ s.spooler.cursor) ∧
      (∀ ticket entries older, .replied ticket (.ok entries) :: older <:+ s.stage.journal →
        Accounted start s.submitted ticket entries older) ∧
      ∀ order later entries, s.spooler.queue = order :: later →
        (env.process order.request s.spooler.writer s.stage).reply? = some (.ok entries) →
          Consecutive s.spooler.cursor order.request.items entries (env.work s).spooler.cursor ∧
            takenBy (env.work s).stage.calls =
              takenBy s.stage.calls + order.request.framedSize := by
  obtain ⟨start, length, booked⟩ := reached.booked
  obtain ⟨kept, seen⟩ := cursor_of_booked booked
  have accounted := reached.accounted length
  refine ⟨start, length, seen, ?_, ?_, accounted, ?_⟩
  · refine List.pairwise_flatMap.mpr ⟨fun ticket _ => ?_, ?_⟩
    · cases all : s.placedBy ticket with
      | nil => exact .nil
      | cons placed rest =>
        obtain ⟨entries, older, moment, same⟩ :=
          Session.placedBy_eq (show placed ∈ s.placedBy ticket by simp [all])
        obtain ⟨request, new, before, found, -, -, consecutive, -⟩ := accounted _ _ _ moment
        rw [← all, same request found]
        exact consecutive.pairwise
    · exact List.pairwise_lt_range.imp fun lt one member other member' =>
        reached.placed_earlier lt member member'
  · intro placed member
    obtain ⟨ticket, -, member⟩ := List.mem_flatMap.mp member
    obtain ⟨entries, older, moment, same⟩ := Session.placedBy_eq member
    obtain ⟨request, new, before, found, -, -, consecutive, -⟩ := accounted _ _ _ moment
    rw [same request found] at member
    obtain ⟨low, high⟩ := consecutive.bounds member
    have past := cursorAt_mono start ((List.suffix_cons _ _).trans moment)
    rw [seen]
    exact ⟨Nat.le_trans (Nat.le_add_right _ _) low, Nat.le_trans high past⟩
  · intro order later entries queued answered
    obtain ⟨consecutive, took⟩ := accounted_process answered
    have worked := env.work_of_reply queued (show env.process order.request s.spooler.writer s.stage =
      ⟨some (.ok entries), _, _⟩ by rw [← answered])
    have next := (cursor_of_booked (env.booked_work reached.orderly booked))
    rw [← next.1] at next
    rw [seen, ← kept, next.2, worked]
    refine ⟨consecutive, ?_⟩
    rw [(Stage.Untouched.reply _ _ _).calls, took]

/-- Two frames go to an empty file, which cuts the first write short, is interrupted, and then claims a
single byte. They are placed one behind the other, up to the cursor. -/
theorem two_frames_lead_to_the_cursor :
    let file : Planned Memory := ⟨⟨.empty, false⟩,
      { Plan.none with script := [.atMost 5, .fail .interrupted, .claim 1] }⟩
    let stage := (exercise.start .standard (.start file ())).2
    let handed := exercise.hand ⟨[threeBytes, threeBytes]⟩
      (.fresh ⟨.start .standard 0, true, []⟩ stage)
    let spilt := exercise.work handed
    spilt.spooler.cursor = 22 ∧ spilt.placed.map (fun placed => placed.2.offset) = [0, 11] ∧
      spilt.placed.Pairwise Before ∧
      ∀ placed ∈ spilt.placed, placed.2.offset + placed.1.frameSize ≤ 22 := by
  intro file stage handed spilt
  have reached : exercise.Reaches .standard file () handed := .act (.submit _) (.start rfl)
  have mild : file.plan.Mild := ⟨by decide, rfl, by decide, rfl⟩
  obtain ⟨entries, moved, after, known, processed, moves, -⟩ := filled_process takes_exercise
    Pool.calm_quiet ⟨[threeBytes, threeBytes]⟩ (.start .standard 0) stage (by decide)
    (fun each => absurd each (by decide)) rfl ⟨rfl, mild⟩ (by decide)
  obtain rfl : [⟨7, 0, 0⟩, ⟨7, 0, 11⟩] = entries := Option.some.inj known
  have queued : handed.spooler.queue = [⟨0, ⟨[threeBytes, threeBytes]⟩⟩] := rfl
  have worked : spilt = _ := exercise.work_of_reply queued processed
  obtain ⟨start, -, -, pairwise, within, -⟩ := offsets_agree_with_the_cursor (.act .step reached)
  have cursor : spilt.spooler.cursor = 22 := by
    rw [worked]
    show moved.progress.cursor = 22
    rw [moves.progress rfl, moves.cursor]
    decide
  refine ⟨cursor, ?_, pairwise, fun placed member => ?_⟩
  · rw [worked]
    rfl
  · rw [← cursor]
    exact (within placed member).2

end Surroundings
end Spillway
