import Spillway.Proofs.Calls
import Spillway.Proofs.Cursor
import Spillway.Proofs.Finality
import Spillway.Proofs.Tandem
/-!
Syncing never influences what is written. Two spoolers are given the same requests; their files answer
alike whatever is synced, and their settings differ at most in whether every request is synced. Then
they are mirror images of each other at any time (`Stage.Mirrors`): the same is written and cut, counted
and let go. A sync comes last in a request and changes nothing but its answer, and that only if all of
its frames are written.
-/

namespace Spillway

variable {σ τ π : Type}

/-- Two surroundings with the same pools, whose files answer alike where they are twins. Syncs are not
looked at: twins stay so when either of them is synced, and no sync crashes. -/
structure Surroundings.Twins (left : Surroundings σ π) (right : Surroundings τ π)
    (twin : σ → τ → Prop) : Prop where
  pool : right.toPool = left.toPool
  length : ∀ {a b}, twin a b → right.length b = left.length a
  write : ∀ {a b}, twin a b → ∀ slices position,
    (right.write b slices position).1 = (left.write a slices position).1 ∧
      twin (left.write a slices position).2 (right.write b slices position).2
  truncate : ∀ {a b}, twin a b → ∀ length,
    (right.truncate b length).1 = (left.truncate a length).1 ∧
      twin (left.truncate a length).2 (right.truncate b length).2
  sync_left : ∀ {a b}, twin a b → (left.sync a).1 ≠ .crashed ∧ twin (left.sync a).2 b
  sync_right : ∀ {a b}, twin a b → (right.sync b).1 ≠ .crashed ∧ twin a (right.sync b).2

/-- The same settings, apart from whether every request is synced. -/
def Settings.syncing (settings : Settings) (each : Bool) : Settings :=
  { settings with syncEach := each }

/-- The same writer, with settings that may differ in whether every request is synced. -/
def Writer.syncing (writer : Writer) (each : Bool) : Writer :=
  { writer with settings := writer.settings.syncing each }

def Spooler.syncing (spooler : Spooler) (each : Bool) : Spooler :=
  { spooler with writer := spooler.writer.syncing each }

/-- What is seen of an event, the file apart, when neither syncs are looked at nor what comes of them. -/
def Event.seen? : Event σ → Option (Event Unit)
  | .called (.sync _) => none
  | .called call => some (.called call)
  | .released owner segment _ => some (.released owner segment ())
  | .counted .bytesWritten amount => some (.counted .bytesWritten amount)
  | .crashed => some .crashed
  | .counted _ _ | .noted _ | .replied _ _ => none

/-- What is seen of a journal. -/
def seenIn (journal : List (Event σ)) : List (Event Unit) := journal.filterMap Event.seen?

/-- Stages with twin files and the same pools on which the same was seen. -/
structure Stage.Mirrors (twin : σ → τ → Prop) (left : Stage σ π) (right : Stage τ π) : Prop where
  file : twin left.file right.file
  pool : right.pool = left.pool
  seen : seenIn right.journal = seenIn left.journal

/-- Work that ended in the same way, by writers that differ at most in whether they sync. -/
structure Work.Mirrors (twin : σ → τ → Prop) (each : Bool) (left : Work σ π) (right : Work τ π) :
    Prop where
  outcome : right.outcome = left.outcome
  writer : right.writer = left.writer.syncing each
  stage : left.stage.Mirrors twin right.stage

def Call.isSync : Call → Bool
  | .sync _ => true
  | _ => false

/-- The cause for which a sync failed. -/
def Call.syncCause? : Call → Option Cause
  | .sync (.failed failure) => some failure.cause
  | _ => none

/-- What a request whose frames are written is answered with: its entries, unless a sync is among the
calls that were made for it, and failed. -/
def replyAfter (calls : List Call) (entries : List Entry) : Reply :=
  match calls.findSome? Call.syncCause? with
  | some cause => .error (.io cause)
  | none => .ok entries

/-- What two requests that are processed side by side are answered with, when these calls are made for
them: their entries unless a sync failed, if all of their frames are written; the same error, if not;
or nothing, if both spoolers died over them. -/
inductive Agree (request : Request) (start : Nat) (made other : List Call) :
    Option Reply → Option Reply → Prop
  | written {entries : List Entry} (all : takenBy made = framesSize request.buffers)
      (known : request.entries? start = some entries) :
      Agree request start made other (some (replyAfter made entries))
        (some (replyAfter other entries))
  | failed (error : SpillError)
      (less : request.items ≠ [] → takenBy made ≠ framesSize request.buffers) :
      Agree request start made other (some (.error error)) (some (.error error))
  | died : Agree request start made other none none

/-- Verdicts of two spoolers side by side. -/
structure Verdict.Mirrors (twin : σ → τ → Prop) (each : Bool) (left : Verdict σ π)
    (right : Verdict τ π) : Prop where
  writer : right.writer = left.writer.syncing each
  stage : left.stage.Mirrors twin right.stage

/-- An errand for a request that is not empty, of which the file took all there was to write. -/
def Errand.Wrote (errand : Errand) : Prop :=
  errand.order.request.items ≠ [] ∧
    takenBy errand.calls = framesSize errand.order.request.buffers

/-- Sessions of two spoolers side by side: their stages are mirror images, and they answered alike, except
to requests that were written as a whole. -/
structure Session.Mirrors (twin : σ → τ → Prop) (each : Bool) (s : Session σ π) (t : Session τ π) :
    Prop where
  spooler : t.spooler = s.spooler.syncing each
  submitted : t.submitted = s.submitted
  crashed : t.crashed = s.crashed
  orders : t.errands.map Errand.order = s.errands.map Errand.order
  stage : s.stage.Mirrors twin t.stage
  answers : ∀ ticket, t.stage.answers ticket = s.stage.answers ticket ∨
    ∃ errand ∈ s.errands, errand.order.ticket = ticket ∧ errand.Wrote

/-- Whether requests are synced makes no difference before it comes to that. -/
theorem Writer.aside_syncing (each : Bool) : Writer.Aside (·.syncing each) where
  cursor _ := rfl
  poisoned _ := rfl
  frames _ := rfl
  advance _ _ := rfl
  poison _ := rfl

namespace Surroundings.Twins

variable {left : Surroundings σ π} {right : Surroundings τ π} {twin : σ → τ → Prop}

theorem symm (twins : left.Twins right twin) : right.Twins left fun b a => twin a b where
  pool := twins.pool.symm
  length same := (twins.length same).symm
  write same slices position :=
    ⟨(twins.write same slices position).1.symm, (twins.write same slices position).2⟩
  truncate same length := ⟨(twins.truncate same length).1.symm, (twins.truncate same length).2⟩
  sync_left := twins.sync_right
  sync_right := twins.sync_left

end Surroundings.Twins

namespace Stage.Mirrors

variable {twin : σ → τ → Prop} {a : Stage σ π} {b : Stage τ π}

theorem symm (same : a.Mirrors twin b) : b.Mirrors (fun b a => twin a b) a :=
  ⟨same.file, same.pool.symm, same.seen.symm⟩

theorem record (same : a.Mirrors twin b) (event : Event σ) (other : Event τ)
    (seen : other.seen? = event.seen?) : (a.record event).Mirrors twin (b.record other) := by
  refine ⟨same.file, same.pool, ?_⟩
  simp only [Stage.record, seenIn, List.filterMap_cons, seen]
  rw [← seenIn, ← seenIn, same.seen]

theorem unseen (same : a.Mirrors twin b) (event : Event σ) (none : event.seen? = none) :
    (a.record event).Mirrors twin b := by
  refine ⟨same.file, same.pool, ?_⟩
  simp only [Stage.record, seenIn, List.filterMap_cons, none]
  exact same.seen

theorem release (same : a.Mirrors twin b) (pool : Pool π) (buffer : Buffer) :
    (pool.release buffer b).1 = (pool.release buffer a).1 ∧
      (pool.release buffer a).2.Mirrors twin (pool.release buffer b).2 := by
  have handed : ∀ owner segment, (a.record (.released owner segment a.file)).Mirrors twin
      (b.record (.released owner segment b.file)) :=
    fun owner segment => same.record _ _ rfl
  unfold Pool.release Pool.giveBack
  cases owner : buffer.owner with
  | nobody => exact ⟨rfl, handed .nobody buffer.segment⟩
  | pool number =>
    have reclaimed : ∀ state : π, Stage.Mirrors twin
        { a.record (.released (.pool number) buffer.segment a.file) with pool := state }
        { b.record (.released (.pool number) buffer.segment b.file) with pool := state } :=
      fun state => ⟨same.file, rfl, (handed _ _).seen⟩
    have pooled : (b.record (.released (.pool number) buffer.segment b.file)).pool = a.pool :=
      same.pool
    simp only [pooled]
    constructor
    · rfl
    · show Stage.Mirrors twin (if (pool.reclaim a.pool number buffer.segment).1 then _ else _) _
      split
      · exact (reclaimed _).record .crashed .crashed rfl
      · exact reclaimed _

/-- Nothing is seen of the count of a request that is answered. -/
theorem countSuccess (same : a.Mirrors twin b) (request : Request) :
    (a.countSuccess request).Mirrors twin b :=
  ((same.unseen (.counted .requests 1) rfl).unseen
    (.counted .buffersSpilled request.items.length) rfl).unseen (.counted .writeLatency 1) rfl

theorem countFailure (same : a.Mirrors twin b) (request : Request) (start bytes : Nat)
    (error : SpillError) : (a.countFailure request start bytes error).Mirrors twin b :=
  (same.unseen (.counted .failedRequests 1) rfl).unseen
    (.noted (.failed request.items.length start bytes error)) rfl

end Stage.Mirrors

theorem Session.Mirrors.leave {twin : σ → τ → Prop} {each : Bool} {s : Session σ π} {t : Session τ π}
    (mirrors : s.Mirrors twin each t) (ending : Ending) :
    (s.leave ending).Mirrors twin each (t.leave ending) := by
  obtain ⟨spooler, submitted, crashed, orders, stage, answers⟩ := mirrors
  have alive : t.spooler.alive = s.spooler.alive := by
    rw [spooler]
    rfl
  have cursor : t.spooler.writer.cursor = s.spooler.writer.cursor := by
    rw [spooler]
    rfl
  have gone : t.shut.spooler = s.shut.spooler.syncing each := by
    simp only [shut, spooler]
    rfl
  rcases leave_together ending alive cursor with ⟨first, second⟩ | ⟨notice, -, first, second⟩
  · rw [first, second]
    exact ⟨gone, submitted, crashed, orders, stage, answers⟩
  · rw [first, second]
    exact ⟨gone, submitted, crashed, orders, stage.record _ _ rfl, answers⟩

namespace Surroundings.Twins

variable {left : Surroundings σ π} {right : Surroundings τ π} {twin : σ → τ → Prop}
  {a : Stage σ π} {b : Stage τ π}

/-- Apart from syncs, the same deeds on both sides leave mirror images. -/
theorem tandem (twins : left.Twins right twin) : left.Tandem right (Stage.Mirrors twin) where
  write {a b} same slices position := by
    obtain ⟨alike, file⟩ := twins.write same.file slices position
    have written : Stage.Mirrors twin { a with file := (left.write a.file slices position).2 }
        { b with file := (right.write b.file slices position).2 } := ⟨file, same.pool, same.seen⟩
    exact ⟨alike, written.record _ _ (by rw [alike]; rfl)⟩
  truncate {a b} same length := by
    obtain ⟨alike, file⟩ := twins.truncate same.file length
    have cut : Stage.Mirrors twin { a with file := (left.truncate a.file length).2 }
        { b with file := (right.truncate b.file length).2 } := ⟨file, same.pool, same.seen⟩
    exact ⟨alike, cut.record _ _ (by rw [alike]; rfl)⟩
  release {a b} same buffer := by
    rw [twins.pool]
    exact same.release left.toPool buffer
  note same notice := same.record _ _ rfl
  count same instrument amount := same.record _ _ (by cases instrument <;> rfl)
  crash same := same.record _ _ rfl

theorem mirrors_releaseAll (twins : left.Twins right twin) (same : a.Mirrors twin b)
    (buffers : List Buffer) :
    (right.releaseAll buffers b).1 = (left.releaseAll buffers a).1 ∧
      (left.releaseAll buffers a).2.Mirrors twin (right.releaseAll buffers b).2 :=
  twins.tandem.tandem_releaseAll same buffers

theorem mirrors_syncOn (twins : left.Twins right twin) (same : a.Mirrors twin b) :
    (left.syncOn a).1 ≠ .crashed ∧ (left.syncOn a).2.Mirrors twin b := by
  obtain ⟨calm, file⟩ := twins.sync_left same.file
  have synced : Stage.Mirrors twin { a with file := (left.sync a.file).2 } b :=
    ⟨file, same.pool, same.seen⟩
  exact ⟨calm, synced.unseen _ rfl⟩

variable {each : Bool}

theorem mirrors_spill (twins : left.Twins right twin) (same : a.Mirrors twin b)
    (request : Request) (writer : Writer) :
    (left.spill request writer a).Mirrors twin each
      (right.spill request (writer.syncing each) b) := by
  obtain ⟨outcome, moved, after⟩ := twins.tandem.tandem_writeRequest (Writer.aside_syncing each)
    (same.record (.noted (.spilling request.items.length request.framedSize writer.cursor))
      (.noted (.spilling request.items.length request.framedSize writer.cursor)) rfl) request writer
  exact ⟨outcome, moved, after⟩

theorem mirrors_refuse (twins : left.Twins right twin) (same : a.Mirrors twin b) (each : Bool)
    (request : Request) (error : SpillError) (writer : Writer) :
    (left.refuse request error writer a).Mirrors twin each
        (right.refuse request error (writer.syncing each) b) ∧
      (right.refuse request error (writer.syncing each) b).reply? =
        (left.refuse request error writer a).reply? := by
  obtain ⟨reply, moved, after⟩ :=
    twins.tandem.tandem_refuse (·.syncing each) same request error writer
  exact ⟨⟨moved, after⟩, reply⟩

/-- A request whose frames are written is answered with its entries, unless it is synced and that
fails. Nothing is seen of the sync. -/
theorem carryOut_of_written (twins : left.Twins right twin) {request : Request}
    (accepted : request.refusal? = none) (entries : List Entry) {writer : Writer}
    (done : (left.spill request writer a).outcome = .done)
    (same : (left.spill request writer a).stage.Mirrors twin b) :
    ∃ made after, left.carryOut request entries writer a =
        ⟨some (replyAfter made entries), (left.spill request writer a).writer, after⟩ ∧
      after.Mirrors twin b ∧ after.calls = a.calls ++ made ∧
      takenBy made = framesSize request.buffers := by
  obtain ⟨made, calls, writes⟩ := (left.writes_spill accepted writer a).calls
  obtain ⟨took, -⟩ := left.taken_spill accepted done
  rw [calls, takenBy_append, Nat.add_left_cancel_iff] at took
  have none : made.findSome? Call.syncCause? = none := by
    refine List.findSome?_eq_none_iff.mpr fun call member => ?_
    obtain ⟨position, slices, answer, older, rfl, -⟩ := writes call member
    rfl
  by_cases each : (left.spill request writer a).writer.settings.syncEach = true
  · obtain ⟨calm, unseen⟩ := twins.mirrors_syncOn same
    cases synced : left.syncOn (left.spill request writer a).stage with
    | mk answer after =>
      rw [synced] at calm unseen
      have called := (Store.called_syncOn synced).2
      rw [calls, List.append_assoc] at called
      have all : takenBy (made ++ [.sync answer]) = framesSize request.buffers := by
        rw [takenBy_append, took]
        rfl
      have carried := @carryOut_of_sync σ π left request writer a entries done each
      rw [synced] at carried
      cases answer with
      | crashed => exact absurd rfl calm
      | failed failure =>
        refine ⟨made ++ [.sync (.failed failure)], _, ?_,
          unseen.countFailure request writer.cursor
            ((left.spill request writer a).writer.cursor - writer.cursor) (.io failure.cause), ?_, all⟩
        · rw [carried, replyAfter, List.findSome?_append, none]
          rfl
        · rw [(Stage.Untouched.countFailure _ request _ _ _).calls, called]
      | done value =>
        refine ⟨made ++ [.sync (.done value)], _, ?_, unseen.countSuccess request, ?_, all⟩
        · rw [carried, replyAfter, List.findSome?_append, none]
          rfl
        · rw [(Stage.Untouched.countSuccess _ request).calls, called]
  · have never : (left.spill request writer a).writer.settings.syncEach = false := by
      simpa using each
    refine ⟨made, _, ?_, same.countSuccess request, ?_, took⟩
    · rw [carryOut_of_done done never, replyAfter, none]
    · rw [(Stage.Untouched.countSuccess _ request).calls, calls]

/-- A request that is cut back was not taken as a whole. -/
theorem less_of_failed {request : Request} (accepted : request.refusal? = none)
    (entries : List Entry) {writer : Writer} {error : SpillError}
    (failed : (left.spill request writer a).outcome = .failed error) :
    takenBy ((left.carryOut request entries writer a).stage.calls.drop a.calls.length) <
      framesSize request.buffers := by
  have less := left.less_spill accepted failed
  obtain ⟨made, calls, -⟩ := (left.writes_spill accepted writer a).calls
  rw [calls, takenBy_append, Nat.add_lt_add_iff_left] at less
  rw [carryOut_of_failed failed]
  simp only
  generalize (left.spill request writer a).writer = moved
  have counted : ((left.spill request writer a).stage.countFailure request writer.cursor
      (moved.cursor - writer.cursor) error).calls = a.calls ++ made := by
    rw [(Stage.Untouched.countFailure _ request _ _ _).calls, calls]
  generalize (left.spill request writer a).stage.countFailure request writer.cursor
    (moved.cursor - writer.cursor) error = between at counted ⊢
  obtain ⟨answer, repaired⟩ := left.calls_repair moved between
  rw [repaired, counted, List.append_assoc, List.drop_left, takenBy_append]
  exact less

theorem mirrors_carryOut (twins : left.Twins right twin) (same : a.Mirrors twin b)
    {request : Request} (accepted : request.refusal? = none) {entries : List Entry}
    {writer : Writer} (known : request.entries? writer.cursor = some entries) :
    (left.carryOut request entries writer a).Mirrors twin each
        (right.carryOut request entries (writer.syncing each) b) ∧
      Agree request writer.cursor
        ((left.carryOut request entries writer a).stage.calls.drop a.calls.length)
        ((right.carryOut request entries (writer.syncing each) b).stage.calls.drop b.calls.length)
        (left.carryOut request entries writer a).reply?
        (right.carryOut request entries (writer.syncing each) b).reply? := by
  have spilt : (left.spill request writer a).Mirrors twin each _ :=
    twins.mirrors_spill same request writer
  obtain ⟨outcome, moved, after⟩ := spilt
  cases ended : (left.spill request writer a).outcome with
  | crashed =>
    rw [carryOut_of_crashed ended, carryOut_of_crashed (outcome.trans ended)]
    exact ⟨⟨moved, after⟩, .died⟩
  | failed error =>
    have less := less_of_failed accepted entries ended
    rw [carryOut_of_failed ended] at less ⊢
    rw [carryOut_of_failed (outcome.trans ended)]
    simp only [moved] at less ⊢
    generalize (left.spill request writer a).writer = cut at less ⊢
    have counted := (after.countFailure request writer.cursor (cut.cursor - writer.cursor) error).symm
    have both := (counted.countFailure request writer.cursor (cut.cursor - writer.cursor) error).symm
    obtain ⟨alike, poisoned, repaired⟩ := twins.tandem.tandem_repair (Writer.aside_syncing each) both cut
    have here : (writer.syncing each).cursor = writer.cursor := rfl
    have there : (cut.syncing each).cursor = cut.cursor := rfl
    simp only [here, there, alike]
    refine ⟨⟨poisoned, repaired⟩, ?_⟩
    split
    · exact .died
    · exact .failed error fun _ => Nat.ne_of_lt less
  | done =>
    obtain ⟨made, last, carried, unseen, calls, all⟩ :=
      twins.carryOut_of_written accepted entries ended after
    obtain ⟨other, last', carried', unseen', calls', -⟩ :=
      twins.symm.carryOut_of_written accepted entries (outcome.trans ended) unseen.symm
    rw [carried, carried', calls, calls', List.drop_left, List.drop_left]
    exact ⟨⟨moved, unseen'.symm⟩, .written all known⟩

theorem agree_refuse {request : Request} (error : SpillError) (writer : Writer) (start : Nat)
    (other : List Call) :
    Agree request start
      ((left.refuse request error writer a).stage.calls.drop a.calls.length) other
      (left.refuse request error writer a).reply? (left.refuse request error writer a).reply? := by
  have none : (left.refuse request error writer a).stage.calls = a.calls :=
    (Stage.Untouched.releaseAll left.toPool request.buffers a).calls
  rw [none, List.drop_length]
  by_cases crash : (left.releaseAll request.buffers a).1 = true
  · have died : (left.refuse request error writer a).reply? = Option.none := by
      simp [refuse, crash]
    rw [died]
    exact .died
  · have answered : (left.refuse request error writer a).reply? = some (.error error) := by
      simp [refuse, crash]
    rw [answered]
    refine .failed error fun some all => ?_
    have positive := Request.framedSize_pos some
    rw [framedSize_eq, ← all] at positive
    exact absurd positive (by decide)

/-- Two requests that are processed side by side leave mirrored stages, and agree on their answers. -/
theorem mirrors_process (twins : left.Twins right twin) (same : a.Mirrors twin b) (each : Bool)
    (request : Request) (writer : Writer) :
    (left.process request writer a).Mirrors twin each
        (right.process request (writer.syncing each) b) ∧
      Agree request writer.cursor
        ((left.process request writer a).stage.calls.drop a.calls.length)
        ((right.process request (writer.syncing each) b).stage.calls.drop b.calls.length)
        (left.process request writer a).reply?
        (right.process request (writer.syncing each) b).reply? := by
  have poison : (writer.syncing each).poisoned = writer.poisoned := rfl
  have here : (writer.syncing each).cursor = writer.cursor := rfl
  simp only [process, poison, here]
  by_cases poisoned : writer.poisoned = true
  · obtain ⟨refused, reply⟩ := twins.mirrors_refuse same each request .poisoned writer
    simp only [if_pos poisoned]
    rw [reply]
    exact ⟨refused, agree_refuse .poisoned writer _ _⟩
  · simp only [if_neg poisoned]
    cases refusal : request.refusal? with
    | some error =>
      obtain ⟨refused, reply⟩ := twins.mirrors_refuse same each request (.frame error) writer
      simp only
      rw [reply]
      exact ⟨refused, agree_refuse (.frame error) writer _ _⟩
    | none =>
      cases known : request.entries? writer.cursor with
      | none =>
        have crashed := same.record .crashed .crashed rfl
        exact ⟨⟨rfl, (twins.mirrors_releaseAll crashed request.buffers).2⟩, .died⟩
      | some entries => exact twins.mirrors_carryOut same refusal known

/-! ## Runs -/

theorem mirrors_abandon (twins : left.Twins right twin) (same : a.Mirrors twin b)
    (orders : List Order) :
    (left.abandon orders a).Mirrors twin (right.abandon orders b) ∧
      ∀ ticket, b.answers ticket = a.answers ticket →
        (right.abandon orders b).answers ticket = (left.abandon orders a).answers ticket := by
  induction orders generalizing a b with
  | nil => exact ⟨same, fun ticket alike => alike⟩
  | cons order later ih =>
    obtain ⟨-, handed⟩ := twins.mirrors_releaseAll same order.request.buffers
    obtain ⟨abandoned, answers⟩ := ih (handed.record (.replied order.ticket (.error .closed))
      (.replied order.ticket (.error .closed)) rfl)
    refine ⟨abandoned, fun ticket alike => answers ticket ?_⟩
    have silent := (left.effect_releaseAll 0 order.request.buffers a).answers_eq ticket
    have silent' := (right.effect_releaseAll 0 order.request.buffers b).answers_eq ticket
    change ((right.releaseAll order.request.buffers b).2.reply order.ticket _).answers ticket =
      ((left.releaseAll order.request.buffers a).2.reply order.ticket _).answers ticket
    rw [answers_reply, answers_reply, silent, silent', alike]

variable {s : Session σ π} {t : Session τ π}

theorem mirrors_hand (twins : left.Twins right twin) (request : Request)
    (mirrors : s.Mirrors twin each t) :
    (left.hand request s).Mirrors twin each (right.hand request t) := by
  obtain ⟨spooler, submitted, crashed, orders, stage, answers⟩ := mirrors
  have alive : (s.spooler.syncing each).alive = s.spooler.alive := rfl
  simp only [hand, submit, spooler, submitted, crashed, alive]
  -- A reply that is given on both sides keeps alike answers alike.
  have replied : ∀ {a : Stage σ π} {b : Stage τ π} (number : Nat) (reply : Reply),
      (∀ ticket, a.answers ticket = s.stage.answers ticket) →
      (∀ ticket, b.answers ticket = t.stage.answers ticket) → ∀ ticket,
        (b.reply number reply).answers ticket = (a.reply number reply).answers ticket ∨
          ∃ errand ∈ s.errands, errand.order.ticket = ticket ∧ errand.Wrote := by
    intro a b number reply silent silent' ticket
    rcases answers ticket with alike | wrote
    · left
      rw [answers_reply, answers_reply, silent, silent', alike]
    · exact .inr wrote
  by_cases empty : request.items.isEmpty = true
  · simp only [if_pos empty]
    exact ⟨rfl, rfl, rfl, orders, stage.record _ _ rfl,
      replied _ _ (fun _ => rfl) fun _ => rfl⟩
  · simp only [if_neg empty]
    by_cases lives : s.spooler.alive = true
    · simp only [if_pos lives]
      exact ⟨rfl, rfl, rfl, orders, stage, answers⟩
    · simp only [if_neg lives]
      obtain ⟨alike, handed⟩ := twins.mirrors_releaseAll stage request.buffers
      have silent := (left.effect_releaseAll 0 request.buffers s.stage).answers_eq
      have silent' := (right.effect_releaseAll 0 request.buffers t.stage).answers_eq
      rw [alike]
      refine ⟨rfl, rfl, rfl, orders, ?_, ?_⟩
      · split
        · exact handed
        · exact handed.record _ _ rfl
      · split
        · intro ticket
          rw [silent, silent']
          exact answers ticket
        · exact replied _ _ silent silent'

/-- The oldest request in both queues is processed side by side. -/
theorem verdicts_of_mirrors (twins : left.Twins right twin) (mirrors : s.Mirrors twin each t)
    {order : Order} {later : List Order} (queued : s.spooler.queue = order :: later) :
    ∃ reply? reply?' writer last last', t.spooler.queue = order :: later ∧
      left.process order.request s.spooler.writer s.stage = ⟨reply?, writer, last⟩ ∧
      right.process order.request t.spooler.writer t.stage =
        ⟨reply?', writer.syncing each, last'⟩ ∧
      last.Mirrors twin last' ∧
      Agree order.request s.spooler.writer.cursor (last.calls.drop s.stage.calls.length)
        (last'.calls.drop t.stage.calls.length) reply? reply?' ∧
      (∀ ticket, last.answers ticket = s.stage.answers ticket) ∧
      ∀ ticket, last'.answers ticket = t.stage.answers ticket := by
  have begun : t.spooler.writer = s.spooler.writer.syncing each := by
    rw [mirrors.spooler]
    rfl
  have queued' : t.spooler.queue = order :: later := by
    rw [mirrors.spooler]
    exact queued
  obtain ⟨⟨moved, after⟩, agree⟩ :=
    twins.mirrors_process mirrors.stage each order.request s.spooler.writer
  have silent := (left.effect_process order.request s.spooler.writer s.stage).answers_eq
  have silent' := (right.effect_process order.request t.spooler.writer t.stage).answers_eq
  rw [← begun] at moved after agree
  generalize left.process order.request s.spooler.writer s.stage = verdict
    at moved after agree silent ⊢
  generalize right.process order.request t.spooler.writer t.stage = verdict'
    at moved after agree silent' ⊢
  obtain ⟨reply?, writer, last⟩ := verdict
  obtain ⟨reply?', writer', last'⟩ := verdict'
  obtain rfl : writer' = writer.syncing each := moved
  exact ⟨reply?, reply?', writer, last, last', queued', rfl, rfl, after, agree, silent, silent'⟩

theorem mirrors_work (twins : left.Twins right twin) (orderly : s.Orderly)
    (mirrors : s.Mirrors twin each t) : (left.work s).Mirrors twin each (right.work t) := by
  cases queued : s.spooler.queue with
  | nil =>
    obtain ⟨spooler, submitted, crashed, orders, stage, answers⟩ := mirrors
    have queued' : t.spooler.queue = [] := by
      rw [spooler]
      exact queued
    simp only [work, left.step_nil queued, right.step_nil queued', queued, queued']
    exact ⟨spooler, submitted, crashed, by simpa using orders, stage, by simpa using answers⟩
  | cons order later =>
    obtain ⟨reply?, reply?', writer, last, last', queued', verdict, verdict', after, agree, silent,
      silent'⟩ := twins.verdicts_of_mirrors mirrors queued
    obtain ⟨spooler, submitted, crashed, orders, stage, answers⟩ := mirrors
    have some := (orderly.submitted_of_queue (show order ∈ s.spooler.queue by simp [queued])).2
    -- What was answered alike before still is, and what was written as a whole stays so.
    have before : ∀ errands, s.errands <+: errands → ∀ ticket,
        last'.answers ticket = last.answers ticket ∨
          ∃ errand ∈ errands, errand.order.ticket = ticket ∧ errand.Wrote := by
      intro errands more ticket
      rcases answers ticket with alike | ⟨errand, member, wrote⟩
      · exact .inl (by rw [silent, silent', alike])
      · exact .inr ⟨errand, more.subset member, wrote⟩
    cases agree with
    | written all known =>
      rw [left.work_of_reply queued verdict, right.work_of_reply queued' verdict']
      refine ⟨by rw [spooler]; rfl, submitted, crashed, by simp [orders], after.record _ _ rfl,
        fun ticket => ?_⟩
      by_cases own : order.ticket = ticket
      · refine .inr ⟨_, List.mem_append_right _ (List.mem_singleton.mpr rfl), own, some, ?_⟩
        rw [(Stage.Untouched.reply last order.ticket _).calls]
        exact all
      · simp only [answers_reply, if_neg own]
        exact before _ (List.prefix_append _ _) ticket
    | failed error less =>
      rw [left.work_of_reply queued verdict, right.work_of_reply queued' verdict']
      refine ⟨by rw [spooler]; rfl, submitted, crashed, by simp [orders], after.record _ _ rfl,
        fun ticket => ?_⟩
      simp only [answers_reply]
      rcases before _ (List.prefix_append s.errands _) ticket with alike | wrote
      · exact .inl (by rw [alike])
      · exact .inr wrote
    | died =>
      rw [left.work_of_death queued verdict, right.work_of_death queued' verdict']
      obtain ⟨abandoned, alike⟩ := twins.mirrors_abandon (after.record
        (.replied order.ticket (.error .closed)) (.replied order.ticket (.error .closed)) rfl) later
      refine ⟨rfl, submitted, crashed, by simp [orders], abandoned, fun ticket => ?_⟩
      rcases before _ (List.prefix_append s.errands _) ticket with same | wrote
      · refine .inl (alike ticket ?_)
        change (last'.reply order.ticket _).answers ticket = (last.reply order.ticket _).answers ticket
        rw [answers_reply, answers_reply, same]
      · exact .inr wrote

theorem mirrors_next (twins : left.Twins right twin) (orderly : s.Orderly)
    (mirrors : s.Mirrors twin each t) (act : Act) :
    (left.next act s).Mirrors twin each (right.next act t) := by
  cases act with
  | submit request => exact twins.mirrors_hand request mirrors
  | forget ticket => exact mirrors
  | step => exact twins.mirrors_work orderly mirrors

theorem mirrors_run (twins : left.Twins right twin) (acts : List Act) (orderly : s.Orderly)
    (mirrors : s.Mirrors twin each t) : (left.run acts s).Mirrors twin each (right.run acts t) := by
  induction acts generalizing s t with
  | nil => exact mirrors
  | cons act acts ih =>
    have next : (left.next act s).Orderly := by
      cases act with
      | submit request => exact orderly_hand request orderly
      | forget ticket => exact orderly
      | step => exact orderly_work orderly
    exact ih next (twins.mirrors_next orderly mirrors act)

theorem mirrors_finish (twins : left.Twins right twin) (ending : Ending) (orderly : s.Orderly)
    (mirrors : s.Mirrors twin each t) :
    (left.finish ending s).Mirrors twin each (right.finish ending t) := by
  have queue : t.spooler.queue = s.spooler.queue := by
    rw [mirrors.spooler]
    rfl
  have settled := twins.mirrors_run (List.replicate s.spooler.queue.length .step) orderly mirrors
  rw [← workOff_eq_run, ← workOff_eq_run] at settled
  rw [finish_eq_leave, finish_eq_leave, queue]
  exact settled.leave ending

theorem mirrors_fresh (twins : left.Twins right twin) {file : σ} {other : τ}
    (same : twin file other) (each : Bool) {settings : Settings} {pool : π} {spooler : Spooler}
    {stage : Stage σ π}
    (started : left.start settings (.start file pool) = (.done spooler, stage)) :
    ∃ stage', right.start (settings.syncing each) (.start other pool) =
        (.done (spooler.syncing each), stage') ∧
      (Session.fresh spooler stage).Mirrors twin each (.fresh (spooler.syncing each) stage') := by
  obtain ⟨cursor, length, rfl, rfl⟩ := spooler_start started
  have named := named_of_start started
  refine ⟨_, start_of_length ((twins.length same).trans length) named, rfl, rfl, rfl, rfl, ?_,
    fun ticket => .inl rfl⟩
  have begun : (Stage.start file pool).Mirrors twin (Stage.start other pool) := ⟨same, rfl, rfl⟩
  exact begun.record _ _ rfl

/-- A step on each side for the oldest request in both queues. If the file took all of it and the
spoolers lived, each of them answered with the entries, unless a sync of its own failed; the answers
are the same otherwise. -/
theorem answers_work (twins : left.Twins right twin) (orderly : s.Orderly) (balanced : s.Balanced)
    (balanced' : t.Balanced) (mirrors : s.Mirrors twin each t) {order : Order} {later : List Order}
    (queued : s.spooler.queue = order :: later) :
    let made := (left.work s).stage.calls.drop s.stage.calls.length
    let made' := (right.work t).stage.calls.drop t.stage.calls.length
    if takenBy made = framesSize order.request.buffers ∧ (left.work s).spooler.alive = true then
      ∃ entries, order.request.entries? s.spooler.writer.cursor = some entries ∧
        (left.work s).stage.answers order.ticket = [replyAfter made entries] ∧
        (right.work t).stage.answers order.ticket = [replyAfter made' entries]
    else (right.work t).stage.answers order.ticket = (left.work s).stage.answers order.ticket := by
  obtain ⟨reply?, reply?', writer, last, last', queued', verdict, verdict', after, agree, silent,
    silent'⟩ := twins.verdicts_of_mirrors mirrors queued
  obtain ⟨-, some⟩ := orderly.submitted_of_queue (show order ∈ s.spooler.queue by simp [queued])
  have waits : s.stage.answers order.ticket = [] :=
    balanced.answers_eq_nil (.inr ⟨order, by simp [queued], rfl⟩)
  have waits' : t.stage.answers order.ticket = [] :=
    balanced'.answers_eq_nil (.inr ⟨order, by simp [queued'], rfl⟩)
  have alive := orderly.alive_of_queue (by simp [queued])
  cases agree with
  | @written entries all known =>
    rw [left.work_of_reply queued verdict, right.work_of_reply queued' verdict']
    simp only [answers_reply, if_true, silent, silent', waits, waits',
      (Stage.Untouched.reply _ _ _).calls]
    rw [if_pos ⟨all, alive⟩]
    exact ⟨entries, known, rfl, rfl⟩
  | failed error less =>
    rw [left.work_of_reply queued verdict, right.work_of_reply queued' verdict']
    simp only [answers_reply, if_true, silent, silent', waits, waits',
      (Stage.Untouched.reply _ _ _).calls]
    rw [if_neg fun wrote => less some wrote.1]
    trivial
  | died =>
    rw [left.work_of_death queued verdict, right.work_of_death queued' verdict']
    simp only [Bool.false_eq_true, and_false, if_false]
    have replied : (last.reply order.ticket (.error .closed)).Mirrors twin
        (last'.reply order.ticket (.error .closed)) := after.record _ _ rfl
    apply (twins.mirrors_abandon replied later).2
    rw [answers_reply, answers_reply, silent, silent', waits, waits']

end Surroundings.Twins

theorem calls_of_seen (stage : Stage σ π) :
    stage.calls.filter (fun call => !call.isSync) =
      (seenIn stage.journal).reverse.filterMap fun
        | .called call => some call
        | _ => none := by
  simp only [Stage.calls, Stage.events, seenIn, List.filter_filterMap, ← List.filterMap_reverse,
    List.filterMap_filterMap]
  congr 1
  funext event
  cases event with
  | called call => cases call <;> rfl
  | counted instrument amount => cases instrument <;> rfl
  | released _ _ _ | noted _ | replied _ _ | crashed => rfl

theorem handovers_seenIn (journal : List (Event σ)) : handovers (seenIn journal) = handovers journal := by
  induction journal with
  | nil => rfl
  | cons event older ih =>
    simp only [seenIn, List.filterMap_cons] at ih ⊢
    cases event with
    | called call => cases call <;> exact ih
    | counted instrument amount => cases instrument <;> exact ih
    | released owner segment file => simp only [Event.seen?, handovers, ih]
    | noted _ | replied _ _ | crashed => exact ih

/-- What cannot be told apart in two sessions side by side: how far they have come, the files and the
pools; the writes, the cuts and the segments that went back, and the order of all this; and the
answers, except to requests that the files took as a whole. -/
structure Session.Parallels (s : Session σ π) (t : Session τ π) (bytes : σ → List UInt8)
    (bytes' : τ → List UInt8) : Prop where
  cursor : t.spooler.cursor = s.spooler.cursor
  written : t.spooler.written = s.spooler.written
  poisoned : t.spooler.writer.poisoned = s.spooler.writer.poisoned
  alive : t.spooler.alive = s.spooler.alive
  queue : t.spooler.queue = s.spooler.queue
  submitted : t.submitted = s.submitted
  crashed : t.crashed = s.crashed
  content : bytes' t.stage.file = bytes s.stage.file
  pool : t.stage.pool = s.stage.pool
  calls : t.stage.calls.filter (fun call => !call.isSync) =
    s.stage.calls.filter fun call => !call.isSync
  releases : t.stage.releases.map (fun release => (release.1, release.2.1)) =
    s.stage.releases.map fun release => (release.1, release.2.1)
  seen : seenIn t.stage.journal = seenIn s.stage.journal
  answers : ∀ ticket, t.stage.answers ticket = s.stage.answers ticket ∨
    ∃ errand ∈ s.errands, errand.order.ticket = ticket ∧ errand.Wrote

theorem Session.Mirrors.parallels {twin : σ → τ → Prop} {bytes : σ → List UInt8}
    {bytes' : τ → List UInt8} (content : ∀ a b, twin a b → bytes' b = bytes a) {each : Bool}
    {s : Session σ π} {t : Session τ π} (mirrors : s.Mirrors twin each t) :
    s.Parallels t bytes bytes' where
  cursor := by rw [mirrors.spooler]; rfl
  written := by rw [mirrors.spooler]; rfl
  poisoned := by rw [mirrors.spooler]; rfl
  alive := by rw [mirrors.spooler]; rfl
  queue := by rw [mirrors.spooler]; rfl
  submitted := mirrors.submitted
  crashed := mirrors.crashed
  content := content _ _ mirrors.stage.file
  pool := mirrors.stage.pool
  calls := by rw [calls_of_seen, calls_of_seen, mirrors.stage.seen]
  releases := by
    rw [map_releases, map_releases, ← handovers_seenIn, mirrors.stage.seen, handovers_seenIn]
  seen := mirrors.stage.seen
  answers := mirrors.answers

namespace Surroundings

variable {left : Surroundings σ π} {right : Surroundings τ π} {twin : σ → τ → Prop}
  {bytes : σ → List UInt8} {bytes' : τ → List UInt8}

/-- Two spoolers are started on twin files, with settings that differ at most in whether every request
is synced, and the same is done with both. At any time they have come to the same, syncs and what
comes of them aside, and so they have once they are given up. When they come to a request of which
the files take everything, and live, each answers it with its entries, unless a sync was called for it
and failed; any other request is answered alike. Giving them up answers as taking so many steps does. -/
theorem syncing_goes_unnoticed (twins : left.Twins right twin)
    (content : ∀ a b, twin a b → bytes' b = bytes a) {file : σ} {other : τ}
    (same : twin file other) (each : Bool) {settings : Settings} {pool : π} {spooler : Spooler}
    {stage : Stage σ π}
    (started : left.start settings (.start file pool) = (.done spooler, stage)) :
    ∃ stage', right.start (settings.syncing each) (.start other pool) =
        (.done (spooler.syncing each), stage') ∧
      ∀ acts,
        let s := left.run acts (.fresh spooler stage)
        let t := right.run acts (.fresh (spooler.syncing each) stage')
        s.Parallels t bytes bytes' ∧
          (∀ order later, s.spooler.queue = order :: later →
            let made := (left.work s).stage.calls.drop s.stage.calls.length
            let made' := (right.work t).stage.calls.drop t.stage.calls.length
            if takenBy made = framesSize order.request.buffers ∧
                (left.work s).spooler.alive = true then
              ∃ entries, order.request.entries? s.spooler.cursor = some entries ∧
                (left.work s).stage.answers order.ticket = [replyAfter made entries] ∧
                (right.work t).stage.answers order.ticket = [replyAfter made' entries]
            else (right.work t).stage.answers order.ticket =
              (left.work s).stage.answers order.ticket) ∧
          ∀ ending, (left.finish ending s).Parallels (right.finish ending t) bytes bytes' ∧
            ∀ ticket,
              (left.finish ending s).stage.answers ticket =
                (left.workOff s.spooler.queue.length s).stage.answers ticket ∧
              (right.finish ending t).stage.answers ticket =
                (right.workOff t.spooler.queue.length t).stage.answers ticket := by
  obtain ⟨stage', started', fresh⟩ := twins.mirrors_fresh same each started
  refine ⟨stage', started', fun acts => ?_⟩
  have reached := (Reaches.start started).run acts
  have orderly := reached.orderly
  have mirrors := twins.mirrors_run acts (Reaches.start started).orderly fresh
  have balanced := left.balanced_run acts (balanced_fresh started)
  have balanced' := right.balanced_run acts (balanced_fresh started')
  obtain ⟨start, -, booked⟩ := reached.booked
  obtain ⟨own, seen⟩ := cursor_of_booked booked
  refine ⟨mirrors.parallels content, fun order later queued => ?_,
    fun ending => ⟨(twins.mirrors_finish ending orderly mirrors).parallels content,
      fun ticket => ⟨left.answers_finish_eq ending _ ticket, right.answers_finish_eq ending _ ticket⟩⟩⟩
  rw [seen, ← own]
  exact twins.answers_work orderly balanced balanced' mirrors queued

end Surroundings

/-- The file under the same plan, apart from what syncs come to. -/
def Planned.withSync (file : Planned σ) (cause : Option Cause) : Planned σ :=
  { file with plan := { file.plan with syncCause := cause } }

/-- Where there is nothing to sync, a plan for syncs does not influence other calls. -/
theorem Store.twins_planned {store : Store σ} (nothing : ∀ file, store.sync file = (.done (), file))
    (pool : Pool π) (cause : Option Cause) :
    Surroundings.Twins (⟨store.planned, pool⟩ : Surroundings (Planned σ) π) ⟨store.planned, pool⟩
      fun file other => other = file.withSync cause where
  pool := rfl
  length := by
    rintro file _ rfl
    rfl
  write := by
    rintro file _ rfl slices position
    have full : (file.withSync cause).plan.isFull position = file.plan.isFull position := rfl
    have room : (file.withSync cause).plan.room position = file.plan.room position := rfl
    have same : (file.withSync cause).plan.script = file.plan.script := rfl
    simp only [Store.planned, Store.writeUnder, full, room, same]
    split
    · exact ⟨rfl, rfl⟩
    · exact ⟨rfl, rfl⟩
    · exact ⟨rfl, rfl⟩
    · split <;> exact ⟨rfl, rfl⟩
  truncate := by
    rintro ⟨inner, script, limit, chunk, cut, sync, wrong, length⟩ _ rfl size
    cases cut <;> exact ⟨rfl, rfl⟩
  sync_left := by
    rintro ⟨inner, script, limit, chunk, cut, sync, wrong, length⟩ _ rfl
    cases sync <;> simp [Store.planned, nothing, Planned.withSync]
  sync_right := by
    rintro ⟨inner, script, limit, chunk, cut, sync, wrong, length⟩ _ rfl
    cases cause <;> simp [Store.planned, nothing, Planned.withSync]

namespace Surroundings

/-- A request whose frames are written is answered with the error of its sync. -/
theorem carryOut_of_failed_sync {env : Surroundings σ π} {request : Request} {writer : Writer}
    {stage : Stage σ π} {failure : Failure} (entries : List Entry)
    (done : (env.spill request writer stage).outcome = .done)
    (each : (env.spill request writer stage).writer.settings.syncEach = true)
    (fails : (env.syncOn (env.spill request writer stage).stage).1 = .failed failure) :
    ∃ moved after, env.carryOut request entries writer stage =
      ⟨some (.error (.io failure.cause)), moved, after⟩ := by
  rw [carryOut_of_sync done each]
  cases called : env.syncOn (env.spill request writer stage).stage with
  | mk answer last =>
    obtain rfl : answer = .failed failure := (congrArg Prod.fst called).symm.trans fails
    exact ⟨_, _, rfl⟩

/-- A frame is spilled to two files; one of them is synced, which fails. That file keeps the frame as
the other one does, and the cursor is behind it; only the answer is an error. -/
theorem a_failed_sync_keeps_the_frame :
    let file : Planned Memory := ⟨⟨.empty, false⟩, .none⟩
    let other := file.withSync (some .permissionDenied)
    let stage := (exercise.start .standard (.start file ())).2
    let stage' := (exercise.start (Settings.standard.syncing true) (.start other ())).2
    let acts := [.submit ⟨[threeBytes]⟩, .step]
    let s := exercise.run acts (.fresh ⟨.start .standard 0, true, []⟩ stage)
    let t := exercise.run acts
      (.fresh ⟨.start (Settings.standard.syncing true) 0, true, []⟩ stage')
    s.stage.answers 0 = [.ok [⟨7, 0, 0⟩]] ∧
      t.stage.answers 0 = [.error (.io .permissionDenied)] ∧
      t.stage.file.inner.contents.toList = threeBytes.buffer.framed ∧ t.spooler.cursor = 11 := by
  intro file other stage stage' acts s t
  have twins : exercise.Twins exercise fun a b => b = a.withSync (some .permissionDenied) :=
    Memory.store.twins_planned (fun _ => rfl) Pool.quiet (some .permissionDenied)
  have started : exercise.start .standard (.start file ()) =
      (.done ⟨.start .standard 0, true, []⟩, stage) := rfl
  have content : ∀ a b : Planned Memory, b = a.withSync (some .permissionDenied) →
      b.inner.contents.toList = a.inner.contents.toList := by
    rintro a _ rfl
    rfl
  obtain ⟨last, started', all⟩ := syncing_goes_unnoticed twins content rfl true started
  obtain rfl : stage' = last := congrArg Prod.snd started'
  have parallels : s.Parallels t _ _ := (all acts).1
  have mild : file.plan.Mild := ⟨by decide, rfl, by decide, rfl⟩
  obtain ⟨entries, moved, after, known, processed, moves, filled⟩ := filled_process takes_exercise
    Pool.calm_quiet ⟨[threeBytes]⟩ (.start .standard 0) stage (by decide)
    (fun each => absurd each (by decide)) rfl ⟨rfl, mild⟩ (by decide)
  obtain rfl : [⟨7, 0, 0⟩] = entries := Option.some.inj known
  -- The other file has taken the same, and the sync that follows fails as planned.
  have done : (exercise.spill ⟨[threeBytes]⟩ (.start .standard 0) stage).outcome = .done :=
    (filled_spill takes_exercise Pool.calm_quiet (by decide) ⟨rfl, mild⟩ (by decide)).1
  have spilt : (exercise.spill ⟨[threeBytes]⟩ (.start .standard 0) stage).Mirrors
      (fun a b => b = a.withSync (some .permissionDenied)) true
      (exercise.spill ⟨[threeBytes]⟩ (.start (Settings.standard.syncing true) 0) stage') :=
    twins.mirrors_spill (a := stage) (b := stage') ⟨rfl, rfl, rfl⟩ _ (.start .standard 0)
  have synced : (exercise.syncOn (exercise.spill ⟨[threeBytes]⟩
      (.start (Settings.standard.syncing true) 0) stage').stage).1 =
      .failed (Plan.failure .permissionDenied) := by
    show (Memory.store.planned.sync _).1 = _
    rw [spilt.stage.file]
    rfl
  obtain ⟨moved', after', refused⟩ := carryOut_of_failed_sync [⟨7, 0, 0⟩] (spilt.outcome.trans done)
    (by rw [spilt.writer]; rfl) synced
  have worked : s = _ := exercise.work_of_reply
    (s := exercise.hand ⟨[threeBytes]⟩ (.fresh ⟨.start .standard 0, true, []⟩ stage)) rfl processed
  have worked' : t = _ := exercise.work_of_reply
    (s := exercise.hand ⟨[threeBytes]⟩
      (.fresh ⟨.start (Settings.standard.syncing true) 0, true, []⟩ stage')) rfl refused
  have silent := (exercise.effect_process ⟨[threeBytes]⟩ (.start .standard 0) stage).answers_eq 0
  have silent' := (exercise.effect_process ⟨[threeBytes]⟩
    (.start (Settings.standard.syncing true) 0) stage').answers_eq 0
  rw [processed] at silent
  rw [show exercise.process ⟨[threeBytes]⟩ (.start (Settings.standard.syncing true) 0) stage' = _
    from refused] at silent'
  refine ⟨?_, ?_, ?_, ?_⟩
  · rw [worked]
    simp only [answers_reply]
    rw [silent]
    rfl
  · rw [worked']
    simp only [answers_reply]
    rw [silent']
    rfl
  · rw [parallels.content, worked]
    exact filled.appended rfl rfl
  · rw [parallels.cursor, worked]
    exact moves.progress rfl |>.trans moves.cursor

end Surroundings
end Spillway
