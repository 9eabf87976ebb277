import Spillway.Medium
import Spillway.Plan
import Spillway.Proofs.Effect
/-!
Runs of a spooler. A caller submits requests and may drop the futures it gets; the writer takes the
oldest request from the queue whenever it comes to it; in the end the spooler is closed or dropped.
A `Session` is where a run has come to, with what was submitted and what the writer did for each
request. `Surroundings.Reaches` has every session of every run, and `Reaches.rule` is the induction
over them.
-/

namespace Spillway

/-- What happens to a spooler while it is in use. -/
inductive Act where
  /-- The caller submits a request. -/
  | submit (request : Request)
  /-- The caller drops the future of a request. Neither the future nor the channel of the reply is part
  of a session, and a reply that finds nobody is no failure: it is given all the same. -/
  | forget (ticket : Nat)
  /-- The writer takes the oldest request from the queue and processes it. -/
  | step

/-- How a spooler is given up. -/
inductive Ending where
  | close
  | discard

/-- An order that the writer has taken from the queue, and the calls it made on the file for it. -/
structure Errand where
  order : Order
  calls : List Call

/-- Where the run of a spooler has come to. -/
structure Session (σ π : Type) where
  spooler : Spooler
  stage : Stage σ π
  /-- The requests submitted so far. The place of a request among them is its ticket. -/
  submitted : List Request
  /-- The tickets of the submissions that crashed the caller. -/
  crashed : List Nat
  /-- What the writer has taken from the queue, in order. -/
  errands : List Errand

/-- What may be reported of a spooler when it is given up: how far its writer came, or that it died. -/
def Spooler.Parting (spooler : Spooler) (notice : Notice) : Prop :=
  notice = .exiting spooler.writer.cursor ∨ notice = .crashed

namespace Session

variable {σ π : Type}

/-- The session of a spooler that nothing has been submitted to. -/
def fresh (spooler : Spooler) (stage : Stage σ π) : Session σ π := ⟨spooler, stage, [], [], []⟩

def note (s : Session σ π) (notice : Notice) : Session σ π :=
  { s with stage := s.stage.note notice }

/-- The session whose writer is gone. -/
def shut (s : Session σ π) : Session σ π := { s with spooler := { s.spooler with alive := false } }

/-- The session after its spooler, which has nothing left to do, is given up. -/
def leave (ending : Ending) (s : Session σ π) : Session σ π :=
  { s with
    stage := match ending with
      | .close =>
        if s.spooler.alive then s.stage.note (.exiting s.spooler.writer.cursor) else s.stage
      | .discard =>
        s.stage.note (if s.spooler.alive then .exiting s.spooler.writer.cursor else .crashed) }.shut

/-- Spoolers with their cursors at one place leave with the same report, if any. -/
theorem leave_together {τ : Type} (ending : Ending) {s : Session σ π} {t : Session τ π}
    (alive : t.spooler.alive = s.spooler.alive)
    (cursor : t.spooler.writer.cursor = s.spooler.writer.cursor) :
    (s.leave ending = s.shut ∧ t.leave ending = t.shut) ∨
      ∃ notice, s.spooler.Parting notice ∧ s.leave ending = (s.note notice).shut ∧
        t.leave ending = (t.note notice).shut := by
  by_cases lives : s.spooler.alive = true
  · -- A living writer reports how far it came, whichever way it ends.
    refine .inr ⟨.exiting s.spooler.writer.cursor, .inl rfl, ?_⟩
    cases ending <;> simp [leave, note, alive, lives, cursor]
  · cases ending with
    | close =>
      refine .inl ?_
      simp [leave, alive, lives]
    | discard =>
      refine .inr ⟨.crashed, .inr rfl, ?_⟩
      simp [leave, note, alive, lives]

end Session

/-- The orders that requests with tickets from `ticket` on become. An empty request is answered
without one. -/
def ordersFrom : (ticket : Nat) → List Request → List Order
  | _, [] => []
  | ticket, request :: rest =>
    if request.items.isEmpty then ordersFrom (ticket + 1) rest
    else ⟨ticket, request⟩ :: ordersFrom (ticket + 1) rest

/-- What goes back, in order, when orders are let go. -/
def orderHandovers (orders : List Order) : List (Owner × Segment) :=
  orders.flatMap fun order => order.request.handovers

/-- At every moment of a journal, that is, after any number of its events. -/
def AtEveryMoment {σ : Type} (P : List (Event σ) → Prop) (journal : List (Event σ)) : Prop :=
  ∀ moment, moment <:+ journal → P moment

namespace Surroundings

variable {σ π : Type} (env : Surroundings σ π)

def hand (request : Request) (s : Session σ π) : Session σ π :=
  let ticket := s.submitted.length
  let done := env.submit ticket request s.spooler s.stage
  { s with
    spooler := done.2.1
    stage := done.2.2
    submitted := s.submitted ++ [request]
    crashed := if done.1 then s.crashed ++ [ticket] else s.crashed }

def work (s : Session σ π) : Session σ π :=
  let done := env.step s.spooler s.stage
  { s with
    spooler := done.1
    stage := done.2
    errands := s.errands ++ s.spooler.queue.head?.toList.map fun order =>
      ⟨order, done.2.calls.drop s.stage.calls.length⟩ }

/-- The writer takes so many steps. -/
def workOff : Nat → Session σ π → Session σ π
  | 0, s => s
  | n + 1, s => workOff n (env.work s)

def next : Act → Session σ π → Session σ π
  | .submit request, s => env.hand request s
  | .forget _, s => s
  | .step, s => env.work s

def run (acts : List Act) (s : Session σ π) : Session σ π :=
  acts.foldl (fun s act => env.next act s) s

/-- The spooler is given up. A request that is submitted later finds no writer. -/
def finish (ending : Ending) (s : Session σ π) : Session σ π :=
  let settled := env.workOff s.spooler.queue.length s
  { settled with
    stage := match ending with
      | .close => (env.close s.spooler s.stage).2
      | .discard => env.discard s.spooler s.stage }.shut

/-- The sessions that a spooler comes to that is started on a file. -/
inductive Reaches (settings : Settings) (file : σ) (pool : π) : Session σ π → Prop
  | start {spooler : Spooler} {stage : Stage σ π}
      (started : env.start settings (.start file pool) = (.done spooler, stage)) :
      Reaches settings file pool (.fresh spooler stage)
  | act {s : Session σ π} (act : Act) (reached : Reaches settings file pool s) :
      Reaches settings file pool (env.next act s)
  | finish {s : Session σ π} (ending : Ending) (reached : Reaches settings file pool s) :
      Reaches settings file pool (env.finish ending s)

theorem step_nil {spooler : Spooler} (none : spooler.queue = []) (stage : Stage σ π) :
    env.step spooler stage = (spooler, stage) := by
  simp [step, none]

theorem work_of_reply {s : Session σ π} {order : Order} {later : List Order} {reply : Reply}
    {writer : Writer} {after : Stage σ π} (queued : s.spooler.queue = order :: later)
    (answered : env.process order.request s.spooler.writer s.stage = ⟨some reply, writer, after⟩) :
    env.work s =
      { s with
        spooler := { s.spooler with writer := writer, queue := later }
        stage := after.reply order.ticket reply
        errands := s.errands ++
          [⟨order, (after.reply order.ticket reply).calls.drop s.stage.calls.length⟩] } := by
  simp [work, step, queued, answered]

/-- A step in which the spooler dies over the oldest request. -/
theorem work_of_death {s : Session σ π} {order : Order} {later : List Order} {writer : Writer}
    {after : Stage σ π} (queued : s.spooler.queue = order :: later)
    (unanswered : env.process order.request s.spooler.writer s.stage = ⟨none, writer, after⟩) :
    env.work s =
      { s with
        spooler := ⟨writer, false, []⟩
        stage := env.abandon later (after.reply order.ticket (.error .closed))
        errands := s.errands ++ [⟨order, (env.abandon later
          (after.reply order.ticket (.error .closed))).calls.drop s.stage.calls.length⟩] } := by
  simp [work, step, queued, unanswered]

theorem work_of_alive {s : Session σ π} (alive : (env.work s).spooler.alive = true) :
    s.spooler.queue = [] ∧ env.work s = s ∨ ∃ order later reply writer after,
      s.spooler.queue = order :: later ∧
        env.process order.request s.spooler.writer s.stage = ⟨some reply, writer, after⟩ := by
  cases queued : s.spooler.queue with
  | nil => exact .inl ⟨rfl, by simp [work, env.step_nil queued, queued]⟩
  | cons order later =>
    cases processed : env.process order.request s.spooler.writer s.stage with
    | mk reply? writer after =>
      cases reply? with
      | none => simp [work, step, queued, processed] at alive
      | some reply => exact .inr ⟨order, later, reply, writer, after, rfl, processed⟩

theorem queue_work (s : Session σ π) : (env.work s).spooler.queue <:+ s.spooler.queue := by
  cases queued : s.spooler.queue with
  | nil => simp [work, env.step_nil queued, queued]
  | cons order later =>
    cases verdict : env.process order.request s.spooler.writer s.stage with
    | mk reply? writer after =>
      cases reply? with
      | some reply =>
        rw [env.work_of_reply queued verdict]
        exact List.suffix_cons _ _
      | none =>
        rw [env.work_of_death queued verdict]
        exact List.nil_suffix

theorem length_queue_step (spooler : Spooler) (stage : Stage σ π) :
    (env.step spooler stage).1.queue.length ≤ spooler.queue.length - 1 := by
  cases queued : spooler.queue with
  | nil => simp [step, queued]
  | cons order later =>
    simp only [step, queued]
    split <;> simp

theorem length_queue_steps (n : Nat) (spooler : Spooler) (stage : Stage σ π) :
    (env.steps n spooler stage).1.queue.length ≤ spooler.queue.length - n := by
  induction n generalizing spooler stage with
  | zero => simp [steps]
  | succ n ih =>
    have first := env.length_queue_step spooler stage
    have rest := ih (env.step spooler stage).1 (env.step spooler stage).2
    simp only [steps]
    omega

@[simp] theorem queue_settle (spooler : Spooler) (stage : Stage σ π) :
    (env.settle spooler stage).1.queue = [] := by
  have left := env.length_queue_steps spooler.queue.length spooler stage
  rw [settle, ← List.length_eq_zero_iff]
  omega

theorem workOff_eq_steps (n : Nat) (s : Session σ π) :
    (env.workOff n s).spooler = (env.steps n s.spooler s.stage).1 ∧
      (env.workOff n s).stage = (env.steps n s.spooler s.stage).2 := by
  induction n generalizing s with
  | zero => exact ⟨rfl, rfl⟩
  | succ n ih => exact ih (env.work s)

@[simp] theorem submitted_workOff (n : Nat) (s : Session σ π) :
    (env.workOff n s).submitted = s.submitted := by
  induction n generalizing s with
  | zero => rfl
  | succ n ih => exact ih (env.work s)

theorem workOff_eq_run (n : Nat) (s : Session σ π) :
    env.workOff n s = env.run (List.replicate n .step) s := by
  induction n generalizing s with
  | zero => rfl
  | succ n ih => exact ih (env.work s)

theorem errands_run (acts : List Act) (s : Session σ π) :
    s.errands <+: (env.run acts s).errands := by
  induction acts generalizing s with
  | nil => exact List.prefix_rfl
  | cons act acts ih =>
    cases act with
    | submit request => exact ih (env.hand request s)
    | forget ticket => exact ih s
    | step => exact (List.prefix_append _ _).trans (ih (env.work s))

/-- How closing a spooler ends depends on what its queue is settled to. -/
theorem close_eq_workOff (s : Session σ π) :
    let settled := env.workOff s.spooler.queue.length s
    env.close s.spooler s.stage =
      if settled.spooler.alive then
        (.ok (), settled.stage.note (.exiting settled.spooler.writer.cursor))
      else (.error .closed, settled.stage) := by
  obtain ⟨spooler, stage⟩ := env.workOff_eq_steps s.spooler.queue.length s
  simp only [close, settle, spooler, stage]
  rfl

theorem discard_eq_workOff (s : Session σ π) :
    let settled := env.workOff s.spooler.queue.length s
    env.discard s.spooler s.stage = settled.stage.note
      (if settled.spooler.alive then .exiting settled.spooler.writer.cursor else .crashed) := by
  obtain ⟨spooler, stage⟩ := env.workOff_eq_steps s.spooler.queue.length s
  simp only [discard, settle, spooler, stage]
  rfl

/-- Giving a spooler up comes to settling its queue and leaving it. -/
theorem finish_eq_leave (ending : Ending) (s : Session σ π) :
    env.finish ending s = (env.workOff s.spooler.queue.length s).leave ending := by
  have close := env.close_eq_workOff s
  have discard := env.discard_eq_workOff s
  cases ending with
  | close =>
    simp only [finish, close, Session.leave]
    split <;> rfl
  | discard => simp only [finish, discard, Session.leave]

/-- Giving a spooler up settles its queue; all that comes after that is a report of how far the
writer came, or that it died. -/
theorem finish_eq (ending : Ending) (s : Session σ π) :
    let settled := env.workOff s.spooler.queue.length s
    env.finish ending s = settled.shut ∨
      ∃ notice, settled.spooler.Parting notice ∧
        env.finish ending s = (settled.note notice).shut := by
  intro settled
  rw [finish_eq_leave]
  rcases Session.leave_together ending (s := settled) rfl rfl with ⟨left, -⟩ | ⟨notice, parting, left, -⟩
  · exact .inl left
  · exact .inr ⟨notice, parting, left⟩

theorem queue_workOff (s : Session σ π) :
    (env.workOff s.spooler.queue.length s).spooler.queue = [] := by
  rw [(env.workOff_eq_steps _ s).1]
  exact env.queue_settle s.spooler s.stage

@[simp] theorem queue_finish (ending : Ending) (s : Session σ π) :
    (env.finish ending s).spooler.queue = [] :=
  env.queue_workOff s

variable {env} {settings : Settings} {file : σ} {pool : π}

/-- What holds at the start, and is kept when a request is submitted, when the writer takes a step,
by a report, and when the writer is gone after the queue is settled, holds in every session. -/
theorem Reaches.rule {P : Session σ π → Prop} {s : Session σ π}
    (reached : env.Reaches settings file pool s)
    (start : ∀ spooler stage, env.start settings (.start file pool) = (.done spooler, stage) →
      P (.fresh spooler stage))
    (hand : ∀ s request, env.Reaches settings file pool s → P s → P (env.hand request s))
    (work : ∀ s, env.Reaches settings file pool s → P s → P (env.work s))
    (note : ∀ s notice, s.spooler.Parting notice → P s → P (s.note notice))
    (shut : ∀ s, s.spooler.queue = [] → P s → P s.shut) : P s := by
  induction reached with
  | start started => exact start _ _ started
  | @act s act reached ih =>
    cases act with
    | submit request => exact hand s request reached ih
    | forget ticket => exact ih
    | step => exact work s reached ih
  | @finish s ending reached ih =>
    have worked : ∀ n s, env.Reaches settings file pool s → P s → P (env.workOff n s) := by
      intro n
      induction n with
      | zero => exact fun s _ holds => holds
      | succ n later =>
        exact fun s reached holds => later _ (.act .step reached) (work s reached holds)
    have settled := worked s.spooler.queue.length s reached ih
    have none := env.queue_workOff s
    obtain same | ⟨notice, parting, same⟩ := env.finish_eq ending s
    · rw [same]
      exact shut _ none settled
    · rw [same]
      exact shut _ none (note _ notice parting settled)

theorem Reaches.run {s : Session σ π} (reached : env.Reaches settings file pool s)
    (acts : List Act) : env.Reaches settings file pool (env.run acts s) := by
  induction acts generalizing s with
  | nil => exact reached
  | cons act acts ih => exact ih (.act act reached)

theorem Reaches.workOff {s : Session σ π} (reached : env.Reaches settings file pool s) (n : Nat) :
    env.Reaches settings file pool (env.workOff n s) := by
  rw [workOff_eq_run]
  exact reached.run _

end Surroundings

theorem atEveryMoment_cons {σ : Type} {P : List (Event σ) → Prop} {event : Event σ}
    {journal : List (Event σ)} :
    AtEveryMoment P (event :: journal) ↔ P (event :: journal) ∧ AtEveryMoment P journal := by
  constructor
  · exact fun always => ⟨always _ (List.suffix_refl _),
      fun moment suffix => always moment (suffix.trans (List.suffix_cons event journal))⟩
  · rintro ⟨now, before⟩ moment suffix
    rcases List.suffix_cons_iff.mp suffix with rfl | earlier
    · exact now
    · exact before moment earlier

/-- What holds at every moment, and is kept by every event of the writer's work, holds at every
moment of more work. -/
theorem AtEveryMoment.append {σ : Type} {P : List (Event σ) → Prop} {low : Nat}
    {new old : List (Event σ)} (always : AtEveryMoment P old)
    (work : ∀ event ∈ new, event.IsWork low)
    (keeps : ∀ event older, old <:+ older → event.IsWork low → P older → P (event :: older)) :
    AtEveryMoment P (new ++ old) := by
  induction new with
  | nil => exact always
  | cons event new ih =>
    have before := ih fun event member => work event (List.mem_cons_of_mem _ member)
    refine atEveryMoment_cons.mpr ⟨?_, before⟩
    exact keeps event _ (List.suffix_append new old) (work event (by simp)) (before _ (List.suffix_refl _))

/-- An answer that is older than the work for another one is older than the moment at which that
work began. -/
theorem suffix_of_isWork {σ : Type} {low ticket : Nat} {reply : Reply}
    {older new before : List (Event σ)}
    (work : ∀ event ∈ new, event.IsWork low)
    (moment : .replied ticket reply :: older <:+ new ++ before) :
    .replied ticket reply :: older <:+ before := by
  rcases List.suffix_or_suffix_of_suffix moment (List.suffix_append new before) with inside | ⟨mid, joined⟩
  · exact inside
  · cases mid with
    | nil => exact ⟨[], joined.symm⟩
    | cons event mid =>
      obtain ⟨front, all⟩ := moment
      rw [← joined, ← List.append_assoc] at all
      have inside := List.append_cancel_right all
      rw [List.cons_append, List.cons.injEq] at joined
      obtain ⟨rfl, -⟩ := joined
      exact (work (.replied ticket reply) (by simp [← inside])).elim

theorem ordersFrom_append (ticket : Nat) (requests more : List Request) :
    ordersFrom ticket (requests ++ more) =
      ordersFrom ticket requests ++ ordersFrom (ticket + requests.length) more := by
  induction requests generalizing ticket with
  | nil => rfl
  | cons request rest ih =>
    have next : ticket + 1 + rest.length = ticket + (rest.length + 1) := by omega
    cases empty : request.items.isEmpty <;> simp [ordersFrom, empty, ih, next]

/-- Orders stand for all requests where empty ones do not matter. -/
theorem flatMap_ordersFrom {α : Type} {f : Request → List α}
    (none : ∀ request : Request, request.items = [] → f request = []) (ticket : Nat)
    (requests : List Request) :
    (ordersFrom ticket requests).flatMap (fun order => f order.request) = requests.flatMap f := by
  induction requests generalizing ticket with
  | nil => rfl
  | cons request rest ih =>
    cases empty : request.items.isEmpty with
    | false => simp [ordersFrom, empty, ← ih (ticket + 1)]
    | true =>
      have nothing := none request (List.isEmpty_iff.mp empty)
      simp [ordersFrom, empty, nothing, ih]

theorem orderHandovers_ordersFrom (ticket : Nat) (requests : List Request) :
    orderHandovers (ordersFrom ticket requests) = requests.flatMap Request.handovers := by
  apply flatMap_ordersFrom
  intro request none
  simp [Request.handovers, Request.buffers, none]

@[simp] theorem orderHandovers_append (orders more : List Order) :
    orderHandovers (orders ++ more) = orderHandovers orders ++ orderHandovers more := by
  simp [orderHandovers]

/-- An order among those of requests is that of a request which is not empty, and its ticket is the
place of that request. -/
theorem ordersFrom_split {ticket : Nat} {requests : List Request} {past later : List Order}
    {order : Order} (split : past ++ order :: later = ordersFrom ticket requests) :
    ∃ before after, requests = before ++ order.request :: after ∧
      order.ticket = ticket + before.length ∧ past = ordersFrom ticket before ∧
      order.request.items ≠ [] := by
  induction requests generalizing ticket past with
  | nil => simp [ordersFrom] at split
  | cons request rest ih =>
    cases empty : request.items.isEmpty with
    | true =>
      simp only [ordersFrom, empty, if_true] at split
      obtain ⟨before, after, same, place, earlier, some⟩ := ih split
      refine ⟨request :: before, after, by rw [same, List.cons_append], ?_, ?_, some⟩
      · simp only [place, List.length_cons]
        omega
      · simp [ordersFrom, empty, earlier]
    | false =>
      simp only [ordersFrom, empty, Bool.false_eq_true, if_false] at split
      cases past with
      | nil =>
        simp only [List.nil_append, List.cons.injEq] at split
        obtain ⟨rfl, -⟩ := split
        exact ⟨[], rest, rfl, rfl, rfl, by simpa using empty⟩
      | cons first past =>
        simp only [List.cons_append, List.cons.injEq] at split
        obtain ⟨rfl, split⟩ := split
        obtain ⟨before, after, same, place, earlier, some⟩ := ih split
        refine ⟨request :: before, after, by rw [same, List.cons_append], ?_, ?_, some⟩
        · simp only [place, List.length_cons]
          omega
        · simp [ordersFrom, empty, earlier]

/-- The order of a session's queue: it holds what the writer has not taken yet, as it was
submitted, and nothing once the writer is gone. -/
structure Session.Orderly {σ π : Type} (s : Session σ π) : Prop where
  alive_orders : s.spooler.alive = true →
    s.errands.map Errand.order ++ s.spooler.queue = ordersFrom 0 s.submitted
  dead_queue : s.spooler.alive = false → s.spooler.queue = []
  errands_taken : s.errands.map Errand.order <+: ordersFrom 0 s.submitted

theorem Session.Orderly.alive_of_queue {σ π : Type} {s : Session σ π} (orderly : s.Orderly)
    (some : s.spooler.queue ≠ []) : s.spooler.alive = true := by
  cases alive : s.spooler.alive with
  | true => rfl
  | false => exact absurd (orderly.dead_queue alive) some

theorem Session.Orderly.submitted_of_queue {σ π : Type} {s : Session σ π} (orderly : s.Orderly)
    {order : Order} (queued : order ∈ s.spooler.queue) :
    s.submitted[order.ticket]? = some order.request ∧ order.request.items ≠ [] := by
  obtain ⟨front, back, queue⟩ := List.append_of_mem queued
  have orders := orderly.alive_orders (orderly.alive_of_queue (by simp [queue]))
  rw [queue, ← List.append_assoc] at orders
  obtain ⟨before, after, same, place, -, some⟩ := ordersFrom_split orders
  refine ⟨?_, some⟩
  rw [same, place]
  simp

namespace Surroundings

variable {σ π : Type} {env : Surroundings σ π} {settings : Settings} {file : σ} {pool : π}

theorem spooler_start {spooler : Spooler} {stage : Stage σ π} {before : Stage σ π}
    (started : env.start settings before = (.done spooler, stage)) :
    ∃ cursor, env.length before.file = .done cursor ∧ spooler = ⟨.start settings cursor, true, []⟩ ∧
      stage = before.note (.starting cursor settings.threadName) := by
  unfold start at started
  split at started
  · simp at started
  · simp at started
  · rename_i cursor length
    split at started
    · simp at started
    · cases started
      exact ⟨cursor, length, rfl, rfl⟩

/-- A spooler starts at the end of a file that has a length, if its thread can have its name. -/
theorem start_of_length {before : Stage σ π} {cursor : Nat}
    (length : env.length before.file = .done cursor)
    (named : settings.threadName.toList.contains '\x00' = false) :
    env.start settings before = (.done ⟨.start settings cursor, true, []⟩,
      before.note (.starting cursor settings.threadName)) := by
  simp only [start, length, named, Bool.false_eq_true, if_false]

/-- What the start of a spooler gives, where it does not matter what stage it leaves. -/
theorem start_eq_of_length {before : Stage σ π} {cursor : Nat}
    (length : env.length before.file = .done cursor)
    (named : settings.threadName.toList.contains '\x00' = false) :
    env.start settings before =
      (.done ⟨.start settings cursor, true, []⟩, (env.start settings before).2) := by
  rw [start_of_length length named]

theorem named_of_start {spooler : Spooler} {before stage : Stage σ π}
    (started : env.start settings before = (.done spooler, stage)) :
    settings.threadName.toList.contains '\x00' = false := by
  unfold start at started
  split at started
  · simp at started
  · simp at started
  · split at started
    · simp at started
    · rename_i named
      simpa using named

theorem orderly_hand {s : Session σ π} (request : Request) (orderly : s.Orderly) :
    (env.hand request s).Orderly := by
  obtain ⟨alive_orders, dead_queue, errands_taken⟩ := orderly
  have orders := ordersFrom_append 0 s.submitted [request]
  rw [Nat.zero_add] at orders
  have taken : s.errands.map Errand.order <+: ordersFrom 0 (s.submitted ++ [request]) :=
    errands_taken.trans (by rw [orders]; exact List.prefix_append _ _)
  cases empty : request.items.isEmpty with
  | true =>
    simp only [hand, submit, empty, if_true]
    refine ⟨fun alive => ?_, dead_queue, taken⟩
    simp [orders, ordersFrom, empty, alive_orders alive]
  | false =>
    cases alive : s.spooler.alive with
    | true =>
      simp only [hand, submit, empty, alive, if_true, Bool.false_eq_true, if_false]
      refine ⟨fun _ => ?_, fun dead => by simp at dead, taken⟩
      simp [orders, ordersFrom, empty, ← alive_orders alive]
    | false =>
      simp only [hand, submit, empty, alive, Bool.false_eq_true, if_false]
      exact ⟨fun lives => by simp [alive] at lives, dead_queue, taken⟩

theorem orderly_work {s : Session σ π} (orderly : s.Orderly) : (env.work s).Orderly := by
  obtain ⟨alive_orders, dead_queue, errands_taken⟩ := orderly
  cases queued : s.spooler.queue with
  | nil =>
    simp only [work, env.step_nil queued, queued, List.head?_nil, Option.toList_none, List.map_nil,
      List.append_nil]
    exact ⟨alive_orders, dead_queue, errands_taken⟩
  | cons order later =>
    have alive := Session.Orderly.alive_of_queue ⟨alive_orders, dead_queue, errands_taken⟩
      (by simp [queued])
    have orders := alive_orders alive
    rw [queued] at orders
    simp only [work, queued, List.head?_cons, Option.toList_some, List.map_cons, List.map_nil,
      step]
    cases answered : (env.process order.request s.spooler.writer s.stage).reply? with
    | some reply =>
      refine ⟨fun _ => by simpa using orders, fun dead => by simp [alive] at dead, ?_⟩
      exact ⟨later, by simpa using orders⟩
    | none => exact ⟨fun lives => by simp at lives, fun _ => rfl, ⟨later, by simpa using orders⟩⟩

theorem Reaches.orderly {s : Session σ π} (reached : env.Reaches settings file pool s) :
    s.Orderly := by
  apply reached.rule
  · intro spooler stage started
    obtain ⟨cursor, -, rfl, -⟩ := spooler_start started
    exact ⟨fun _ => rfl, fun _ => rfl, List.prefix_refl _⟩
  · exact fun s request _ orderly => orderly_hand request orderly
  · exact fun s _ orderly => orderly_work orderly
  · exact fun s notice _ orderly =>
      ⟨orderly.alive_orders, orderly.dead_queue, orderly.errands_taken⟩
  · exact fun s none orderly =>
      ⟨fun lives => by simp [Session.shut] at lives, fun _ => none, orderly.errands_taken⟩

theorem Reaches.settings_eq {s : Session σ π} (reached : env.Reaches settings file pool s) :
    s.spooler.writer.settings = settings := by
  apply reached.rule
  · intro spooler stage started
    obtain ⟨cursor, -, rfl, -⟩ := spooler_start started
    rfl
  · intro s request _ same
    simp only [hand, submit]
    split
    · exact same
    · split
      · exact same
      · split <;> exact same
  · intro s _ same
    simp only [work, step]
    split
    · exact same
    · rename_i order later queued
      have kept := (env.further_process order.request s.spooler.writer s.stage).settings
      split <;> exact kept.trans same
  · exact fun s notice _ same => same
  · exact fun s none same => same

/-- The journal of a stage accounts for what the file and the pools have become. -/
def Accounts (env : Surroundings σ π) (file : σ) (pool : π) (stage : Stage σ π) : Prop :=
  stage.file = env.fileAt file stage.journal ∧
    stage.pool = env.reclaimAll pool (handovers stage.journal)

theorem Effect.accounts {low : Nat} {released : List Buffer} {crashed : Prop}
    {before after : Stage σ π} (effect : env.Effect low released crashed before after)
    (accounts : env.Accounts file pool before) : env.Accounts file pool after := by
  obtain ⟨new, journal, file_eq, pool_eq, -⟩ := effect
  obtain ⟨was_file, was_pool⟩ := accounts
  constructor
  · rw [file_eq, journal, was_file, fileAt_append]
  · rw [pool_eq, journal, was_pool, handovers_append, reclaimAll_append]

theorem accounts_abandon (orders : List Order) {stage : Stage σ π}
    (accounts : env.Accounts file pool stage) :
    env.Accounts file pool (env.abandon orders stage) := by
  induction orders generalizing stage with
  | nil => exact accounts
  | cons order later ih =>
    exact ih ((env.effect_releaseAll 0 order.request.buffers stage).accounts accounts)

/-- Nothing becomes of the file and the pools but by the calls in the journal. -/
theorem Reaches.accounts {s : Session σ π} (reached : env.Reaches settings file pool s) :
    env.Accounts file pool s.stage := by
  apply reached.rule
  · intro spooler stage started
    obtain ⟨cursor, -, -, rfl⟩ := spooler_start started
    exact ⟨rfl, rfl⟩
  · intro s request _ accounts
    have dropped := (env.effect_releaseAll 0 request.buffers s.stage).accounts accounts
    simp only [hand, submit]
    split
    · exact accounts
    · split
      · exact accounts
      · split
        · exact dropped
        · exact dropped
  · intro s _ accounts
    simp only [work, step]
    split
    · exact accounts
    · rename_i order later queued
      have processed := (env.effect_process order.request s.spooler.writer s.stage).accounts accounts
      split
      · exact processed
      · exact accounts_abandon later processed
  · exact fun s notice _ accounts => accounts
  · exact fun s none accounts => accounts

/-- A file in memory, and pools that may crash as planned. -/
def inMemory : Surroundings Memory Tally := ⟨Memory.store, Tally.pool⟩

/-- A file in memory and pools, all of which fail as planned. -/
def rehearsal : Surroundings (Planned Memory) Tally := ⟨Memory.store.planned, Tally.pool⟩

end Surroundings

/-- A buffer of three bytes that goes back to a pool. -/
def threeBytes : Item :=
  ⟨⟨⟨.ofList [1, 2, 3], by decide⟩, .pool, .data, 3, false, by decide⟩, 0, 7⟩

end Spillway
