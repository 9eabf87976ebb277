import Spillway.Proofs.Answers
import Spillway.Proofs.Locality
import Spillway.Proofs.Verdicts
/-!
It makes no difference when the writer comes to a request. Two stages are alike if they have the same
file and pools, saw the same events in the same order, replies aside, and gave the same answers to
every ticket. Settling the queue of a session comes to the same, up to this, as having processed each
request when it was submitted: a step of the writer only anticipates the settling, and a request that
is submitted behind others is settled behind them.
-/

namespace Spillway

variable {σ π : Type}

def Event.isReply : Event σ → Bool
  | .replied _ _ => true
  | _ => false

/-- The events of a journal, replies aside. -/
def deeds (journal : List (Event σ)) : List (Event σ) := journal.filter fun event => !event.isReply

/-- Stages that differ at most in when replies were given. -/
structure Stage.Alike (a b : Stage σ π) : Prop where
  file : a.file = b.file
  pool : a.pool = b.pool
  deeds : deeds a.journal = deeds b.journal
  answers : ∀ ticket, a.answers ticket = b.answers ticket

/-- Sessions with alike stages that differ at most in what their writers were seen doing. -/
structure Session.Alike (s t : Session σ π) : Prop where
  spooler : s.spooler = t.spooler
  submitted : s.submitted = t.submitted
  stage : s.stage.Alike t.stage

/-- The requests that are submitted in the course of a run. -/
def submissions (acts : List Act) : List Request :=
  acts.filterMap fun
    | .submit request => some request
    | _ => none

/-- The run in which each request is processed when it is submitted. -/
def promptly (requests : List Request) : List Act :=
  requests.flatMap fun request => [.submit request, .step]

theorem deeds_append (new old : List (Event σ)) : deeds (new ++ old) = deeds new ++ deeds old :=
  List.filter_append ..

theorem filterMap_deeds {α : Type} {f : Event σ → Option α}
    (none : ∀ ticket reply, f (.replied ticket reply) = none) (journal : List (Event σ)) :
    (deeds journal).filterMap f = journal.filterMap f := by
  rw [deeds, List.filterMap_filter]
  congr 1
  funext event
  cases event with
  | replied ticket reply => exact (none ticket reply).symm
  | called _ | released _ _ _ | counted _ _ | noted _ | crashed => rfl

namespace Stage.Alike

variable {a b c : Stage σ π}

theorem refl (a : Stage σ π) : a.Alike a := ⟨rfl, rfl, rfl, fun _ => rfl⟩

theorem trans (first : a.Alike b) (second : b.Alike c) : a.Alike c :=
  ⟨first.file.trans second.file, first.pool.trans second.pool, first.deeds.trans second.deeds,
    fun ticket => (first.answers ticket).trans (second.answers ticket)⟩

theorem onto (alike : a.Alike b) (stage : Stage σ π) :
    (stage.onto a.journal).Alike (stage.onto b.journal) := by
  refine ⟨rfl, rfl, ?_, fun ticket => ?_⟩
  · simp only [Stage.onto, deeds_append, alike.deeds]
  · have answers := alike.answers ticket
    simp only [Stage.answers] at answers
    simp only [Stage.answers, Stage.onto, answersIn_append, answers]

/-- What does not look back does alike things on alike stages. -/
theorem of_onto (alike : a.Alike b) (act : Stage σ π → Stage σ π)
    (onto : ∀ stage older, act (stage.onto older) = (act stage).onto older) :
    (act a).Alike (act b) := by
  rw [a.eq_onto, b.eq_onto, onto, onto, ← alike.file, ← alike.pool]
  exact alike.onto _

/-- What does not look back comes to the same on alike stages. -/
theorem eq_of_onto {α : Type} (alike : a.Alike b) (value : Stage σ π → α)
    (onto : ∀ stage older, value (stage.onto older) = value stage) : value a = value b := by
  rw [a.eq_onto, b.eq_onto, onto, onto, ← alike.file, ← alike.pool]

theorem calls_eq (alike : a.Alike b) : a.calls = b.calls := by
  simp only [Stage.calls, Stage.events, List.filterMap_reverse]
  rw [← filterMap_deeds (fun _ _ => rfl), alike.deeds, filterMap_deeds fun _ _ => rfl]

theorem releases_eq (alike : a.Alike b) : a.releases = b.releases := by
  simp only [Stage.releases, Stage.events, List.filterMap_reverse]
  rw [← filterMap_deeds (fun _ _ => rfl), alike.deeds, filterMap_deeds fun _ _ => rfl]

theorem crashes_eq (alike : a.Alike b) : a.crashes = b.crashes := by
  have counted : ∀ journal : List (Event σ),
      journal.countP Event.isCrash = (Spillway.deeds journal).countP Event.isCrash := by
    intro journal
    rw [Spillway.deeds, List.countP_filter]
    congr 1
    funext event
    cases event <;> simp [Event.isCrash, Event.isReply]
  rw [Stage.crashes, counted, alike.deeds, ← counted]
  rfl

end Stage.Alike

namespace Session.Alike

variable {s t u : Session σ π}

theorem refl (s : Session σ π) : s.Alike s := ⟨rfl, rfl, .refl _⟩

theorem trans (first : s.Alike t) (second : t.Alike u) : s.Alike u :=
  ⟨first.spooler.trans second.spooler, first.submitted.trans second.submitted,
    first.stage.trans second.stage⟩

end Session.Alike

namespace Surroundings

variable (env : Surroundings σ π)

theorem alike_hand (request : Request) {s t : Session σ π} (alike : s.Alike t) :
    (env.hand request s).Alike (env.hand request t) := by
  obtain ⟨spooler, submitted, stage⟩ := alike
  simp only [hand]
  rw [← submitted, ← spooler]
  refine ⟨?_, rfl, ?_⟩
  · exact stage.eq_of_onto (fun stage => (env.submit _ request s.spooler stage).2.1)
      fun stage older => by rw [submit_onto]
  · exact stage.of_onto (fun stage => (env.submit _ request s.spooler stage).2.2)
      fun stage older => by rw [submit_onto]

theorem alike_work {s t : Session σ π} (alike : s.Alike t) : (env.work s).Alike (env.work t) := by
  obtain ⟨spooler, submitted, stage⟩ := alike
  simp only [work]
  rw [← spooler]
  refine ⟨?_, submitted, ?_⟩
  · exact stage.eq_of_onto (fun stage => (env.step s.spooler stage).1)
      fun stage older => by rw [step_onto]
  · exact stage.of_onto (fun stage => (env.step s.spooler stage).2)
      fun stage older => by rw [step_onto]

theorem alike_run (acts : List Act) {s t : Session σ π} (alike : s.Alike t) :
    (env.run acts s).Alike (env.run acts t) := by
  induction acts generalizing s t with
  | nil => exact alike
  | cons act acts ih =>
    apply ih
    cases act with
    | submit request => exact env.alike_hand request alike
    | forget ticket => exact alike
    | step => exact env.alike_work alike

def settled (env : Surroundings σ π) (s : Session σ π) : Session σ π :=
  { s with
    spooler := (env.settle s.spooler s.stage).1
    stage := (env.settle s.spooler s.stage).2 }

theorem steps_of_queue_eq_nil (n : Nat) {spooler : Spooler} (none : spooler.queue = [])
    (stage : Stage σ π) : env.steps n spooler stage = (spooler, stage) := by
  induction n with
  | zero => rfl
  | succ n ih => rw [steps, env.step_nil none, ih]

theorem settle_of_queue_eq_nil {spooler : Spooler} (none : spooler.queue = [])
    (stage : Stage σ π) : env.settle spooler stage = (spooler, stage) :=
  env.steps_of_queue_eq_nil _ none stage

theorem settle_step (spooler : Spooler) (stage : Stage σ π) :
    env.settle (env.step spooler stage).1 (env.step spooler stage).2 =
      env.settle spooler stage := by
  cases queued : spooler.queue with
  | nil => rw [env.step_nil queued]
  | cons order later =>
    have first : env.settle spooler stage =
        env.steps later.length (env.step spooler stage).1 (env.step spooler stage).2 := by
      rw [settle, queued, List.length_cons, steps]
    rw [first]
    cases answered : (env.process order.request spooler.writer stage).reply? with
    | some reply => simp only [settle, step, queued, answered]
    | none =>
      have none : (env.step spooler stage).1.queue = [] := by simp only [step, queued, answered]
      rw [env.settle_of_queue_eq_nil none, env.steps_of_queue_eq_nil _ none]

theorem abandon_append (orders later : List Order) (stage : Stage σ π) :
    env.abandon (orders ++ later) stage = env.abandon later (env.abandon orders stage) := by
  induction orders generalizing stage with
  | nil => rfl
  | cons order orders ih => exact ih _

/-- A request behind others is processed once they are settled, or let go if the writer died over
them. -/
theorem settle_append {spooler rest : Spooler} {stage after : Stage σ π}
    (alive : spooler.alive = true) (done : env.settle spooler stage = (rest, after))
    (order : Order) :
    env.settle { spooler with queue := spooler.queue ++ [order] } stage =
      if rest.alive then env.step { rest with queue := [order] } after
      else (rest, (env.releaseAll order.request.buffers after).2.reply order.ticket
        (.error .closed)) := by
  obtain ⟨writer, alive', queue⟩ := spooler
  simp only at alive
  subst alive
  induction queue generalizing writer stage with
  | nil =>
    cases done
    rfl
  | cons first queue ih =>
    rw [← settle_step] at done ⊢
    cases answered : (env.process first.request writer stage).reply? with
    | some reply =>
      simp only [step, List.cons_append, answered] at done ⊢
      exact ih _ done
    | none =>
      simp only [step, List.cons_append, answered] at done ⊢
      rw [env.settle_of_queue_eq_nil rfl] at done ⊢
      cases done
      simp only [Bool.false_eq_true, if_false, abandon_append]
      rfl

/-- It makes no difference whether the reply to a request that does not wait comes before or after
the queue is settled. -/
theorem alike_settle_reply {ticket : Nat} {spooler : Spooler}
    (absent : waiting ticket spooler.queue = 0) (stage : Stage σ π) (reply : Reply) :
    (env.settle spooler (stage.reply ticket reply)).1 = (env.settle spooler stage).1 ∧
      (env.settle spooler (stage.reply ticket reply)).2.Alike
        ((env.settle spooler stage).2.reply ticket reply) := by
  obtain ⟨file, pool, journal⟩ := stage
  have none := env.length_answers_settle ticket spooler (.start file pool)
  have early := env.settle_onto (.replied ticket reply :: journal) spooler (.start file pool)
  have late := env.settle_onto journal spooler (.start file pool)
  change env.settle spooler ((Stage.mk file pool journal).reply ticket reply) = _ at early
  change env.settle spooler ⟨file, pool, journal⟩ = _ at late
  rw [early, late]
  generalize env.settle spooler (.start file pool) = done at none
  rw [absent] at none
  refine ⟨rfl, rfl, rfl, ?_, fun t => ?_⟩
  · exact (deeds_append done.2.journal _).trans (deeds_append done.2.journal journal).symm
  · have own : answersIn ticket done.2.journal = [] := List.length_eq_zero_iff.mp none
    rw [answers_reply]
    simp only [Stage.answers, Stage.onto, answersIn_append, answersIn]
    by_cases same : ticket = t
    · simp [← same, own]
    · simp [same]

/-- A request that is submitted behind others is settled as if they had been settled before. -/
theorem settle_submit (ticket : Nat) {request : Request} (some : request.items.isEmpty = false)
    {spooler rest : Spooler} {stage after : Stage σ π}
    (dead_queue : spooler.alive = false → spooler.queue = [])
    (done : env.settle spooler stage = (rest, after))
    (calm : env.Calm ∨ (env.settle (env.submit ticket request spooler stage).2.1
      (env.submit ticket request spooler stage).2.2).2.crashes ≤ 1) :
    env.settle (env.submit ticket request spooler stage).2.1
        (env.submit ticket request spooler stage).2.2 =
      env.step (env.submit ticket request rest after).2.1
        (env.submit ticket request rest after).2.2 := by
  have none : rest.queue = [] := by
    have empty := env.queue_settle spooler stage
    rwa [done] at empty
  cases alive : spooler.alive with
  | false =>
    have same : (env.submit ticket request spooler stage).2.1.queue = [] := by
      simp [submit, some, alive, dead_queue alive]
    rw [env.settle_of_queue_eq_nil (dead_queue alive)] at done
    cases done
    rw [env.settle_of_queue_eq_nil same, env.step_nil same]
  | true =>
    have queued : env.submit ticket request spooler stage =
        (false, { spooler with queue := spooler.queue ++ [⟨ticket, request⟩] }, stage) := by
      simp [submit, some, alive]
    have died := env.crashes_settle spooler stage
    rw [done, alive] at died
    rw [queued, env.settle_append alive done] at calm ⊢
    cases alive' : rest.alive with
    | true => simp [submit, some, none, alive']
    | false =>
      have released : (env.releaseAll request.buffers after).1 = false := by
        rcases calm with calm | once
        · exact calm_releaseAll calm request.buffers after
        · have dropped := env.effect_releaseAll 0 request.buffers after
          cases crash : (env.releaseAll request.buffers after).1 with
          | false => rfl
          | true =>
            have again := dropped.crashes_lt crash
            simp [alive'] at once died
            omega
      have stays := env.step_nil none
        ((env.releaseAll request.buffers after).2.reply ticket (.error .closed))
      simp [submit, some, alive', released, stays]

theorem alike_settled_hand (request : Request) {s : Session σ π} (orderly : s.Orderly)
    (balanced : s.Balanced)
    (calm : env.Calm ∨ (env.settled (env.hand request s)).stage.crashes ≤ 1) :
    (env.settled (env.hand request s)).Alike
      (env.work (env.hand request (env.settled s))) := by
  cases empty : request.items.isEmpty with
  | true =>
    have absent : waiting s.submitted.length s.spooler.queue = 0 := by
      have once := balanced.answers s.submitted.length
      rw [if_neg (Nat.lt_irrefl _)] at once
      omega
    obtain ⟨spooler, stage⟩ := env.alike_settle_reply absent s.stage (.ok [])
    have none := env.queue_settle s.spooler s.stage
    simp only [settled, hand, submit, empty, if_true, work, env.step_nil none]
    exact ⟨spooler, rfl, stage⟩
  | false =>
    have same := env.settle_submit s.submitted.length empty orderly.dead_queue rfl calm
    refine ⟨congrArg Prod.fst same, rfl, ?_⟩
    have stage : (env.settled (env.hand request s)).stage =
        (env.work (env.hand request (env.settled s))).stage := congrArg Prod.snd same
    rw [stage]
    exact .refl _

theorem alike_settled_work (s : Session σ π) : (env.settled (env.work s)).Alike (env.settled s) := by
  have same := env.settle_step s.spooler s.stage
  refine ⟨congrArg Prod.fst same, rfl, ?_⟩
  have stage : (env.settled (env.work s)).stage = (env.settled s).stage := congrArg Prod.snd same
  rw [stage]
  exact .refl _

/-- A run in which at most one thing crashes, or no pool does, comes to the same, once its queue is
settled, as processing each request promptly. -/
theorem alike_settled_run (acts : List Act) {s : Session σ π} (orderly : s.Orderly)
    (balanced : s.Balanced)
    (calm : env.Calm ∨ (env.settled (env.run acts s)).stage.crashes ≤ 1) :
    (env.settled (env.run acts s)).Alike
      (env.run (promptly (submissions acts)) (env.settled s)) := by
  induction acts generalizing s with
  | nil => exact .refl _
  | cons act acts ih =>
    cases act with
    | submit request =>
      have later := ih (orderly_hand request orderly) (balanced_hand request balanced) calm
      -- What has crashed by now is no more than what has crashed in the end.
      have now : env.Calm ∨ (env.settled (env.hand request s)).stage.crashes ≤ 1 := by
        have grown := crashes_le_of_suffix (env.suffix_run (promptly (submissions acts))
          (env.settled (env.hand request s)))
        rw [← later.stage.crashes_eq] at grown
        exact calm.imp_right (Nat.le_trans grown)
      exact later.trans (env.alike_run _ (env.alike_settled_hand request orderly balanced now))
    | forget ticket => exact ih orderly balanced calm
    | step =>
      have later := ih (orderly_work orderly) (balanced_work balanced) calm
      exact later.trans (env.alike_run _ (env.alike_settled_work s))

theorem leave_alike (ending : Ending) {s t : Session σ π} (alike : s.Alike t) :
    (s.leave ending).Alike (t.leave ending) := by
  obtain ⟨spooler, submitted, stage⟩ := alike
  have alive : t.spooler.alive = s.spooler.alive := by rw [spooler]
  have cursor : t.spooler.writer.cursor = s.spooler.writer.cursor := by rw [spooler]
  have gone : s.shut.spooler = t.shut.spooler := by simp only [Session.shut, spooler]
  rcases Session.leave_together ending alive cursor with ⟨first, second⟩ | ⟨notice, -, first, second⟩
  · rw [first, second]
    exact ⟨gone, submitted, stage⟩
  · rw [first, second]
    exact ⟨gone, submitted, stage.of_onto (fun stage => stage.note notice) fun _ _ => rfl⟩

/-- Sessions that are alike once they are settled are alike once they are given up. -/
theorem alike_finish (ending : Ending) {s t : Session σ π} (none : t.spooler.queue = [])
    (alike : (env.settled s).Alike t) : (env.finish ending s).Alike (env.finish ending t) := by
  obtain ⟨spooler, stage⟩ := env.workOff_eq_steps s.spooler.queue.length s
  have worked : (env.workOff s.spooler.queue.length s).Alike (env.settled s) :=
    ⟨spooler, env.submitted_workOff _ s, stage ▸ .refl _⟩
  rw [finish_eq_leave, finish_eq_leave, none]
  exact leave_alike ending (worked.trans alike)

/-- Giving a spooler up answers as taking a step for everything in the queue does. -/
theorem answers_finish_eq (ending : Ending) (s : Session σ π) (ticket : Nat) :
    (env.finish ending s).stage.answers ticket =
      (env.workOff s.spooler.queue.length s).stage.answers ticket := by
  rcases env.finish_eq ending s with finished | ⟨notice, -, finished⟩
  · rw [finished]
    rfl
  · rw [finished]
    rfl

theorem answers_finish (ending : Ending) (s : Session σ π) (ticket : Nat) :
    (env.finish ending s).stage.answers ticket = (env.settled s).stage.answers ticket := by
  rw [answers_finish_eq, (env.workOff_eq_steps s.spooler.queue.length s).2]
  rfl

theorem crashes_finish (ending : Ending) (s : Session σ π) :
    (env.finish ending s).stage.crashes = (env.settled s).stage.crashes := by
  have settled : (env.workOff s.spooler.queue.length s).stage.crashes = (env.settled s).stage.crashes :=
    congrArg Stage.crashes (env.workOff_eq_steps s.spooler.queue.length s).2
  rcases env.finish_eq ending s with finished | ⟨notice, -, finished⟩
  · rw [finished]
    exact settled
  · rw [finished]
    exact settled

theorem submitted_run (acts : List Act) (s : Session σ π) :
    (env.run acts s).submitted = s.submitted ++ submissions acts := by
  induction acts generalizing s with
  | nil => simp [run, submissions]
  | cons act acts ih =>
    have rest := ih (env.next act s)
    cases act with
    | submit request => simpa [run, submissions, next, hand] using rest
    | forget ticket => simpa [run, submissions, next] using rest
    | step => simpa [run, submissions, next, work] using rest

/-- A request over which the writer dies, or that finds it dead, is answered as closed. -/
theorem answers_work_hand {request : Request} (some : request.items.isEmpty = false)
    {s : Session σ π} (none : s.spooler.queue = [])
    (dead : (env.work (env.hand request s)).spooler.alive = false)
    (calm : (env.hand request s).crashed = []) :
    (env.work (env.hand request s)).stage.answers s.submitted.length =
      .error .closed :: s.stage.answers s.submitted.length := by
  cases alive : s.spooler.alive with
  | true =>
    have handed : env.hand request s = { s with
        spooler := { s.spooler with queue := [⟨s.submitted.length, request⟩] }
        submitted := s.submitted ++ [request] } := by
      simp [hand, submit, some, alive, none]
    rw [handed] at dead ⊢
    simp only [work, step] at dead ⊢
    have processed := (env.effect_process request s.spooler.writer s.stage).answers_eq
      s.submitted.length
    cases answered : (env.process request s.spooler.writer s.stage).reply? with
    | some reply => simp [answered, alive] at dead
    | none =>
      simp only [abandon]
      rw [answers_reply, if_pos rfl, processed]
  | false =>
    have dropped := (env.effect_releaseAll 0 request.buffers s.stage).answers_eq s.submitted.length
    cases crash : (env.releaseAll request.buffers s.stage).1 with
    | true => simp [hand, submit, some, alive, crash] at calm
    | false =>
      have handed : env.hand request s = { s with
          stage := (env.releaseAll request.buffers s.stage).2.reply s.submitted.length
            (.error .closed)
          submitted := s.submitted ++ [request] } := by
        simp [hand, submit, some, alive, crash]
      rw [handed]
      simp only [work]
      rw [env.step_nil none, answers_reply, if_pos rfl, dropped]

theorem run_promptly_append (requests later : List Request) (s : Session σ π) :
    env.run (promptly (requests ++ later)) s =
      env.run (promptly later) (env.run (promptly requests) s) := by
  simp [run, promptly, List.foldl_append]

theorem queue_run_promptly (requests : List Request) {s : Session σ π}
    (none : s.spooler.queue = []) : (env.run (promptly requests) s).spooler.queue = [] := by
  induction requests generalizing s with
  | nil => exact none
  | cons request requests ih =>
    have one : (env.hand request s).spooler.queue.length ≤ 1 := by
      simp only [hand, submit]
      split
      · simp [none]
      · split <;> simp [none]
    have left := env.length_queue_step (env.hand request s).spooler (env.hand request s).stage
    have gone : (env.work (env.hand request s)).spooler.queue = [] := by
      simp only [work]
      exact List.length_eq_zero_iff.mp (by omega)
    exact ih gone

@[simp] theorem submissions_promptly (requests : List Request) :
    submissions (promptly requests) = requests := by
  induction requests with
  | nil => rfl
  | cons request requests ih => exact congrArg (request :: ·) ih

theorem length_answers_run_promptly (requests : List Request) {s : Session σ π}
    (none : s.spooler.queue = []) (balanced : s.Balanced)
    (calm : (env.run (promptly requests) s).stage.crashes ≤ 1) (ticket : Nat)
    (inside : ticket < s.submitted.length + requests.length) :
    ((env.run (promptly requests) s).stage.answers ticket).length = 1 := by
  have after := env.balanced_run (promptly requests) balanced
  have count := after.answers ticket
  rw [env.queue_run_promptly requests none, after.crashed_eq_nil calm, waiting_nil,
    submitted_run, submissions_promptly, List.length_append, if_pos inside] at count
  simpa using count

/-- The request over which the writer dies, and those after it, are answered as closed. -/
theorem answers_run_promptly_closed {before after : List Request} {request : Request}
    (some : request.items ≠ []) {s : Session σ π} (none : s.spooler.queue = [])
    (balanced : s.Balanced)
    (calm : (env.run (promptly (before ++ request :: after)) s).stage.crashes ≤ 1)
    (dead : (env.run (promptly (before ++ [request])) s).spooler.alive = false) :
    (env.run (promptly (before ++ request :: after)) s).stage.answers
      (s.submitted.length + before.length) = [.error .closed] := by
  have once := env.length_answers_run_promptly (before ++ request :: after) none balanced calm
    (s.submitted.length + before.length) (by simp)
  have split : before ++ request :: after = (before ++ [request]) ++ after := by simp
  rw [split, run_promptly_append] at calm once ⊢
  have place : (env.run (promptly before) s).submitted.length =
      s.submitted.length + before.length := by simp [submitted_run]
  have then_none := env.queue_run_promptly before none
  have then_balanced := env.balanced_run (promptly (before ++ [request])) balanced
  have here : env.run (promptly (before ++ [request])) s =
      env.work (env.hand request (env.run (promptly before) s)) := by
    rw [run_promptly_append]
    rfl
  obtain ⟨new, journal⟩ := env.suffix_run (promptly after) (env.run (promptly (before ++ [request])) s)
  have calm_here := Nat.le_trans (crashes_le_of_suffix ⟨new, journal⟩) calm
  have crashed := then_balanced.crashed_eq_nil calm_here
  rw [here] at dead crashed
  have closed := env.answers_work_hand (by simpa using some) then_none dead crashed
  -- The answer at this point is the only one that there ever is.
  rw [Stage.answers, ← journal, answersIn_append] at once ⊢
  change (_ ++ (env.run (promptly (before ++ [request])) s).stage.answers _).length = 1 at once
  change _ ++ (env.run (promptly (before ++ [request])) s).stage.answers _ = _
  rw [here, ← place, closed] at once ⊢
  generalize (env.run (promptly before) s).submitted.length = ticket at *
  rw [List.length_append, List.length_cons] at once
  have later : answersIn ticket new = [] := List.length_eq_zero_iff.mp (by omega)
  have earlier : (env.run (promptly before) s).stage.answers ticket = [] :=
    List.length_eq_zero_iff.mp (by omega)
  rw [later, earlier]
  rfl

variable {env} {settings : Settings} {file : σ} {pool : π}

/-- Queueing is transparent. As long as at most one thing crashes, a run that is ended makes the same
calls and releases, leaves the same file and gives the same answers as the one that processes each
request when it is submitted. Every request is answered once, nothing is left in the queue, and the
requests from the one on over which the writer dies are answered as closed. -/
theorem queueing_is_transparent {spooler : Spooler} {stage : Stage σ π}
    (started : env.start settings (.start file pool) = (.done spooler, stage)) (acts : List Act)
    (ending : Ending)
    (calm : (env.finish ending (env.run acts (.fresh spooler stage))).stage.crashes ≤ 1) :
    let queued := env.finish ending (env.run acts (.fresh spooler stage))
    let prompt := env.finish ending
      (env.run (promptly (submissions acts)) (.fresh spooler stage))
    queued.stage.calls = prompt.stage.calls ∧
      queued.stage.file = prompt.stage.file ∧
      queued.stage.releases = prompt.stage.releases ∧
      (∀ ticket, queued.stage.answers ticket = prompt.stage.answers ticket) ∧
      (∀ ticket < (submissions acts).length, ∃ reply, queued.stage.answers ticket = [reply]) ∧
      queued.spooler.queue = [] ∧
      ∀ before request after, submissions acts = before ++ request :: after →
        request.items ≠ [] →
        (env.run (promptly (before ++ [request])) (.fresh spooler stage)).spooler.alive = false →
        queued.stage.answers before.length = [.error .closed] := by
  have balanced := balanced_fresh started
  have orderly : (Session.fresh spooler stage).Orderly := (Reaches.start started).orderly
  have none : (Session.fresh spooler stage).spooler.queue = [] := by
    obtain ⟨cursor, -, rfl, -⟩ := spooler_start started
    rfl
  have at_rest : env.settled (.fresh spooler stage) = .fresh spooler stage := by
    simp only [settled, env.settle_of_queue_eq_nil none]
  have submitted : (Session.fresh spooler stage).submitted = [] := rfl
  generalize Session.fresh spooler stage = fresh at *
  have calm_settled := calm
  rw [crashes_finish] at calm_settled
  have alike := env.alike_settled_run acts orderly balanced (.inr calm_settled)
  rw [at_rest] at alike
  have prompt_queue := env.queue_run_promptly (submissions acts) none
  have finished := env.alike_finish ending prompt_queue alike
  have prompt_calm : (env.run (promptly (submissions acts)) fresh).stage.crashes ≤ 1 := by
    rw [← alike.stage.crashes_eq]
    exact calm_settled
  have answered : ∀ ticket,
      (env.finish ending (env.run acts fresh)).stage.answers ticket =
        (env.run (promptly (submissions acts)) fresh).stage.answers ticket := by
    intro ticket
    rw [answers_finish]
    exact alike.stage.answers ticket
  refine ⟨finished.stage.calls_eq, finished.stage.file, finished.stage.releases_eq,
    finished.stage.answers, fun ticket inside => ?_, env.queue_finish ending _, ?_⟩
  · have once := env.length_answers_run_promptly (submissions acts) none balanced prompt_calm
      ticket (by omega)
    rw [answered]
    exact List.length_eq_one_iff.mp once
  · intro before request after split some dead
    rw [split] at prompt_calm
    have closed := env.answers_run_promptly_closed some none balanced prompt_calm dead
    rw [answered, split]
    simpa [submitted] using closed

/-- A request is written and answered. The frame of the next one is written, too, but the pool crashes over
its segment. -/
theorem process_until_death :
    let opened := (rehearsal.start .standard (.start ⟨⟨.empty, false⟩, .none⟩ ⟨0, some 1⟩)).2
    let advanced := (Writer.start .standard 0).advance 11
    ∃ between file journal,
      rehearsal.process ⟨[threeBytes]⟩ (.start .standard 0) opened =
        ⟨some (.ok [⟨7, 0, 0⟩]), advanced, between⟩ ∧
      rehearsal.process ⟨[threeBytes]⟩ advanced (between.reply 0 (.ok [⟨7, 0, 0⟩])) =
        ⟨none, advanced, ⟨file, ⟨2, some 1⟩, journal⟩⟩ ∧
      journal.countP Event.isCrash = 1 := by
  intro opened advanced
  have spilt : ∃ between file journal,
      rehearsal.spill ⟨[threeBytes]⟩ (.start .standard 0) opened = ⟨.done, advanced, between⟩ ∧
      rehearsal.spill ⟨[threeBytes]⟩ advanced
        ((between.countSuccess ⟨[threeBytes]⟩).reply 0 (.ok [⟨7, 0, 0⟩])) =
          ⟨.crashed, advanced, ⟨file, ⟨2, some 1⟩, journal⟩⟩ ∧
      journal.countP Event.isCrash = 1 :=
    ⟨_, _, _, Eq.trans (spill_whole (by simp) (by decide) encode_threeBytes rfl (by decide) (by decide)
      (by decide) rfl) rfl, Eq.trans (spill_whole (by simp) (by decide) encode_threeBytes rfl (by decide)
      (by decide) (by decide) rfl) rfl, rfl⟩
  obtain ⟨between, file, journal, done, crashed, once⟩ := spilt
  exact ⟨_, file, journal, Eq.trans (carryOut_of_done (by rw [done]) (by rw [done]; rfl)) (by rw [done]; rfl),
    Eq.trans (carryOut_of_crashed (by rw [crashed])) (by rw [crashed]), once⟩

/-- The first of three requests is written and answered. The writer dies over the second one, once that
is written, when the third one waits already. Each has one answer, and the last one is closed. -/
theorem queueing_behind_a_dying_writer :
    let start := rehearsal.start .standard (.start ⟨⟨.empty, false⟩, .none⟩ ⟨0, some 1⟩)
    let acts := [.submit ⟨[threeBytes]⟩, .submit ⟨[threeBytes]⟩, .submit ⟨[threeBytes, threeBytes]⟩,
      .step, .forget 0]
    let queued := rehearsal.finish .discard
      (rehearsal.run acts (.fresh ⟨.start .standard 0, true, []⟩ start.2))
    (∀ ticket < 3, ∃ reply, queued.stage.answers ticket = [reply]) ∧
      queued.stage.answers 2 = [.error .closed] := by
  intro start acts queued
  have started : start = (.done ⟨.start .standard 0, true, []⟩, start.2) := rfl
  obtain ⟨between, file, journal, answered, died, once⟩ := process_until_death
  have calm : queued.stage.crashes ≤ 1 := by
    have begun : queued = rehearsal.finish .discard (rehearsal.work (rehearsal.run
      [.submit ⟨[threeBytes]⟩, .submit ⟨[threeBytes]⟩, .submit ⟨[threeBytes, threeBytes]⟩]
      (.fresh ⟨.start .standard 0, true, []⟩ start.2))) := rfl
    rw [begun, rehearsal.work_of_reply rfl answered, finish_eq_leave]
    show ((rehearsal.workOff 1 (rehearsal.work _)).leave .discard).stage.crashes ≤ 1
    rw [rehearsal.work_of_death rfl died]
    exact Nat.le_of_eq once
  have dead : (rehearsal.run (promptly [⟨[threeBytes]⟩, ⟨[threeBytes]⟩, ⟨[threeBytes, threeBytes]⟩])
      (.fresh ⟨.start .standard 0, true, []⟩ start.2)).spooler.alive = false := by
    have first : ∃ submitted crashed errands, rehearsal.work (rehearsal.hand ⟨[threeBytes]⟩
        (.fresh ⟨.start .standard 0, true, []⟩ start.2)) =
          ⟨⟨(Writer.start .standard 0).advance 11, true, []⟩, between.reply 0 (.ok [⟨7, 0, 0⟩]),
            submitted, crashed, errands⟩ :=
      ⟨_, _, _, (rehearsal.work_of_reply (s := rehearsal.hand ⟨[threeBytes]⟩ _) rfl answered).trans rfl⟩
    obtain ⟨submitted, crashed, errands, first⟩ := first
    simp only [promptly, List.flatMap_cons, List.flatMap_nil, run, next, List.foldl_cons, List.foldl_nil,
      List.cons_append, List.nil_append, first]
    rw [rehearsal.work_of_death (s := rehearsal.hand ⟨[threeBytes]⟩ _) rfl died]
    rfl
  obtain ⟨-, -, -, -, all, -, closed⟩ := queueing_is_transparent started acts .discard calm
  exact ⟨all, closed [⟨[threeBytes]⟩, ⟨[threeBytes]⟩] ⟨[threeBytes, threeBytes]⟩ [] rfl (by decide) dead⟩

end Surroundings
end Spillway
