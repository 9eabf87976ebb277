import Spillway.Proofs.Marks
import Spillway.Proofs.Queue
import Spillway.Proofs.Release
import Spillway.Proofs.Verdicts
/-!
A writer that is poisoned or dead stays so. From then on the file is not called and does not change,
nor do the cursor and the count of written bytes, and what is submitted, or waits still, is let go and
answered: as poisoned until something crashes, and as closed after that. Requests that are empty are
answered as ever.
-/

namespace Spillway

variable {σ π : Type}

/-- The writer writes nothing any more: it is poisoned, or dead. -/
def Session.Final (s : Session σ π) : Prop :=
  s.spooler.writer.poisoned = true ∨ s.spooler.alive = false

/-- What is left to answer a request with when so much has happened. -/
def Request.lastReply (request : Request) (older : List (Event σ)) : Reply :=
  if request.items.isEmpty then .ok []
  else if older.any Event.isCrash then .error .closed
  else .error .poisoned

/-- A session comes after another in the same run, which may have ended by then. -/
def Surroundings.Follows (env : Surroundings σ π) (s t : Session σ π) : Prop :=
  ∃ more, t = env.run more s ∨ ∃ ending, t = env.finish ending (env.run more s)

/-- If the last thing that happened is a reply, and nothing but the last reply was left by then, it
is that. -/
def LastReply (last : List (Event σ) → Prop) (submitted : List Request) : List (Event σ) → Prop
  | .replied ticket reply :: older => last older →
    ∃ request, submitted[ticket]? = some request ∧ reply = request.lastReply older
  | _ => True

/-- The writer has come no further, and the file has been left alone. -/
structure Session.Stands (s t : Session σ π) : Prop where
  untouched : s.stage.Untouched t.stage
  writer : t.spooler.writer = s.spooler.writer
  alive : t.spooler.alive = true → s.spooler.alive = true

namespace Session.Stands

variable {s t u : Session σ π}

theorem refl (s : Session σ π) : s.Stands s := ⟨.refl s.stage, rfl, id⟩

theorem trans (first : s.Stands t) (second : t.Stands u) : s.Stands u :=
  ⟨first.untouched.trans second.untouched, second.writer.trans first.writer,
    fun lives => first.alive (second.alive lives)⟩

theorem final (stands : s.Stands t) (final : s.Final) : t.Final := by
  rcases final with poisoned | dead
  · exact .inl (by rw [stands.writer, poisoned])
  · cases lives : t.spooler.alive with
    | false => exact .inr lives
    | true => rw [stands.alive lives] at dead; cases dead

end Session.Stands

theorem untouched_abandon (env : Surroundings σ π) (orders : List Order) (stage : Stage σ π) :
    stage.Untouched (env.abandon orders stage) := by
  induction orders generalizing stage with
  | nil => exact .refl stage
  | cons order later ih =>
    have dropped := Stage.Untouched.releaseAll env.toPool order.request.buffers stage
    exact (dropped.trans (.reply _ order.ticket (.error .closed))).trans (ih _)

namespace Surroundings

variable {env : Surroundings σ π} {settings : Settings} {file : σ} {pool : π}

theorem stands_hand (request : Request) (s : Session σ π) : s.Stands (env.hand request s) := by
  have dropped := Stage.Untouched.releaseAll env.toPool request.buffers s.stage
  simp only [hand, submit]
  split
  · exact ⟨.reply s.stage _ _, rfl, id⟩
  · split
    · exact ⟨.refl s.stage, rfl, id⟩
    · split
      · exact ⟨dropped, rfl, id⟩
      · exact ⟨dropped.trans (.reply _ _ _), rfl, id⟩

theorem stands_work {s : Session σ π} (orderly : s.Orderly) (final : s.Final) :
    s.Stands (env.work s) := by
  cases queued : s.spooler.queue with
  | nil =>
    simp only [work, env.step_nil queued]
    exact ⟨.refl s.stage, rfl, id⟩
  | cons order later =>
    have alive := orderly.alive_of_queue (by simp [queued])
    have poisoned : s.spooler.writer.poisoned = true := by
      rcases final with poisoned | dead
      · exact poisoned
      · simp [alive] at dead
    have dropped := Stage.Untouched.releaseAll env.toPool order.request.buffers s.stage
    simp only [work, step, queued, env.process_of_poisoned order.request s.stage poisoned, refuse]
    by_cases crash : (env.releaseAll order.request.buffers s.stage).1 = true
    · simp only [crash, if_true]
      exact ⟨(dropped.trans (.reply _ _ _)).trans (untouched_abandon env later _), rfl,
        fun lives => absurd lives (by simp)⟩
    · simp only [crash]
      exact ⟨dropped.trans (.reply _ _ _), rfl, id⟩

theorem stands_run {s : Session σ π} (reached : env.Reaches settings file pool s) (final : s.Final)
    (more : List Act) : s.Stands (env.run more s) := by
  induction more generalizing s with
  | nil => exact .refl s
  | cons act more ih =>
    have first : s.Stands (env.next act s) := by
      cases act with
      | submit request => exact stands_hand request s
      | forget ticket => exact .refl s
      | step => exact stands_work reached.orderly final
    exact first.trans (ih (.act act reached) (first.final final))

/-- What holds after any more acts, and is kept by a report and when the writer is gone, holds in
whatever follows. -/
theorem Follows.rule {P : Session σ π → Prop} {s t : Session σ π} (follows : env.Follows s t)
    (run : ∀ more, P (env.run more s)) (note : ∀ u notice, P u → P (u.note notice))
    (shut : ∀ u, P u → P u.shut) : P t := by
  obtain ⟨more, same | ⟨ending, same⟩⟩ := follows
  · rw [same]
    exact run more
  · have settled : P (env.workOff (env.run more s).spooler.queue.length (env.run more s)) := by
      have ran := run (more ++ List.replicate (env.run more s).spooler.queue.length .step)
      rw [env.workOff_eq_run]
      rwa [Surroundings.run, List.foldl_append] at ran
    rw [same]
    obtain same | ⟨notice, -, same⟩ := env.finish_eq ending (env.run more s)
    · rw [same]
      exact shut _ settled
    · rw [same]
      exact shut _ (note _ notice settled)

theorem Follows.reaches {s t : Session σ π} (follows : env.Follows s t)
    (reached : env.Reaches settings file pool s) : env.Reaches settings file pool t := by
  obtain ⟨more, rfl | ⟨ending, rfl⟩⟩ := follows
  · exact reached.run more
  · exact .finish ending (reached.run more)

theorem Follows.suffix {s t : Session σ π} (follows : env.Follows s t) :
    s.stage.journal <:+ t.stage.journal := by
  apply follows.rule
  · exact fun more => env.suffix_run more s
  · exact fun u notice suffix => suffix.trans (List.suffix_cons _ _)
  · exact fun u suffix => suffix

/-- Nothing comes of a writer that is poisoned or dead. -/
theorem stands_of_follows {s t : Session σ π} (reached : env.Reaches settings file pool s)
    (final : s.Final) (follows : env.Follows s t) : s.Stands t := by
  apply follows.rule
  · exact stands_run reached final
  · exact fun u notice stands =>
      ⟨stands.untouched.trans (.note u.stage notice), stands.writer, stands.alive⟩
  · exact fun u stands =>
      ⟨stands.untouched, stands.writer, fun lives => absurd lives (by simp [Session.shut])⟩

theorem poisoned_next (act : Act) {s : Session σ π}
    (poisoned : s.spooler.writer.poisoned = true) :
    (env.next act s).spooler.writer.poisoned = true := by
  cases act with
  | submit request => rw [← poisoned, next, (stands_hand request s).writer]
  | forget ticket => exact poisoned
  | step =>
    simp only [next, work, step]
    split
    · exact poisoned
    · rename_i order later queued
      have stays := env.poisoned_process order.request s.stage poisoned
      split <;> exact stays

end Surroundings

theorem lastReply_of_isWork {last : List (Event σ) → Prop} {low : Nat} {submitted : List Request}
    {event : Event σ} (work : event.IsWork low) (older : List (Event σ)) :
    LastReply last submitted (event :: older) := by
  cases event with
  | replied ticket reply => exact work.elim
  | called _ | released _ _ _ | counted _ _ | noted _ | crashed => trivial

theorem LastReply.mono {last : List (Event σ) → Prop} {submitted : List Request}
    (more : List Request) {journal : List (Event σ)} (told : LastReply last submitted journal) :
    LastReply last (submitted ++ more) journal := by
  unfold LastReply at told ⊢
  split
  · intro now
    obtain ⟨request, found, same⟩ := told now
    have inside := (List.getElem?_eq_some_iff.mp found).1
    exact ⟨request, by rw [List.getElem?_append_left inside, found], same⟩
  · trivial

theorem Surroundings.Effect.lastReply {env : Surroundings σ π} {last : List (Event σ) → Prop}
    {low : Nat} {released : List Buffer} {crashed : Prop} {submitted : List Request}
    {before after : Stage σ π} (effect : env.Effect low released crashed before after)
    (told : AtEveryMoment (LastReply last submitted) before.journal) :
    AtEveryMoment (LastReply last submitted) after.journal := by
  obtain ⟨new, journal, -, -, work, -, -⟩ := effect
  rw [journal]
  exact told.append work fun event older _ isWork _ => lastReply_of_isWork isWork older

/-- After a crash, a request that is not empty is closed. -/
theorem lastReply_of_crash {request : Request} (some : request.items ≠ [])
    {older : List (Event σ)} (crash : ∃ event ∈ older, event.isCrash) :
    request.lastReply older = .error .closed := by
  have any : older.any Event.isCrash = true := by simpa using crash
  rw [Request.lastReply, if_neg (by simpa using some), if_pos any]

theorem lastReply_of_calm {request : Request} (some : request.items ≠ [])
    {older : List (Event σ)} (calm : ¬ ∃ event ∈ older, event.isCrash) :
    request.lastReply older = .error .poisoned := by
  have none : ¬ older.any Event.isCrash = true := by simpa using calm
  rw [Request.lastReply, if_neg (by simpa using some), if_neg none]

namespace Surroundings

variable {env : Surroundings σ π} {settings : Settings} {file : σ} {pool : π}
  {last : List (Event σ) → Prop}

theorem told_abandon {submitted : List Request} {orders : List Order}
    (known : ∀ order ∈ orders, submitted[order.ticket]? = some order.request ∧
      order.request.items ≠ []) {stage : Stage σ π}
    (crash : ∃ event ∈ stage.journal, event.isCrash)
    (told : AtEveryMoment (LastReply last submitted) stage.journal) :
    AtEveryMoment (LastReply last submitted) (env.abandon orders stage).journal := by
  induction orders generalizing stage with
  | nil => exact told
  | cons order later ih =>
    obtain ⟨found, some⟩ := known order (by simp)
    have dropped := env.effect_releaseAll 0 order.request.buffers stage
    have crashed : ∃ event ∈ (env.releaseAll order.request.buffers stage).2.journal,
        event.isCrash := by
      obtain ⟨event, member, is⟩ := crash
      exact ⟨event, dropped.suffix.subset member, is⟩
    apply ih (fun order member => known order (List.mem_cons_of_mem _ member))
    · obtain ⟨event, member, is⟩ := crashed
      exact ⟨event, List.mem_cons_of_mem _ member, is⟩
    · refine atEveryMoment_cons.mpr ⟨fun _ => ⟨order.request, found, ?_⟩, dropped.lastReply told⟩
      exact (lastReply_of_crash some crashed).symm

theorem told_hand {s : Session σ π} (request : Request) (marked : s.Marked)
    (told : AtEveryMoment (LastReply last s.submitted) s.stage.journal) :
    AtEveryMoment (LastReply last (env.hand request s).submitted)
      (env.hand request s).stage.journal := by
  have grown : AtEveryMoment (LastReply last (s.submitted ++ [request])) s.stage.journal :=
    fun moment suffix => (told moment suffix).mono [request]
  have here : (s.submitted ++ [request])[s.submitted.length]? = some request := by simp
  have effect := env.effect_releaseAll 0 request.buffers s.stage
  have dropped := effect.lastReply grown
  simp only [hand, submit]
  by_cases empty : request.items.isEmpty = true
  · rw [if_pos empty]
    refine atEveryMoment_cons.mpr ⟨fun _ => ⟨request, here, ?_⟩, grown⟩
    rw [Request.lastReply, if_pos empty]
  · rw [if_neg empty]
    by_cases alive : s.spooler.alive = true
    · rw [if_pos alive]
      exact grown
    · rw [if_neg alive]
      by_cases crash : (env.releaseAll request.buffers s.stage).1 = true
      · simp only [crash, if_true]
        exact dropped
      · simp only [crash]
        obtain ⟨event, member, is⟩ := marked.dead.mp (by simpa using alive)
        refine atEveryMoment_cons.mpr ⟨fun _ => ⟨request, here, ?_⟩, dropped⟩
        exact (lastReply_of_crash (by simpa using empty) ⟨event, effect.suffix.subset member, is⟩).symm

theorem reply_of_poisoned {request : Request} {writer : Writer} {stage : Stage σ π} {reply : Reply}
    (poisoned : writer.poisoned = true)
    (answered : (env.process request writer stage).reply? = some reply) :
    reply = .error .poisoned := by
  rw [env.process_of_poisoned request stage poisoned, refuse] at answered
  split at answered
  · cases answered
  · exact (Option.some.inj answered).symm

/-- A step tells the last reply where a crash or a poisoned writer leaves nothing else. -/
theorem told_work {s : Session σ π} (orderly : s.Orderly) (marked : s.Marked)
    (last_or : ∀ older, s.stage.journal <:+ older → last older →
      (∃ event ∈ older, event.isCrash) ∨ s.spooler.writer.poisoned = true)
    (told : AtEveryMoment (LastReply last s.submitted) s.stage.journal) :
    AtEveryMoment (LastReply last (env.work s).submitted) (env.work s).stage.journal := by
  cases queued : s.spooler.queue with
  | nil =>
    simp only [work, env.step_nil queued]
    exact told
  | cons order later =>
    have known : ∀ order' ∈ order :: later, s.submitted[order'.ticket]? = some order'.request ∧
        order'.request.items ≠ [] := by
      intro order' member
      exact orderly.submitted_of_queue (by rw [queued]; exact member)
    obtain ⟨found, some⟩ := known order (by simp)
    have alive := orderly.alive_of_queue (by simp [queued])
    have calm : ¬ ∃ event ∈ s.stage.journal, event.isCrash := by
      rw [← marked.dead, alive]
      simp
    have effect := env.effect_process order.request s.spooler.writer s.stage
    have crashes := (env.marks_process order.request s.spooler.writer s.stage).exists_iff.2
    have processed := effect.lastReply told
    simp only [work, step, queued]
    cases answered : (env.process order.request s.spooler.writer s.stage).reply? with
    | some reply =>
      have still : ¬ ∃ event ∈ (env.process order.request s.spooler.writer s.stage).stage.journal,
          event.isCrash := by
        rw [crashes, answered]
        simp only [reduceCtorEq, false_or]
        exact calm
      refine atEveryMoment_cons.mpr ⟨fun now => ⟨order.request, found, ?_⟩, processed⟩
      rcases last_or _ effect.suffix now with crash | poisoned
      · exact absurd crash still
      · rw [lastReply_of_calm some still]
        exact reply_of_poisoned poisoned answered
    | none =>
      have crash := crashes.mpr (.inl answered)
      apply told_abandon fun order member => known order (List.mem_cons_of_mem _ member)
      · obtain ⟨event, member, is⟩ := crash
        exact ⟨event, List.mem_cons_of_mem _ member, is⟩
      · refine atEveryMoment_cons.mpr ⟨fun _ => ⟨order.request, found, ?_⟩, processed⟩
        exact (lastReply_of_crash some crash).symm

theorem told_run {s : Session σ π} (reached : env.Reaches settings file pool s)
    (marked : s.Marked)
    (last_or : ∀ older, s.stage.journal <:+ older → last older →
      (∃ event ∈ older, event.isCrash) ∨ s.spooler.writer.poisoned = true)
    (told : AtEveryMoment (LastReply last s.submitted) s.stage.journal) (more : List Act) :
    AtEveryMoment (LastReply last (env.run more s).submitted) (env.run more s).stage.journal := by
  induction more generalizing s with
  | nil => exact told
  | cons act more ih =>
    have suffix : s.stage.journal <:+ (env.next act s).stage.journal := env.suffix_run [act] s
    refine ih (.act act reached) (marked_run reached marked [act]) ?_ ?_
    · intro older later now
      exact (last_or older (suffix.trans later) now).imp_right (poisoned_next act)
    · cases act with
      | submit request => exact told_hand request marked told
      | forget ticket => exact told
      | step => exact told_work reached.orderly marked last_or told

/-- Whatever follows, replies for which nothing else was left are last replies. -/
theorem told_of_follows {s t : Session σ π} (reached : env.Reaches settings file pool s)
    (marked : s.Marked)
    (last_or : ∀ older, s.stage.journal <:+ older → last older →
      (∃ event ∈ older, event.isCrash) ∨ s.spooler.writer.poisoned = true)
    (told : AtEveryMoment (LastReply last s.submitted) s.stage.journal)
    (follows : env.Follows s t) :
    AtEveryMoment (LastReply last t.submitted) t.stage.journal := by
  apply follows.rule
  · exact told_run reached marked last_or told
  · exact fun u notice told => atEveryMoment_cons.mpr ⟨trivial, told⟩
  · exact fun u told => told

theorem mem_answers_of_moment {stage : Stage σ π} {ticket : Nat} {reply : Reply}
    {older : List (Event σ)} (moment : .replied ticket reply :: older <:+ stage.journal) :
    reply ∈ stage.answers ticket := by
  obtain ⟨new, journal⟩ := moment
  rw [Stage.answers, ← journal, answersIn_append]
  simp [answersIn]

/-- Each request has one answer once it does not wait any more, if at most one thing crashes. -/
theorem answers_of_follows {s t : Session σ π} (balanced : s.Balanced)
    (follows : env.Follows s t) {ticket : Nat} :
    t.stage.crashes ≤ 1 → ticket < t.submitted.length → waiting ticket t.spooler.queue = 0 →
      ∃ reply, t.stage.answers ticket = [reply] := by
  apply follows.rule
  · intro more once inside taken
    have ran := env.balanced_run more balanced
    have all := ran.answers ticket
    rw [ran.crashed_eq_nil once, taken, if_pos inside] at all
    exact List.length_eq_one_iff.mp (by simpa using all)
  · exact fun u notice answered => answered
  · exact fun u answered => answered

theorem told_fresh {spooler : Spooler} {stage : Stage σ π}
    (started : env.start settings (.start file pool) = (.done spooler, stage)) :
    AtEveryMoment (LastReply last (Session.fresh spooler stage).submitted)
      (Session.fresh spooler stage).stage.journal := by
  obtain ⟨cursor, -, rfl, rfl⟩ := spooler_start started
  refine atEveryMoment_cons.mpr ⟨trivial, fun moment suffix => ?_⟩
  rw [List.suffix_nil.mp suffix]
  trivial

/-- Replies that have been given by now are not given after it. -/
theorem told_before (s : Session σ π) :
    AtEveryMoment (LastReply (s.stage.journal <:+ ·) s.submitted) s.stage.journal := by
  intro moment suffix
  unfold LastReply
  split
  · intro after
    have longer := (suffix.trans after).length_le
    rw [List.length_cons] at longer
    omega
  · trivial

/-- A request that is not answered yet is answered later, if it does not wait any more. -/
theorem moment_of_follows {s t : Session σ π} (balanced : s.Balanced) (follows : env.Follows s t)
    (once : t.stage.crashes ≤ 1) {ticket : Nat} (inside : ticket < t.submitted.length)
    (unanswered : s.stage.answers ticket = []) (taken : waiting ticket t.spooler.queue = 0) :
    ∃ reply older, t.stage.answers ticket = [reply] ∧ s.stage.journal <:+ older ∧
      .replied ticket reply :: older <:+ t.stage.journal := by
  obtain ⟨reply, answers⟩ := answers_of_follows balanced follows once inside taken
  obtain ⟨older, moment⟩ : ∃ older, .replied ticket reply :: older <:+ t.stage.journal :=
    moment_of_reply (by rw [reply?_eq_head?, answers]; rfl)
  have never : ¬ .replied ticket reply :: older <:+ s.stage.journal := by
    intro before
    have given := mem_answers_of_moment before
    rw [unanswered] at given
    cases given
  refine ⟨reply, older, answers, ?_, moment⟩
  rcases List.suffix_or_suffix_of_suffix follows.suffix moment with before | after
  · rcases List.suffix_cons_iff.mp before with same | before
    · exact absurd (same ▸ List.suffix_refl _) never
    · exact before
  · exact absurd after never

/-- Whatever is answered after the writer is poisoned or dead is answered as the last reply left. -/
theorem told_of_final {s t : Session σ π} (reached : env.Reaches settings file pool s)
    (marked : s.Marked) (final : s.Final) (follows : env.Follows s t) :
    AtEveryMoment (LastReply (s.stage.journal <:+ ·) t.submitted) t.stage.journal := by
  refine told_of_follows reached marked (fun older suffix _ => ?_) (told_before s) follows
  rcases final with poisoned | dead
  · exact .inr poisoned
  · obtain ⟨event, member, is⟩ := marked.dead.mp dead
    exact .inl ⟨event, suffix.subset member, is⟩

theorem exists_poisons_iff (stage : Stage σ π) :
    (∃ event ∈ stage.journal, event.poisons) ↔
      ∃ length failure, Call.truncate length (.failed failure) ∈ stage.calls := by
  simp only [Stage.calls, Stage.events, List.mem_filterMap, List.mem_reverse]
  constructor
  · rintro ⟨event, member, poisons⟩
    unfold Event.poisons Call.failsToCut at poisons
    split at poisons
    · split at poisons
      · rename_i length failure
        exact ⟨length, failure, _, member, rfl⟩
      · cases poisons
    · cases poisons
  · rintro ⟨length, failure, event, member, called⟩
    refine ⟨event, member, ?_⟩
    split at called
    · cases called
      rfl
    · cases called

theorem crashes_pos_iff (stage : Stage σ π) :
    0 < stage.crashes ↔ ∃ event ∈ stage.journal, event.isCrash := List.countP_pos_iff

theorem close_eq_closed_iff {s : Session σ π} (reached : env.Reaches settings file pool s)
    (marked : s.Marked) :
    (env.close s.spooler s.stage).1 = .error .closed ↔
      0 < (env.close s.spooler s.stage).2.crashes := by
  have settled : (env.workOff s.spooler.queue.length s).Marked := by
    rw [env.workOff_eq_run]
    exact marked_run reached marked _
  obtain ⟨spooler, stage⟩ := env.workOff_eq_steps s.spooler.queue.length s
  have dead : (env.settle s.spooler s.stage).1.alive = false ↔
      0 < (env.settle s.spooler s.stage).2.crashes := by
    rw [settle, ← spooler, ← stage, crashes_pos_iff]
    exact settled.dead
  simp only [close]
  by_cases alive : (env.settle s.spooler s.stage).1.alive = true
  · have calm : ¬ 0 < (env.settle s.spooler s.stage).2.crashes := by
      rw [← dead, alive]
      simp
    rw [if_pos alive]
    exact iff_of_false (by simp) calm
  · rw [if_neg alive]
    exact iff_of_true rfl (dead.mp (by simpa using alive))

/-- In a run in which at most one thing crashes: the writer is poisoned exactly if a cut has failed,
and dead exactly if something has crashed, and then closing the spooler tells so; whatever is answered
after a crash is answered as closed, if it is not empty. And once the writer is poisoned or dead, the
file is not called any more, and neither it nor the cursor or the count of written bytes change;
everything that was submitted goes back once all the same; and every request that is not answered by
then gets one answer, the last reply that is left. -/
theorem poisoned_and_dead_are_final {spooler : Spooler} {opened : Stage σ π}
    (started : env.start settings (.start file pool) = (.done spooler, opened)) (acts : List Act)
    {t : Session σ π} (follows : env.Follows (env.run acts (.fresh spooler opened)) t)
    (once : t.stage.crashes ≤ 1) :
    let s := env.run acts (.fresh spooler opened)
    (s.spooler.writer.poisoned = true ↔
      ∃ length failure, Call.truncate length (.failed failure) ∈ s.stage.calls) ∧
    (s.spooler.alive = false ↔ 0 < s.stage.crashes) ∧
    ((env.close s.spooler s.stage).1 = .error .closed ↔
      0 < (env.close s.spooler s.stage).2.crashes) ∧
    (∀ ticket reply older, .replied ticket reply :: older <:+ t.stage.journal →
      (∃ event ∈ older, event.isCrash) →
        ∃ request, t.submitted[ticket]? = some request ∧
          reply = if request.items = [] then .ok [] else .error .closed) ∧
    (s.Final →
      t.stage.calls = s.stage.calls ∧ t.stage.file = s.stage.file ∧
      t.spooler.cursor = s.spooler.cursor ∧ t.spooler.written = s.spooler.written ∧
      t.stage.releases.map (fun release => (release.1, release.2.1)) ++
          orderHandovers t.spooler.queue = t.submitted.flatMap Request.handovers ∧
      ∀ ticket request, t.submitted[ticket]? = some request → s.stage.answers ticket = [] →
        waiting ticket t.spooler.queue = 0 →
          ∃ older, .replied ticket (request.lastReply older) :: older <:+ t.stage.journal ∧
            t.stage.answers ticket = [request.lastReply older]) := by
  intro s
  have opens : env.Reaches settings file pool (.fresh spooler opened) := .start started
  have reached : env.Reaches settings file pool s := opens.run acts
  have marked : s.Marked := marked_run opens (marked_fresh started) acts
  have balanced : s.Balanced := env.balanced_run acts (env.balanced_fresh started)
  refine ⟨marked.poisoned.trans (exists_poisons_iff s.stage),
    marked.dead.trans (crashes_pos_iff s.stage).symm, close_eq_closed_iff reached marked, ?_, ?_⟩
  · intro ticket reply older moment crash
    have told : AtEveryMoment (LastReply (fun older => ∃ event ∈ older, event.isCrash) s.submitted)
        s.stage.journal :=
      told_run opens (marked_fresh started) (fun older _ crash => .inl crash) (told_fresh started) acts
    obtain ⟨request, found, same⟩ :=
      told_of_follows reached marked (fun older _ crash => .inl crash) told follows _ moment crash
    refine ⟨request, found, same.trans ?_⟩
    by_cases empty : request.items = []
    · rw [if_pos empty, Request.lastReply, if_pos (by simpa using empty)]
    · rw [if_neg empty, lastReply_of_crash empty crash]
  · intro final
    have stands := stands_of_follows reached final follows
    refine ⟨stands.untouched.calls, stands.untouched.file, ?_, ?_, ?_, ?_⟩
    · rw [Spooler.cursor, stands.writer, Spooler.cursor]
    · rw [Spooler.written, stands.writer, Spooler.written]
    · rw [map_releases]
      exact (follows.reaches reached).returned.all
    · intro ticket request found unanswered taken
      obtain ⟨reply, older, answers, later, moment⟩ := moment_of_follows balanced follows once
        (List.getElem?_eq_some_iff.mp found).1 unanswered taken
      obtain ⟨request', found', same⟩ :=
        told_of_final reached marked final follows _ moment later
      rw [found] at found'
      cases found'
      exact ⟨older, same ▸ moment, same ▸ answers⟩

/-- A full file that cannot be cut. -/
def jammed : Planned Memory :=
  ⟨⟨.empty, false⟩, { Plan.none with
    script := [.fail .storageFull]
    truncateCause := some .permissionDenied }⟩

/-- Three bytes do not go into a jammed file, and the writer is poisoned. -/
theorem process_jammed :
    let stage := (rehearsal.start .standard (.start jammed ⟨0, some 2⟩)).2
    ∃ file journal, rehearsal.process ⟨[threeBytes]⟩ (.start .standard 0) stage =
        ⟨some (.error (.io .storageFull)), { Writer.start .standard 0 with poisoned := true },
          ⟨file, ⟨1, some 2⟩, journal⟩⟩ ∧
      journal.countP Event.isCrash = 0 ∧ ∀ ticket, answersIn ticket journal = [] := by
  intro stage
  have spilt : ∃ inner journal, rehearsal.spill ⟨[threeBytes]⟩ (.start .standard 0) stage =
        ⟨.failed (.io .storageFull), .start .standard 0,
          ⟨⟨inner, { Plan.none with truncateCause := some .permissionDenied }⟩, ⟨1, some 2⟩,
            journal⟩⟩ ∧
      journal.countP Event.isCrash = 0 ∧ ∀ ticket, answersIn ticket journal = [] := by
    show ∃ inner journal, rehearsal.writeBatches (batches 512 [threeBytes.buffer]) _
      (stage.note (.spilling 1 11 0)) = _ ∧ _
    rw [batches_of_le (by simp) (by decide), writeBatches, writeBatch]
    simp only [encode_threeBytes]
    rw [Store.transfer, Store.transferFrom_failed (by decide) (by decide) (by decide) rfl]
    exact ⟨_, _, rfl, rfl, fun ticket => rfl⟩
  obtain ⟨inner, journal, spilt, calm, unanswered⟩ := spilt
  show ∃ file journal, rehearsal.carryOut ⟨[threeBytes]⟩ [⟨7, 0, 0⟩] (.start .standard 0) stage = _ ∧ _
  rw [carryOut_of_failed (by rw [spilt]), spilt]
  exact ⟨_, _, rfl, calm, unanswered⟩

/-- A request jams the file. Of three that come after it, one is answered as poisoned; a pool crashes
over the next, which is closed; and the last one is empty. Nothing more is tried on the file. -/
theorem jammed_then_dead :
    let opened := (rehearsal.start .standard (.start jammed ⟨0, some 2⟩)).2
    let s := rehearsal.run [.submit ⟨[threeBytes]⟩, .step] (.fresh ⟨.start .standard 0, true, []⟩ opened)
    let t := rehearsal.finish .close
      (rehearsal.run [.submit ⟨[threeBytes]⟩, .submit ⟨[threeBytes]⟩, .submit ⟨[]⟩] s)
    s.spooler.writer.poisoned = true ∧ t.stage.crashes = 1 ∧ t.stage.calls = s.stage.calls ∧
      t.stage.answers 1 = [.error .poisoned] ∧ t.stage.answers 2 = [.error .closed] ∧
      t.stage.answers 3 = [.ok []] := by
  intro opened s t
  obtain ⟨file, journal, processed, calm, unanswered⟩ := process_jammed
  have worked : s = _ := rehearsal.work_of_reply (s := rehearsal.hand ⟨[threeBytes]⟩
    (.fresh ⟨.start .standard 0, true, []⟩ opened)) rfl processed
  have followed : t = rehearsal.finish .close
    (rehearsal.run [.submit ⟨[threeBytes]⟩, .submit ⟨[threeBytes]⟩, .submit ⟨[]⟩] _) :=
      congrArg (fun s => rehearsal.finish .close (rehearsal.run _ s)) worked
  have poisoned : s.spooler.writer.poisoned = true := by
    rw [worked]
  have once : t.stage.crashes = 1 := by
    obtain ⟨new, same, one⟩ : ∃ new, t.stage.journal = new ++ journal ∧
        new.countP Event.isCrash = 1 :=
      ⟨[_, _, _, _, _, _, _], by rw [followed]; rfl, rfl⟩
    rw [Stage.crashes, same, List.countP_append, one, calm]
  have started : rehearsal.start .standard (.start jammed ⟨0, some 2⟩) =
      (.done ⟨.start .standard 0, true, []⟩, opened) := rfl
  obtain ⟨-, -, -, -, stands⟩ := poisoned_and_dead_are_final started
    [.submit ⟨[threeBytes]⟩, .step] ⟨_, .inr ⟨.close, rfl⟩⟩ (Nat.le_of_eq once)
  refine ⟨poisoned, once, (stands (.inl poisoned)).1, ?_, ?_, ?_⟩
  · have answers : t.stage.answers 1 = .error .poisoned :: answersIn 1 journal := by
      rw [followed]
      rfl
    rw [answers, unanswered]
  · have answers : t.stage.answers 2 = .error .closed :: answersIn 2 journal := by
      rw [followed]
      rfl
    rw [answers, unanswered]
  · have answers : t.stage.answers 3 = .ok [] :: answersIn 3 journal := by
      rw [followed]
      rfl
    rw [answers, unanswered]

end Surroundings
end Spillway
