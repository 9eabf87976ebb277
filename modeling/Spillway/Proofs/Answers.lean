import Spillway.Proofs.Session
/-!
Every request is answered once. A request that has been submitted has its answer, or waits for it
in the queue, or its submission crashed the caller: exactly one of these, at any time. And a
submission crashes only if the writer is dead and a pool crashes in addition, so there is no such
submission as long as at most one thing crashes. What is true of every answer with entries when it is
given can be shown for all of them at once, by `Reaches.answered_rule`.
-/

namespace Spillway

variable {σ π : Type}

/-- The answers to the request with a ticket according to a journal, the newest first. -/
def answersIn (ticket : Nat) : List (Event σ) → List Reply
  | [] => []
  | .replied t reply :: older =>
    if t = ticket then reply :: answersIn ticket older else answersIn ticket older
  | _ :: older => answersIn ticket older

def Stage.answers (stage : Stage σ π) (ticket : Nat) : List Reply := answersIn ticket stage.journal

/-- If the last thing that happened is an answer with entries, this is true of it. -/
def OnAnswer (P : Nat → List Entry → List (Event σ) → Prop) : List (Event σ) → Prop
  | .replied ticket (.ok entries) :: older => P ticket entries older
  | _ => True

/-- How many orders have a ticket. -/
def waiting (ticket : Nat) (orders : List Order) : Nat :=
  orders.countP fun order => order.ticket == ticket

/-- Each request is answered, or waits, or crashed its caller; callers crash over a dead writer only,
and that takes one more crash than the writer died of. -/
structure Session.Balanced (s : Session σ π) : Prop where
  answers : ∀ ticket, (s.stage.answers ticket).length + waiting ticket s.spooler.queue +
    s.crashed.count ticket = if ticket < s.submitted.length then 1 else 0
  alive_crashed : s.spooler.alive = true → s.crashed = []
  crashes : s.crashed.length + (!s.spooler.alive).toNat ≤ s.stage.crashes

/-- What has been submitted and does not wait has been answered, as it follows from what was submitted
before. -/
def Session.AnsweredBy (s : Session σ π) (R : List Request → Request → Reply → Prop) : Prop :=
  ∀ ticket request, s.submitted[ticket]? = some request →
    (∀ order ∈ s.spooler.queue, order.ticket ≠ ticket) →
      ∃ reply ∈ s.stage.answers ticket, R (s.submitted.take ticket) request reply

theorem answersIn_append (ticket : Nat) (new old : List (Event σ)) :
    answersIn ticket (new ++ old) = answersIn ticket new ++ answersIn ticket old := by
  induction new with
  | nil => rfl
  | cons event new ih =>
    cases event with
    | replied t reply =>
      simp only [List.cons_append, answersIn, ih]
      split <;> rfl
    | called _ | released _ _ _ | counted _ _ | noted _ | crashed => exact ih

@[simp] theorem answers_reply (stage : Stage σ π) (ticket t : Nat) (reply : Reply) :
    (stage.reply t reply).answers ticket =
      if t = ticket then reply :: stage.answers ticket else stage.answers ticket := rfl

@[simp] theorem crashes_reply (stage : Stage σ π) (ticket : Nat) (reply : Reply) :
    (stage.reply ticket reply).crashes = stage.crashes := rfl

@[simp] theorem waiting_nil (ticket : Nat) : waiting ticket [] = 0 := rfl

@[simp] theorem waiting_cons (ticket : Nat) (order : Order) (later : List Order) :
    waiting ticket (order :: later) =
      waiting ticket later + if order.ticket = ticket then 1 else 0 := by
  simp [waiting, List.countP_cons]

@[simp] theorem waiting_append (ticket : Nat) (orders later : List Order) :
    waiting ticket (orders ++ later) = waiting ticket orders + waiting ticket later := by
  simp [waiting]

namespace Surroundings.Effect

variable {env : Surroundings σ π} {low : Nat} {released : List Buffer} {crashed : Prop}
  {before after : Stage σ π}

theorem suffix (effect : env.Effect low released crashed before after) :
    before.journal <:+ after.journal := by
  obtain ⟨new, journal, -⟩ := effect
  exact ⟨new, journal.symm⟩

theorem answers_eq (effect : env.Effect low released crashed before after) (ticket : Nat) :
    after.answers ticket = before.answers ticket := by
  obtain ⟨new, journal, -, -, work, -⟩ := effect
  have none : answersIn ticket new = [] := by
    clear journal
    induction new with
    | nil => rfl
    | cons event new ih =>
      have rest := ih fun event member => work event (List.mem_cons_of_mem _ member)
      have first := work event List.mem_cons_self
      cases event with
      | replied t reply => exact first.elim
      | called _ | released _ _ _ | counted _ _ | noted _ | crashed => exact rest
  rw [Stage.answers, journal, answersIn_append, none]
  rfl

theorem crashes_lt (effect : env.Effect low released crashed before after) (crash : crashed) :
    before.crashes < after.crashes := by
  obtain ⟨new, journal, -, -, -, -, crashes⟩ := effect
  have one := List.countP_pos_iff.mpr (crashes crash)
  rw [Stage.crashes, Stage.crashes, journal, List.countP_append]
  omega

end Surroundings.Effect

theorem crashes_le_of_suffix {before after : Stage σ π} (suffix : before.journal <:+ after.journal) :
    before.crashes ≤ after.crashes := suffix.sublist.countP_le

theorem suffix_reply (stage : Stage σ π) (ticket : Nat) (reply : Reply) :
    stage.journal <:+ (stage.reply ticket reply).journal := List.suffix_cons _ _

namespace Surroundings

variable (env : Surroundings σ π)

theorem suffix_abandon (orders : List Order) (stage : Stage σ π) :
    stage.journal <:+ (env.abandon orders stage).journal := by
  induction orders generalizing stage with
  | nil => exact List.suffix_refl _
  | cons order later ih =>
    have dropped := (env.effect_releaseAll 0 order.request.buffers stage).suffix
    exact (dropped.trans (suffix_reply _ order.ticket _)).trans (ih _)

theorem suffix_step (spooler : Spooler) (stage : Stage σ π) :
    stage.journal <:+ (env.step spooler stage).2.journal := by
  simp only [step]
  split
  · exact List.suffix_refl _
  · rename_i order later queued
    have processed := (env.effect_process order.request spooler.writer stage).suffix
    split
    · exact processed.trans (suffix_reply _ _ _)
    · exact (processed.trans (suffix_reply _ order.ticket _)).trans (env.suffix_abandon later _)

theorem suffix_hand (request : Request) (s : Session σ π) :
    s.stage.journal <:+ (env.hand request s).stage.journal := by
  have dropped := (env.effect_releaseAll 0 request.buffers s.stage).suffix
  simp only [hand, submit]
  split
  · exact List.suffix_cons _ _
  · split
    · exact List.suffix_refl _
    · split
      · exact dropped
      · exact dropped.trans (List.suffix_cons _ _)

theorem suffix_run (acts : List Act) (s : Session σ π) :
    s.stage.journal <:+ (env.run acts s).stage.journal := by
  induction acts generalizing s with
  | nil => exact List.suffix_refl _
  | cons act acts ih =>
    have first : s.stage.journal <:+ (env.next act s).stage.journal := by
      cases act with
      | submit request => exact env.suffix_hand request s
      | forget ticket => exact List.suffix_refl _
      | step => exact env.suffix_step s.spooler s.stage
    exact first.trans (ih _)

theorem suffix_finish (ending : Ending) (s : Session σ π) :
    s.stage.journal <:+ (env.finish ending s).stage.journal := by
  have settled : s.stage.journal <:+ (env.workOff s.spooler.queue.length s).stage.journal := by
    rw [env.workOff_eq_run]
    exact env.suffix_run _ s
  obtain same | ⟨notice, -, same⟩ := env.finish_eq ending s
  · rw [same]
    exact settled
  · rw [same]
    exact settled.trans (List.suffix_cons _ _)

/-- Waiting requests that are let go get one answer each. -/
theorem length_answers_abandon (ticket : Nat) (orders : List Order) (stage : Stage σ π) :
    ((env.abandon orders stage).answers ticket).length =
      (stage.answers ticket).length + waiting ticket orders := by
  induction orders generalizing stage with
  | nil => rfl
  | cons order later ih =>
    have dropped := (env.effect_releaseAll 0 order.request.buffers stage).answers_eq ticket
    rw [abandon, ih, answers_reply, dropped, waiting_cons]
    split
    · rw [List.length_cons]
      omega
    · omega

/-- A step of the writer leaves as many answers together with those to come. -/
theorem length_answers_step (ticket : Nat) (spooler : Spooler) (stage : Stage σ π) :
    ((env.step spooler stage).2.answers ticket).length +
        waiting ticket (env.step spooler stage).1.queue =
      (stage.answers ticket).length + waiting ticket spooler.queue := by
  simp only [step]
  split
  · rfl
  · rename_i order later queued
    have processed := (env.effect_process order.request spooler.writer stage).answers_eq ticket
    rw [queued, waiting_cons]
    split
    · simp only [answers_reply, processed]
      split
      · rw [List.length_cons]
        omega
      · omega
    · simp only [length_answers_abandon, answers_reply, processed, waiting_nil]
      split
      · rw [List.length_cons]
        omega
      · omega

theorem length_answers_settle (ticket : Nat) (spooler : Spooler) (stage : Stage σ π) :
    ((env.settle spooler stage).2.answers ticket).length =
      (stage.answers ticket).length + waiting ticket spooler.queue := by
  have steps : ∀ n (spooler : Spooler) (stage : Stage σ π),
      ((env.steps n spooler stage).2.answers ticket).length +
          waiting ticket (env.steps n spooler stage).1.queue =
        (stage.answers ticket).length + waiting ticket spooler.queue := by
    intro n
    induction n with
    | zero => exact fun spooler stage => rfl
    | succ n ih =>
      intro spooler stage
      exact (ih _ _).trans (env.length_answers_step ticket spooler stage)
  have all := steps spooler.queue.length spooler stage
  rw [← settle, queue_settle] at all
  exact all

theorem alive_of_alive_step {spooler : Spooler} {stage : Stage σ π}
    (alive : (env.step spooler stage).1.alive = true) : spooler.alive = true := by
  simp only [step] at alive
  split at alive
  · exact alive
  · split at alive
    · exact alive
    · simp at alive

theorem crashes_step (spooler : Spooler) (stage : Stage σ π) :
    stage.crashes + (!(env.step spooler stage).1.alive).toNat ≤
      (env.step spooler stage).2.crashes + (!spooler.alive).toNat := by
  cases queued : spooler.queue with
  | nil =>
    exact Nat.le_of_eq (by rw [env.step_nil queued])
  | cons order later =>
    have processed := env.effect_process order.request spooler.writer stage
    cases answered : (env.process order.request spooler.writer stage).reply? with
    | some reply =>
      have kept := crashes_le_of_suffix processed.suffix
      simp only [step, queued, answered, crashes_reply]
      omega
    | none =>
      have more := processed.crashes_lt answered
      have rest := crashes_le_of_suffix (env.suffix_abandon later
        ((env.process order.request spooler.writer stage).stage.reply order.ticket
          (.error .closed)))
      rw [crashes_reply] at rest
      simp only [step, queued, answered, Bool.not_false, Bool.toNat_true]
      omega

theorem crashes_settle (spooler : Spooler) (stage : Stage σ π) :
    stage.crashes + (!(env.settle spooler stage).1.alive).toNat ≤
      (env.settle spooler stage).2.crashes + (!spooler.alive).toNat := by
  have steps : ∀ n (spooler : Spooler) (stage : Stage σ π),
      stage.crashes + (!(env.steps n spooler stage).1.alive).toNat ≤
        (env.steps n spooler stage).2.crashes + (!spooler.alive).toNat := by
    intro n
    induction n with
    | zero => exact fun spooler stage => Nat.le_refl _
    | succ n ih =>
      intro spooler stage
      have first := env.crashes_step spooler stage
      have rest := ih (env.step spooler stage).1 (env.step spooler stage).2
      simp only [Surroundings.steps]
      omega
  exact steps _ spooler stage

variable {env}

theorem balanced_hand (request : Request) {s : Session σ π} (balanced : s.Balanced) :
    (env.hand request s).Balanced := by
  obtain ⟨answers, alive_crashed, crashes⟩ := balanced
  -- One more ticket is accounted for, in whichever way it is.
  have more : ∀ ticket, (if ticket < (s.submitted ++ [request]).length then 1 else 0) =
      (if ticket < s.submitted.length then 1 else 0) +
        if s.submitted.length = ticket then 1 else 0 := by
    intro ticket
    simp only [List.length_append, List.length_singleton]
    split <;> split <;> split <;> omega
  cases empty : request.items.isEmpty with
  | true =>
    simp only [hand, submit, empty, if_true]
    refine ⟨fun ticket => ?_, alive_crashed, crashes⟩
    have before := answers ticket
    rw [more, ← before]
    simp only [answers_reply, Bool.false_eq_true, if_false]
    split
    · rw [List.length_cons]
      omega
    · omega
  | false =>
    cases alive : s.spooler.alive with
    | true =>
      simp only [hand, submit, empty, alive, if_true, Bool.false_eq_true, if_false]
      refine ⟨fun ticket => ?_, fun _ => alive_crashed alive, by simpa [alive] using crashes⟩
      have before := answers ticket
      rw [more, ← before]
      simp only [waiting_append, waiting_cons, waiting_nil]
      omega
    | false =>
      have dropped := env.effect_releaseAll 0 request.buffers s.stage
      simp only [alive, Bool.not_false, Bool.toNat_true] at crashes
      simp only [hand, submit, empty, alive, Bool.false_eq_true, if_false]
      cases crash : (env.releaseAll request.buffers s.stage).1 with
      | true =>
        simp only [if_true]
        refine ⟨fun ticket => ?_, fun lives => by simp [alive] at lives, ?_⟩
        · have before := answers ticket
          rw [more, ← before, dropped.answers_eq ticket]
          simp only [List.count_append, List.count_singleton, beq_iff_eq]
          omega
        · have one := dropped.crashes_lt crash
          simp only [List.length_append, List.length_singleton, alive, Bool.not_false, Bool.toNat_true]
          omega
      | false =>
        simp only [Bool.false_eq_true, if_false]
        refine ⟨fun ticket => ?_, fun lives => by simp [alive] at lives, ?_⟩
        · have before := answers ticket
          rw [more, ← before]
          simp only [answers_reply, dropped.answers_eq ticket]
          split
          · rw [List.length_cons]
            omega
          · omega
        · have none := crashes_le_of_suffix dropped.suffix
          simp only [crashes_reply, alive, Bool.not_false, Bool.toNat_true]
          omega

theorem balanced_work {s : Session σ π} (balanced : s.Balanced) : (env.work s).Balanced := by
  obtain ⟨answers, alive_crashed, crashes⟩ := balanced
  refine ⟨fun ticket => ?_, fun alive => alive_crashed (env.alive_of_alive_step alive), ?_⟩
  · have step := env.length_answers_step ticket s.spooler s.stage
    simp only [work]
    rw [step]
    exact answers ticket
  · have step := env.crashes_step s.spooler s.stage
    simp only [work]
    omega

theorem balanced_fresh {settings : Settings} {file : σ} {pool : π} {spooler : Spooler}
    {stage : Stage σ π} (started : env.start settings (.start file pool) = (.done spooler, stage)) :
    (Session.fresh spooler stage).Balanced := by
  obtain ⟨cursor, -, rfl, rfl⟩ := spooler_start started
  exact ⟨fun ticket => rfl, fun _ => rfl, Nat.le_refl _⟩

theorem balanced_run (acts : List Act) {s : Session σ π} (balanced : s.Balanced) :
    (env.run acts s).Balanced := by
  induction acts generalizing s with
  | nil => exact balanced
  | cons act acts ih =>
    apply ih
    cases act with
    | submit request => exact balanced_hand request balanced
    | forget ticket => exact balanced
    | step => exact balanced_work balanced

variable {R : List Request → Request → Reply → Prop}

/-- A request that is submitted to a writer that is alive waits, or is empty and answered. -/
theorem answeredBy_hand {s : Session σ π} (request : Request) (alive : s.spooler.alive = true)
    (empty : request.items = [] → R s.submitted request (.ok [])) (answered : s.AnsweredBy R) :
    (env.hand request s).AnsweredBy R := by
  -- What was submitted before is answered as before.
  have before : ∀ {ticket taken}, (s.submitted ++ [request])[ticket]? = some taken →
      ticket < s.submitted.length ∧ s.submitted[ticket]? = some taken ∧
          (s.submitted ++ [request]).take ticket = s.submitted.take ticket ∨
        ticket = s.submitted.length ∧ taken = request := by
    intro ticket taken found
    by_cases inside : ticket < s.submitted.length
    · rw [List.getElem?_append_left inside] at found
      exact .inl ⟨inside, found, List.take_append_of_le_length (Nat.le_of_lt inside)⟩
    · rw [List.getElem?_append_right (Nat.not_lt.mp inside), List.getElem?_singleton] at found
      split at found
      · cases found
        exact .inr ⟨by omega, rfl⟩
      · cases found
  cases none : request.items.isEmpty with
  | true =>
    simp only [hand, submit, none, if_true]
    intro ticket taken found away
    rcases before found with ⟨inside, found, front⟩ | ⟨rfl, rfl⟩
    · obtain ⟨reply, given, meets⟩ := answered ticket taken found away
      rw [front, answers_reply, if_neg (by omega)]
      exact ⟨reply, given, meets⟩
    · rw [answers_reply, if_pos rfl, List.take_left]
      exact ⟨.ok [], List.mem_cons_self, empty (List.isEmpty_iff.mp none)⟩
  | false =>
    simp only [hand, submit, none, alive, if_true, Bool.false_eq_true, if_false]
    intro ticket taken found away
    rcases before found with ⟨inside, found, front⟩ | ⟨rfl, -⟩
    · rw [front]
      exact answered ticket taken found fun order queued => away order (by simp [queued])
    · exact absurd rfl (away ⟨s.submitted.length, request⟩ (by simp))

/-- A step in which the oldest request is answered. -/
theorem answeredBy_work {s : Session σ π} (orderly : s.Orderly) {order : Order} {later : List Order}
    (queued : s.spooler.queue = order :: later) {reply : Reply} {writer : Writer}
    {after : Stage σ π}
    (processed : env.process order.request s.spooler.writer s.stage = ⟨some reply, writer, after⟩)
    (meets : R (s.submitted.take order.ticket) order.request reply) (answered : s.AnsweredBy R) :
    (env.work s).AnsweredBy R := by
  have silent := env.effect_process order.request s.spooler.writer s.stage
  rw [processed] at silent
  rw [env.work_of_reply queued processed]
  intro ticket request found away
  by_cases now : order.ticket = ticket
  · subst now
    have own := (orderly.submitted_of_queue (show order ∈ s.spooler.queue by simp [queued])).1
    obtain rfl : order.request = request := by simpa [own] using found
    rw [answers_reply, if_pos rfl]
    exact ⟨reply, List.mem_cons_self, meets⟩
  · obtain ⟨other, given, held⟩ := answered ticket request found (by
      rw [queued]
      exact List.forall_mem_cons.mpr ⟨now, away⟩)
    refine ⟨other, ?_, held⟩
    rwa [answers_reply, if_neg now, silent.answers_eq ticket]

end Surroundings

theorem onAnswer_of_isWork {P : Nat → List Entry → List (Event σ) → Prop} {low : Nat}
    {event : Event σ} (work : event.IsWork low) (older : List (Event σ)) :
    OnAnswer P (event :: older) := by
  cases event with
  | replied ticket reply => exact work.elim
  | called _ | released _ _ _ | counted _ _ | noted _ | crashed => trivial

namespace Surroundings

variable {env : Surroundings σ π} {settings : Settings} {file : σ} {pool : π}

theorem Effect.onAnswer {P : Nat → List Entry → List (Event σ) → Prop} {low : Nat}
    {released : List Buffer} {crashed : Prop} {before after : Stage σ π}
    (effect : env.Effect low released crashed before after)
    (always : AtEveryMoment (OnAnswer P) before.journal) :
    AtEveryMoment (OnAnswer P) after.journal := by
  obtain ⟨new, journal, -, -, work, -, -⟩ := effect
  rw [journal]
  exact always.append work fun event older _ isWork _ => onAnswer_of_isWork isWork older

theorem onAnswer_abandon {P : Nat → List Entry → List (Event σ) → Prop} (orders : List Order)
    {stage : Stage σ π} (always : AtEveryMoment (OnAnswer P) stage.journal) :
    AtEveryMoment (OnAnswer P) (env.abandon orders stage).journal := by
  induction orders generalizing stage with
  | nil => exact always
  | cons order later ih =>
    have dropped := (env.effect_releaseAll 0 order.request.buffers stage).onAnswer always
    exact ih (atEveryMoment_cons.mpr ⟨trivial, dropped⟩)

/-- What stays true of an answer when more requests are submitted, and is true of the answer to an
empty request and of each answer that the writer gives to the oldest request in its queue, is true in
every session of every answer with entries. -/
theorem Reaches.answered_rule {P : List Request → Nat → List Entry → List (Event σ) → Prop}
    {s : Session σ π} (reached : env.Reaches settings file pool s)
    (more : ∀ submitted request ticket entries older, P submitted ticket entries older →
      P (submitted ++ [request]) ticket entries older)
    (empty : ∀ (s : Session σ π) request, env.Reaches settings file pool s → request.items = [] →
      P (s.submitted ++ [request]) s.submitted.length [] s.stage.journal)
    (work : ∀ (s : Session σ π) order later entries, env.Reaches settings file pool s →
      s.spooler.queue = order :: later →
        (env.process order.request s.spooler.writer s.stage).reply? = some (.ok entries) →
          P s.submitted order.ticket entries
            (env.process order.request s.spooler.writer s.stage).stage.journal) :
    ∀ ticket entries older, .replied ticket (.ok entries) :: older <:+ s.stage.journal →
      P s.submitted ticket entries older := by
  have always : AtEveryMoment (OnAnswer (P s.submitted)) s.stage.journal := by
    apply reached.rule
    · intro spooler stage started
      obtain ⟨cursor, -, -, rfl⟩ := spooler_start started
      refine atEveryMoment_cons.mpr ⟨trivial, fun moment suffix => ?_⟩
      rw [List.suffix_nil.mp suffix]
      trivial
    · intro s request reached always
      have grown : AtEveryMoment (OnAnswer (P (s.submitted ++ [request]))) s.stage.journal := by
        intro moment suffix
        have here := always moment suffix
        unfold OnAnswer at here ⊢
        split
        · exact more _ _ _ _ _ here
        · trivial
      have dropped := (env.effect_releaseAll 0 request.buffers s.stage).onAnswer grown
      simp only [hand, submit]
      split
      · rename_i none
        exact atEveryMoment_cons.mpr
          ⟨empty s request reached (List.isEmpty_iff.mp none), grown⟩
      · split
        · exact grown
        · split
          · exact dropped
          · exact atEveryMoment_cons.mpr ⟨trivial, dropped⟩
    · intro s reached always
      simp only [Surroundings.work, step]
      split
      · exact always
      · rename_i order later queued
        have given := work s order later
        have processed := (env.effect_process order.request s.spooler.writer s.stage).onAnswer always
        split
        · rename_i reply answered
          refine atEveryMoment_cons.mpr ⟨?_, processed⟩
          cases reply with
          | error error => trivial
          | ok entries => exact given entries reached queued answered
        · exact onAnswer_abandon later (atEveryMoment_cons.mpr ⟨trivial, processed⟩)
    · exact fun s notice _ always => atEveryMoment_cons.mpr ⟨trivial, always⟩
    · exact fun s none always => always
  exact fun ticket entries older moment => always _ moment

end Surroundings

theorem moment_of_reply {stage : Stage σ π} {ticket : Nat} {reply : Reply}
    (given : stage.reply? ticket = some reply) :
    ∃ older, .replied ticket reply :: older <:+ stage.journal := by
  unfold Stage.reply? at given
  generalize stage.journal = journal at given
  induction journal with
  | nil => cases given
  | cons event journal ih =>
    rw [List.findSome?_cons] at given
    split at given
    · rename_i found
      cases event with
      | replied t r =>
        simp only [Option.ite_none_right_eq_some, Option.some.injEq] at found
        obtain ⟨rfl, rfl⟩ := found
        cases given
        exact ⟨journal, List.suffix_refl _⟩
      | called _ | released _ _ _ | counted _ _ | noted _ | crashed => cases found
    · obtain ⟨older, moment⟩ := ih given
      exact ⟨older, moment.trans (List.suffix_cons _ _)⟩

theorem reply?_eq_head? (stage : Stage σ π) (ticket : Nat) :
    stage.reply? ticket = (stage.answers ticket).head? := by
  unfold Stage.reply? Stage.answers
  induction stage.journal with
  | nil => rfl
  | cons event older ih =>
    cases event with
    | replied t reply =>
      by_cases same : t = ticket
      · simp [answersIn, same]
      · simp [answersIn, same, ih]
    | called _ | released _ _ _ | counted _ _ | noted _ | crashed => exact ih

/-- An answer is the only one to its request. -/
theorem Session.Balanced.answers_eq {s : Session σ π} (balanced : s.Balanced) {ticket : Nat}
    {reply : Reply} (given : reply ∈ s.stage.answers ticket) :
    s.stage.answers ticket = [reply] := by
  have most := balanced.answers ticket
  have one : (s.stage.answers ticket).length ≤ 1 := by
    split at most
    · omega
    · omega
  obtain ⟨only, all⟩ :=
    List.length_eq_one_iff.mp (Nat.le_antisymm one (List.length_pos_of_mem given))
  rw [all, List.mem_singleton] at given
  rw [all, given]

theorem Session.Balanced.answers_eq_nil {s : Session σ π} (balanced : s.Balanced) {ticket : Nat}
    (pending : s.submitted.length ≤ ticket ∨ ∃ order ∈ s.spooler.queue, order.ticket = ticket) :
    s.stage.answers ticket = [] := by
  have most := balanced.answers ticket
  apply List.length_eq_zero_iff.mp
  rcases pending with outside | ⟨order, queued, own⟩
  · rw [if_neg (by omega)] at most
    omega
  · have waits : 0 < waiting ticket s.spooler.queue :=
      List.countP_pos_iff.mpr ⟨order, queued, by simpa using own⟩
    split at most
    · omega
    · omega

/-- No submission crashes as long as at most one thing does. -/
theorem Session.Balanced.crashed_eq_nil {s : Session σ π} (balanced : s.Balanced)
    (calm : s.stage.crashes ≤ 1) : s.crashed = [] := by
  cases alive : s.spooler.alive with
  | true => exact balanced.alive_crashed alive
  | false =>
    have crashes := balanced.crashes
    rw [alive, Bool.not_false, Bool.toNat_true] at crashes
    exact List.length_eq_zero_iff.mp (by omega)

end Spillway
