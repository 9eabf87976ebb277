import Spillway.Proofs.Finality
import Spillway.Proofs.Fullness
/-!
Closing a spooler and starting another one on its file goes unnoticed. A new spooler knows nothing
but the length of the file, which is where the old one has come to, as long as that one is alive and
not poisoned: it then has the same writer, except that its count of bytes begins anew. The writer
never looks at this count (`Writer.credit`), nor at the reports that a spooler starts or exits
(`course`), so whatever is done with the new spooler comes to the same as with the old one.
-/

namespace Spillway

variable {σ π : Type}

/-- What happens to a spooler, or to the file between two of them. -/
inductive Turn where
  | act (act : Act)
  /-- The spooler is closed, and another one is started on the file it gives back. -/
  | reopen

/-- A spooler in use, with what those before it had written when they were closed. -/
structure Succession (σ π : Type) where
  past : List Nat
  session : Session σ π

/-- The requests that are submitted in the course of some turns. -/
def requestsIn (turns : List Turn) : List Request :=
  turns.filterMap fun
    | .act (.submit request) => some request
    | _ => none

/-- A report that a spooler starts or exits. -/
def Event.isPassage : Event σ → Bool
  | .noted (.starting _ _) | .noted (.exiting _) => true
  | _ => false

/-- The events of a journal, apart from the reports that spoolers start and exit. -/
def course (journal : List (Event σ)) : List (Event σ) := journal.filter fun event => !event.isPassage

namespace Surroundings

variable (env : Surroundings σ π)

/-- Closes the spooler in use, after everything in its queue, and starts another one on the file, with
the same settings. -/
def reopen (settings : Settings) (r : Succession σ π) : Option (Succession σ π) :=
  match env.close r.session.spooler r.session.stage with
  | (.error _, _) => none
  | (.ok (), _) =>
    let closed := env.finish .close r.session
    match env.start settings closed.stage with
    | (.done spooler, stage) =>
      some ⟨r.past ++ [closed.spooler.written], { closed with spooler := spooler, stage := stage }⟩
    | _ => none

/-- Spoolers take turns, as far as each can be closed and followed by another one. -/
def relay (settings : Settings) : List Turn → Succession σ π → Option (Succession σ π)
  | [], r => some r
  | .act act :: later, r => relay settings later { r with session := env.next act r.session }
  | .reopen :: later, r => (env.reopen settings r).bind (relay settings later)

/-- One spooler is in use throughout. Where it would have been closed, its writer carries out
everything in the queue. -/
def serve : List Turn → Session σ π → Session σ π
  | [], s => s
  | .act act :: later, s => serve later (env.next act s)
  | .reopen :: later, s => serve later (env.workOff s.spooler.queue.length s)

end Surroundings

/-- The spooler can be closed: its writer is alive and not poisoned, and the file says how long it
is. -/
structure Session.Rests (s : Session σ π) (env : Surroundings σ π) (bytes : σ → List UInt8) :
    Prop where
  alive : s.spooler.alive = true
  unpoisoned : s.spooler.writer.poisoned = false
  honest : env.length s.stage.file = .done (bytes s.stage.file).length

/-- Spoolers that took turns have come to the same as one that was in use throughout: the same was
submitted, taken and answered, and happened to the file, the pools and the instruments in the same
order; the one in use has come as far; and what they have all written adds up. -/
structure Succession.Matches (r : Succession σ π) (s : Session σ π) : Prop where
  submitted : r.session.submitted = s.submitted
  crashed : r.session.crashed = s.crashed
  errands : r.session.errands = s.errands
  queue : r.session.spooler.queue = s.spooler.queue
  alive : r.session.spooler.alive = s.spooler.alive
  poisoned : r.session.spooler.writer.poisoned = s.spooler.writer.poisoned
  answers : ∀ ticket, r.session.stage.answers ticket = s.stage.answers ticket
  file : r.session.stage.file = s.stage.file
  pool : r.session.stage.pool = s.stage.pool
  course : course r.session.stage.journal = course s.stage.journal
  calls : r.session.stage.calls = s.stage.calls
  cursor : r.session.spooler.cursor = s.spooler.cursor
  written : Word.total r.past + r.session.spooler.written = s.spooler.written

/-! ## The count of bytes -/

/-- The writer, if so many bytes had been written before. -/
def Writer.credit (writer : Writer) (n : Nat) : Writer :=
  { writer with progress := ⟨writer.progress.cursor, n + writer.progress.written⟩ }

def Verdict.credit (verdict : Verdict σ π) (n : Nat) : Verdict σ π :=
  { verdict with writer := verdict.writer.credit n }

def Spooler.credit (spooler : Spooler) (n : Nat) : Spooler :=
  { spooler with writer := spooler.writer.credit n }

theorem Writer.advance_credit (writer : Writer) (n bytes : Nat) :
    (writer.credit n).advance bytes = (writer.advance bytes).credit n := by
  simp only [credit, advance, Nat.add_assoc]

/-- No work looks at the count of bytes. -/
theorem Writer.aside_credit (n : Nat) : Writer.Aside (·.credit n) where
  cursor _ := rfl
  poisoned _ := rfl
  frames _ := rfl
  advance writer bytes := writer.advance_credit n bytes
  poison _ := rfl

/-- A spooler on which nothing waits, and whose writer is alive and not poisoned, has nothing but its
count to tell it from one that starts where it is. -/
theorem Spooler.eq_credit {spooler : Spooler} {settings : Settings}
    (alive : spooler.alive = true) (none : spooler.queue = [])
    (unpoisoned : spooler.writer.poisoned = false) (same : spooler.writer.settings = settings)
    (shared : spooler.writer.progress.cursor = spooler.writer.cursor) :
    spooler = (⟨.start settings spooler.writer.cursor, true, []⟩ : Spooler).credit
      spooler.written := by
  obtain ⟨⟨_, _, _, ⟨_, _⟩⟩, _, _⟩ := spooler
  cases alive
  cases none
  cases unpoisoned
  cases same
  cases shared
  rfl

namespace Surroundings

variable (env : Surroundings σ π) (n : Nat)

theorem lockstep_self : env.Lockstep env Eq where
  write := by
    rintro a _ rfl slices position
    exact ⟨rfl, rfl⟩
  truncate := by
    rintro a _ rfl length
    exact ⟨rfl, rfl⟩
  sync := by
    rintro a _ rfl
    exact ⟨rfl, rfl⟩
  release := by
    rintro a _ rfl buffer
    exact ⟨rfl, rfl⟩
  note := by
    rintro a _ rfl notice
    rfl
  count := by
    rintro a _ rfl instrument amount
    rfl
  crash := by
    rintro a _ rfl
    rfl

theorem process_credit (request : Request) (writer : Writer) (stage : Stage σ π) :
    env.process request (writer.credit n) stage = (env.process request writer stage).credit n := by
  obtain ⟨reply, moved, after⟩ := env.lockstep_self.tandem_process (Writer.aside_credit n)
    (fun _ => rfl) (Eq.refl stage) request writer
  exact Verdict.ext reply moved after.symm

theorem submit_credit (ticket : Nat) (request : Request) (spooler : Spooler) (stage : Stage σ π) :
    env.submit ticket request (spooler.credit n) stage =
      ((env.submit ticket request spooler stage).1,
        (env.submit ticket request spooler stage).2.1.credit n,
        (env.submit ticket request spooler stage).2.2) := by
  have same : (spooler.credit n).alive = spooler.alive := rfl
  simp only [submit, same]
  split
  · rfl
  · split <;> rfl

theorem step_credit (spooler : Spooler) (stage : Stage σ π) :
    env.step (spooler.credit n) stage =
      ((env.step spooler stage).1.credit n, (env.step spooler stage).2) := by
  have same : (spooler.credit n).queue = spooler.queue := rfl
  have writer : (spooler.credit n).writer = spooler.writer.credit n := rfl
  simp only [step, same, writer, process_credit, Verdict.credit]
  split
  · rfl
  · split <;> rfl

end Surroundings

/-! ## The reports of starts and exits -/

/-- Stages that differ at most in the reports that spoolers start and exit. -/
structure Stage.Akin (a b : Stage σ π) : Prop where
  file : a.file = b.file
  pool : a.pool = b.pool
  course : course a.journal = course b.journal

/-- A session that has come as far as another one, in which so many more bytes were written. -/
structure Session.Continues (n : Nat) (r s : Session σ π) : Prop where
  spooler : s.spooler = r.spooler.credit n
  submitted : r.submitted = s.submitted
  crashed : r.crashed = s.crashed
  errands : r.errands = s.errands
  stage : r.stage.Akin s.stage

theorem course_append (new old : List (Event σ)) : course (new ++ old) = course new ++ course old :=
  List.filter_append ..

/-- What is said about events other than those reports is said about the course. -/
theorem filterMap_course {α : Type} {f : Event σ → Option α}
    (none : ∀ notice, f (.noted notice) = none) (journal : List (Event σ)) :
    (course journal).filterMap f = journal.filterMap f := by
  rw [course, List.filterMap_filter]
  congr 1
  funext event
  cases event with
  | noted notice => cases notice <;> simp [Event.isPassage, none]
  | called _ | released _ _ _ | counted _ _ | replied _ _ | crashed => rfl

theorem answersIn_course (ticket : Nat) (journal : List (Event σ)) :
    answersIn ticket (course journal) = answersIn ticket journal := by
  induction journal with
  | nil => rfl
  | cons event older ih =>
    cases event with
    | noted notice => cases notice <;> exact ih
    | replied t reply =>
      show (if t = ticket then reply :: answersIn ticket (course older)
        else answersIn ticket (course older)) = _
      rw [ih]
      rfl
    | called _ | released _ _ _ | counted _ _ | crashed => exact ih

namespace Stage.Akin

variable {a b c : Stage σ π}

/-- What does not look back does akin things on akin stages. -/
theorem of_onto (akin : a.Akin b) (act : Stage σ π → Stage σ π)
    (onto : ∀ stage older, act (stage.onto older) = (act stage).onto older) :
    (act a).Akin (act b) := by
  rw [a.eq_onto, b.eq_onto, onto, onto, ← akin.file, ← akin.pool]
  refine ⟨rfl, rfl, ?_⟩
  simp only [Stage.onto, course_append, akin.course]

theorem eq_of_onto {α : Type} (akin : a.Akin b) (value : Stage σ π → α)
    (onto : ∀ stage older, value (stage.onto older) = value stage) : value a = value b := by
  rw [a.eq_onto, b.eq_onto, onto, onto, ← akin.file, ← akin.pool]

theorem answers_eq (akin : a.Akin b) (ticket : Nat) : a.answers ticket = b.answers ticket := by
  rw [Stage.answers, ← answersIn_course, akin.course, answersIn_course]
  rfl

theorem calls_eq (akin : a.Akin b) : a.calls = b.calls := by
  simp only [Stage.calls, Stage.events, List.filterMap_reverse]
  rw [← filterMap_course (fun _ => rfl), akin.course, filterMap_course fun _ => rfl]

end Stage.Akin

theorem Session.Continues.matches {r : Succession σ π} {s : Session σ π}
    (continues : r.session.Continues (Word.total r.past) s) : r.Matches s := by
  obtain ⟨spooler, submitted, crashed, errands, stage⟩ := continues
  refine ⟨submitted, crashed, errands, ?_, ?_, ?_, stage.answers_eq, stage.file, stage.pool,
    stage.course, stage.calls_eq, ?_, ?_⟩
  all_goals
    rw [spooler]
    rfl

theorem Session.Continues.leave {n : Nat} {r s : Session σ π} (continues : r.Continues n s)
    (ending : Ending) : (r.leave ending).Continues n (s.leave ending) := by
  obtain ⟨spooler, submitted, crashed, errands, stage⟩ := continues
  have alive : s.spooler.alive = r.spooler.alive := by
    rw [spooler]
    rfl
  have cursor : s.spooler.writer.cursor = r.spooler.writer.cursor := by
    rw [spooler]
    rfl
  have gone : s.shut.spooler = r.shut.spooler.credit n := by
    simp only [shut, spooler]
    rfl
  rcases leave_together ending alive cursor with ⟨first, second⟩ | ⟨notice, -, first, second⟩
  · rw [first, second]
    exact ⟨gone, submitted, crashed, errands, stage⟩
  · rw [first, second]
    exact ⟨gone, submitted, crashed, errands,
      stage.of_onto (fun stage => stage.note notice) fun _ _ => rfl⟩

namespace Surroundings

variable (env : Surroundings σ π) {n : Nat}

theorem continues_hand (request : Request) {r s : Session σ π} (continues : r.Continues n s) :
    (env.hand request r).Continues n (env.hand request s) := by
  obtain ⟨spooler, submitted, crashed, errands, stage⟩ := continues
  have dropped := stage.eq_of_onto
    (fun stage => (env.submit s.submitted.length request r.spooler stage).1)
    fun stage older => by rw [submit_onto]
  have given := stage.eq_of_onto
    (fun stage => (env.submit s.submitted.length request r.spooler stage).2.1)
    fun stage older => by rw [submit_onto]
  have later := stage.of_onto
    (fun stage => (env.submit s.submitted.length request r.spooler stage).2.2)
    fun stage older => by rw [submit_onto]
  simp only [hand]
  rw [spooler, submit_credit, submitted, crashed]
  simp only at dropped given later ⊢
  exact ⟨by rw [given], rfl, by rw [dropped], errands, later⟩

theorem continues_work {r s : Session σ π} (continues : r.Continues n s) :
    (env.work r).Continues n (env.work s) := by
  obtain ⟨spooler, submitted, crashed, errands, stage⟩ := continues
  have given := stage.eq_of_onto (fun stage => (env.step r.spooler stage).1)
    fun stage older => by rw [step_onto]
  have later := stage.of_onto (fun stage => (env.step r.spooler stage).2)
    fun stage older => by rw [step_onto]
  simp only [work]
  rw [spooler, step_credit, errands]
  simp only at given later ⊢
  refine ⟨by rw [given], submitted, crashed, ?_, later⟩
  rw [later.calls_eq, stage.calls_eq]
  rfl

theorem continues_workOff (k : Nat) {r s : Session σ π} (continues : r.Continues n s) :
    (env.workOff k r).Continues n (env.workOff k s) := by
  induction k generalizing r s with
  | zero => exact continues
  | succ k ih => exact ih (env.continues_work continues)

theorem continues_next (act : Act) {r s : Session σ π} (continues : r.Continues n s) :
    (env.next act r).Continues n (env.next act s) := by
  cases act with
  | submit request => exact env.continues_hand request continues
  | forget ticket => exact continues
  | step => exact env.continues_work continues

theorem continues_finish (ending : Ending) {r s : Session σ π} (continues : r.Continues n s) :
    (env.finish ending r).Continues n (env.finish ending s) := by
  have queue : r.spooler.queue = s.spooler.queue := by
    rw [continues.spooler]
    rfl
  rw [finish_eq_leave, finish_eq_leave, queue]
  exact (env.continues_workOff _ continues).leave ending

/-- A spooler that is in use throughout is in a run of its own, in which the same is submitted. -/
theorem serve_eq_run (turns : List Turn) (s : Session σ π) :
    ∃ acts, env.serve turns s = env.run acts s ∧ submissions acts = requestsIn turns := by
  induction turns generalizing s with
  | nil => exact ⟨[], rfl, rfl⟩
  | cons turn later ih =>
    cases turn with
    | act act =>
      obtain ⟨acts, ran, same⟩ := ih (env.next act s)
      refine ⟨act :: acts, ran, ?_⟩
      cases act with
      | submit request => exact congrArg (request :: ·) same
      | forget ticket => exact same
      | step => exact same
    | reopen =>
      obtain ⟨acts, ran, same⟩ := ih (env.workOff s.spooler.queue.length s)
      refine ⟨List.replicate s.spooler.queue.length .step ++ acts, ?_, ?_⟩
      · rw [serve, ran, workOff_eq_run, run, run, run, List.foldl_append]
      · simpa [submissions, requestsIn] using same

theorem queue_serve_reopen (front : List Turn) (s : Session σ π) :
    (env.serve (front ++ [.reopen]) s).spooler.queue = [] := by
  induction front generalizing s with
  | nil => exact env.queue_workOff s
  | cons turn front ih =>
    cases turn with
    | act act => exact ih _
    | reopen => exact ih _

variable {env} {settings : Settings} {file : σ} {pool : π} {bytes : σ → List UInt8}

/-- Where a spooler rests, it can be closed and followed by another one, which continues it. -/
theorem continues_reopen (tidy : env.Tidy bytes)
    (honest : env.length file = .done (bytes file).length)
    (named : settings.threadName.toList.contains '\x00' = false) {r : Succession σ π}
    {s : Session σ π} (reached : env.Reaches settings file pool s)
    (continues : r.session.Continues (Word.total r.past) s)
    (rests : (env.workOff s.spooler.queue.length s).Rests env bytes) :
    ∃ next, env.reopen settings r = some next ∧
      next.session.Continues (Word.total next.past) (env.workOff s.spooler.queue.length s) := by
  have queue : r.session.spooler.queue = s.spooler.queue := by
    rw [continues.spooler]
    rfl
  have settled := env.continues_workOff s.spooler.queue.length continues
  have close := env.close_eq_workOff r.session
  rw [queue] at close
  have none := env.queue_workOff s
  have there := reached.workOff s.spooler.queue.length
  simp only [reopen, finish, queue]
  generalize env.workOff s.spooler.queue.length r.session = rs at settled close ⊢
  generalize env.workOff s.spooler.queue.length s = ss at settled none rests there ⊢
  obtain ⟨spooler, submitted, crashed, errands, stage⟩ := settled
  obtain ⟨alive, unpoisoned, length⟩ := rests
  obtain ⟨-, -, ends, shared⟩ := there.staysFramed tidy honest alive unpoisoned
  have same := there.settings_eq
  have lives : rs.spooler.alive = true := by
    rw [spooler] at alive
    exact alive
  have written : ss.spooler.written = Word.total r.past + rs.spooler.written := by
    rw [spooler]
    rfl
  simp only [lives, if_true] at close
  -- The file is as long as the old writer has come, so the new one starts there.
  have told : env.length (rs.stage.note (.exiting rs.spooler.writer.cursor)).file =
      .done ss.spooler.writer.cursor := by
    rw [← ends, ← length, ← stage.file]
    rfl
  have started := start_of_length told named
  simp only [close, Session.shut, started]
  refine ⟨_, rfl, ?_, submitted, crashed, errands, stage.file, stage.pool, stage.course⟩
  rw [Word.total_append, Word.total_cons, Word.total_nil, Nat.add_zero]
  exact written ▸ Spooler.eq_credit alive none unpoisoned same shared

/-- Spoolers that take turns go on to come to the same as a single one. -/
theorem continues_relay (tidy : env.Tidy bytes)
    (honest : env.length file = .done (bytes file).length)
    (named : settings.threadName.toList.contains '\x00' = false) (turns : List Turn)
    {r : Succession σ π} {s : Session σ π} (reached : env.Reaches settings file pool s)
    (continues : r.session.Continues (Word.total r.past) s)
    (rests : ∀ front back, turns = front ++ .reopen :: back →
      (env.serve (front ++ [.reopen]) s).Rests env bytes) :
    ∃ last, env.relay settings turns r = some last ∧
      last.session.Continues (Word.total last.past) (env.serve turns s) := by
  induction turns generalizing r s with
  | nil => exact ⟨r, rfl, continues⟩
  | cons turn later ih =>
    cases turn with
    | act act =>
      exact ih (.act act reached) (env.continues_next act continues) fun front back split =>
        rests (.act act :: front) back (by rw [split]; rfl)
    | reopen =>
      obtain ⟨next, reopened, goes⟩ := continues_reopen tidy honest named reached continues
        (rests [] later rfl)
      obtain ⟨last, relayed, matched⟩ := ih (reached.workOff _) goes fun front back split =>
        rests (.reopen :: front) back (by rw [split]; rfl)
      exact ⟨last, by rw [relay, reopened]; exact relayed, matched⟩

/-- A spooler is started on a tidy file, and serves a run of requests. Another one is started in the
same way, and closed and followed by a new one with the same settings at any points where the first
rests. All of them can be closed and started, and after any turns they have come to the same as the
first one; and so they have once both are given up. -/
theorem reopening_goes_unnoticed (tidy : env.Tidy bytes)
    (honest : env.length file = .done (bytes file).length) {spooler : Spooler} {stage : Stage σ π}
    (started : env.start settings (.start file pool) = (.done spooler, stage)) (turns : List Turn)
    (rests : ∀ front back, turns = front ++ .reopen :: back →
      (env.serve (front ++ [.reopen]) (.fresh spooler stage)).Rests env bytes) :
    let s := env.serve turns (.fresh spooler stage)
    (∃ acts, s = env.run acts (.fresh spooler stage) ∧ submissions acts = requestsIn turns) ∧
      ∃ r, env.relay settings turns ⟨[], .fresh spooler stage⟩ = some r ∧ r.Matches s ∧
        ∀ ending, Succession.Matches ⟨r.past, env.finish ending r.session⟩ (env.finish ending s) := by
  intro s
  have credited : spooler = spooler.credit 0 := by
    obtain ⟨cursor, -, rfl, -⟩ := spooler_start started
    rfl
  have begins : (Session.fresh spooler stage).Continues 0 (.fresh spooler stage) :=
    ⟨credited, rfl, rfl, rfl, rfl, rfl, rfl⟩
  obtain ⟨r, relayed, continues⟩ := continues_relay tidy honest (named_of_start started) turns
    (r := ⟨[], .fresh spooler stage⟩) (Reaches.start started) begins rests
  exact ⟨env.serve_eq_run turns _, r, relayed, continues.matches, fun ending =>
    Session.Continues.matches (env.continues_finish ending continues)⟩

/-- On a file that fills up, a spooler can be closed and followed by another one at any point. -/
theorem rests_of_fillsUp {sound : σ → Prop} {limit : Nat}
    (filling : env.FillsUp settings bytes sound limit file)
    (honest : ∀ file, sound file → env.length file = .done (bytes file).length) {spooler : Spooler}
    {stage : Stage σ π} (started : env.start settings (.start file pool) = (.done spooler, stage))
    {turns : List Turn} (fitting : Fitting (bytes file).length (requestsIn turns))
    {front back : List Turn} (split : turns = front ++ .reopen :: back) :
    (env.serve (front ++ [.reopen]) (.fresh spooler stage)).Rests env bytes := by
  obtain ⟨⟨chunk, some, fills⟩, calm, syncs, healthy, here⟩ := filling
  obtain ⟨acts, ran, same⟩ := env.serve_eq_run (front ++ [.reopen]) (.fresh spooler stage)
  have fresh : (Session.fresh spooler stage).Brimming settings bytes sound limit (bytes file) :=
    brimming_fresh healthy here started
  have requests : requestsIn turns = submissions acts ++ requestsIn back := by
    rw [same, split]
    simp [requestsIn]
  rw [requests] at fitting
  obtain ⟨⟨alive, unpoisoned, -, stays, -⟩, -⟩ :=
    brimming_run fills some calm syncs acts (.start started) fitting.left fresh
  rw [ran]
  exact ⟨alive, unpoisoned, honest _ stays⟩

/-- A file with room for forty bytes is given from one spooler to the next: after two frames, after
two more of which one is kept, and in the end. -/
theorem three_spoolers_on_a_full_file :
    let file : Memory := ⟨.ofList [1, 2], false⟩
    let stage := (Stage.start file ()).note (.starting 2 Settings.standard.threadName)
    let front : List Turn := [.act (.submit ⟨[threeBytes, threeBytes]⟩), .act .step, .reopen,
      .act (.submit ⟨[threeBytes, threeBytes]⟩), .act (.submit ⟨[threeBytes]⟩), .reopen,
      .act (.submit ⟨[]⟩)]
    ∃ r, (cramped 40 3).relay .standard (front ++ [.reopen])
        ⟨[], .fresh ⟨.start .standard 2, true, []⟩ stage⟩ = some r ∧
      r.session.stage.answers 0 = [.ok [⟨7, 0, 2⟩, ⟨7, 0, 13⟩]] ∧
      r.session.stage.answers 1 = [.error (.io .storageFull)] ∧
      r.session.stage.answers 2 = [.error (.io .storageFull)] ∧
      r.session.stage.answers 3 = [.ok []] ∧ r.session.spooler.cursor = 35 ∧
      Word.total r.past + r.session.spooler.written = 33 := by
  intro file stage front
  have named : Settings.standard.threadName.toList.contains '\x00' = false := by decide
  have started : (cramped 40 3).start .standard (.start file ()) =
      (.done ⟨.start .standard 2, true, []⟩, stage) := start_of_length rfl named
  have filling : (cramped 40 3).FillsUp .standard (fun memory => memory.contents.toList)
      (fun memory => memory.broken = false) 40 file := fillsUp_cramped (by decide) .standard rfl
  have fitting : Fitting file.contents.toList.length (requestsIn (front ++ [.reopen])) :=
    ⟨by decide, by rw [Extent.length_toList]; decide⟩
  obtain ⟨⟨acts, ran, same⟩, r, relayed, matched, -⟩ :=
    reopening_goes_unnoticed (Memory.tidy.capped 40 3) (length_cramped rfl) started
      (front ++ [.reopen]) fun _ _ split =>
        rests_of_fillsUp filling (fun _ => length_cramped) started fitting split
  have settled := (cramped 40 3).queue_serve_reopen front
    (.fresh ⟨.start .standard 2, true, []⟩ stage)
  obtain ⟨filled, submitted, -⟩ := filledTo_run filling started acts (by rwa [same])
  rw [ran] at settled matched
  rw [same] at submitted
  generalize (cramped 40 3).run acts (.fresh ⟨.start .standard 2, true, []⟩ stage) = s
    at filled submitted settled matched
  have start : file.contents.toList.length = 2 := by simp [file]
  have comes : ∀ ticket request, (requestsIn (front ++ [.reopen]))[ticket]? = some request →
      ∀ reply, request.ComesTo 40 (2 + framesSize (keptUnder 40 2
        ((requestsIn (front ++ [.reopen])).take ticket))) reply →
          r.session.stage.answers ticket = [reply] := by
    intro ticket request found reply comes
    rw [matched.answers]
    apply answers_of_settled filled settled (by rwa [submitted])
    rwa [submitted, start]
  have all : s.spooler.written = 33 := by
    rw [filled.written, keptUnder_of_settled filled settled, submitted, start]
    decide
  refine ⟨r, relayed, comes 0 _ rfl _ ⟨.inr (by decide), rfl⟩,
    comes 1 _ rfl _ ⟨⟨by simp, by decide⟩, rfl⟩, comes 2 _ rfl _ ⟨⟨by simp, by decide⟩, rfl⟩,
    comes 3 _ rfl _ ⟨.inl rfl, rfl⟩, ?_, matched.written.trans all⟩
  rw [matched.cursor, filled.cursor, filled.content, List.length_append, start,
    keptUnder_of_settled filled settled, submitted,
    length_framed_flatMap (framable_keptUnder fitting.framable _ _)]
  decide

end Surroundings
end Spillway
