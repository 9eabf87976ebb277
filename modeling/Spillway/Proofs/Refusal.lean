import Spillway.Proofs.Protocol
import Spillway.Proofs.Tandem
/-!
Requests that leave no trace. A request with a buffer that cannot be framed is refused before anything
is done for it, wherever that buffer stands; and once a request has passed this check, no batch of it
fails to be encoded. So a run makes the same calls, leaves the same file and gives the same answers to
the other requests as if there had never been one that is empty or refused, provided that no pool
crashes: with pools that do not, the writer sees of its stage nothing but the file.
-/

namespace Spillway

variable {σ π : Type}

/-- A request that there is something to write for: it is not empty, and all its buffers can be
framed. -/
def Request.spillable (request : Request) : Bool :=
  !request.items.isEmpty && decide (Framable request.buffers)

/-- Stages with the same file, on which the same calls were made. -/
structure Stage.Level (a b : Stage σ π) : Prop where
  file : b.file = a.file
  calls : b.calls = a.calls

/-- The second session has come as far as the first one without the requests that there is nothing to
write for. -/
structure Session.Skims (s t : Session σ π) : Prop where
  spooler : t.spooler = s.spooler
  stage : s.stage.Level t.stage
  submitted : t.submitted = s.submitted.filter Request.spillable
  answers : ∀ front request back, s.submitted = front ++ request :: back →
    request.spillable = true →
      t.stage.answers (front.filter Request.spillable).length = s.stage.answers front.length

theorem Request.spillable_iff {request : Request} :
    request.spillable = true ↔ request.items ≠ [] ∧ Framable request.buffers := by
  simp [spillable]

/-- A request is refused for the first of its buffers that is too long. -/
theorem Request.refusal_of_first {request : Request} {front back : List Item} {item : Item}
    (items : request.items = front ++ item :: back) (framable : Framable (front.map Item.buffer))
    (long : Header.maxLength < item.buffer.size) :
    request.refusal? = some (.lengthOverflow item.buffer.size) := by
  have passed : Request.refusal? ⟨front⟩ = none := refusal_of_framable framable
  rw [refusal?] at passed ⊢
  rw [items, List.findSome?_append, passed, Option.none_or, List.findSome?_cons, Buffer.header,
    if_pos long]

theorem Request.refused_of_not_framable {request : Request} (long : ¬ Framable request.buffers) :
    ∃ error, request.refusal? = some error := by
  cases refusal : request.refusal? with
  | some error => exact ⟨error, rfl⟩
  | none => exact absurd (framable_of_refusal refusal) long

theorem Request.encode_batches {request : Request} (accepted : request.refusal? = none) (n : Nat)
    {batch : List Buffer} (member : batch ∈ batches n request.buffers) :
    ∃ frames, batch.mapM Buffer.encode = .ok frames := by
  have framable : Framable batch := by
    intro buffer inside
    apply framable_of_refusal accepted
    rw [← flatten_batches n request.buffers]
    exact List.mem_flatten.mpr ⟨batch, member, inside⟩
  obtain ⟨frames, encoded, -⟩ := encode_batch framable
  exact ⟨frames, encoded⟩

namespace Stage.Level

variable {a b a' b' : Stage σ π}

theorem of_untouched (level : a.Level b) (first : a.Untouched a') (second : b.Untouched b') :
    a'.Level b' :=
  ⟨by rw [second.file, level.file, first.file], by rw [second.calls, level.calls, first.calls]⟩

/-- A call that is answered alike on both stages, and leaves the same file. -/
theorem called (level : a.Level b) (file : σ) (call : Call) :
    Level (({ a with file } : Stage σ π).record (.called call))
      (({ b with file } : Stage σ π).record (.called call)) := by
  refine ⟨rfl, ?_⟩
  rw [calls_record_called, calls_record_called]
  exact congrArg (· ++ [call]) level.calls

end Stage.Level

namespace Surroundings

variable {env : Surroundings σ π} {a b : Stage σ π}

/-- Where pools do not crash, all that can be told from a stage is the file. -/
theorem lockstep_level (calm : env.Calm) : env.Lockstep env Stage.Level where
  write level slices position := by
    simp only [Store.writeOn, level.file]
    exact ⟨trivial, level.called _ _⟩
  truncate level length := by
    simp only [Store.truncateOn, level.file]
    exact ⟨trivial, level.called _ _⟩
  sync level := by
    simp only [Store.syncOn, level.file]
    exact ⟨trivial, level.called _ _⟩
  release {a b} level buffer := by
    rw [calm_release calm, calm_release calm]
    exact ⟨rfl, level.of_untouched (.release _ buffer a) (.release _ buffer b)⟩
  note {a b} level notice := level.of_untouched (.note a notice) (.note b notice)
  count {a b} level instrument amount :=
    level.of_untouched (.count a instrument amount) (.count b instrument amount)
  crash {a b} level := ⟨level.file, by rw [calls_crash, calls_crash, level.calls]⟩

/-! ## One request -/

/-- What becomes of a request that is not empty when nothing else waits: the spooler after it, its
answer, and the stage before the answer is given. -/
def attend (env : Surroundings σ π) (request : Request) (spooler : Spooler) (stage : Stage σ π) :
    Spooler × Reply × Stage σ π :=
  if spooler.alive then
    let verdict := env.process request spooler.writer stage
    ({ spooler with writer := verdict.writer, alive := verdict.reply?.isSome },
      verdict.reply?.getD (.error .closed), verdict.stage)
  else (spooler, .error .closed, (env.releaseAll request.buffers stage).2)

theorem work_hand (calm : env.Calm) {request : Request} (some : request.items ≠ [])
    {s : Session σ π} (none : s.spooler.queue = []) :
    (env.work (env.hand request s)).spooler = (env.attend request s.spooler s.stage).1 ∧
      (env.work (env.hand request s)).stage = (env.attend request s.spooler s.stage).2.2.reply
        s.submitted.length (env.attend request s.spooler s.stage).2.1 := by
  obtain ⟨⟨writer, alive, queue⟩, stage, submitted, crashed, errands⟩ := s
  subst none
  have full : request.items.isEmpty = false := by simpa using some
  cases alive with
  | false =>
    simp [hand, submit, work, step, attend, full, calm_releaseAll calm]
  | true =>
    simp only [hand, submit, work, step, attend, full, Bool.false_eq_true, if_false, if_true,
      List.nil_append]
    cases (env.process request writer stage).reply? with
    | none => exact ⟨rfl, rfl⟩
    | some reply => exact ⟨rfl, rfl⟩

/-- A request is attended to alike on stages with the same file. -/
theorem level_attend (calm : env.Calm) (level : a.Level b) (request : Request)
    (spooler : Spooler) :
    (env.attend request spooler b).1 = (env.attend request spooler a).1 ∧
      (env.attend request spooler b).2.1 = (env.attend request spooler a).2.1 ∧
      (env.attend request spooler a).2.2.Level (env.attend request spooler b).2.2 := by
  have lockstep := lockstep_level calm
  unfold attend
  split
  · obtain ⟨reply, writer, after⟩ := lockstep.tandem_process Writer.aside_id (fun _ => rfl) level
      request spooler.writer
    simp only [id] at reply writer after
    simp only [reply, writer]
    exact ⟨trivial, trivial, after⟩
  · exact ⟨rfl, rfl, (lockstep.tandem_releaseAll level request.buffers).2⟩

/-- Nothing is answered before a request is attended to. -/
theorem answers_attend (request : Request) (spooler : Spooler) (stage : Stage σ π) (ticket : Nat) :
    (env.attend request spooler stage).2.2.answers ticket = stage.answers ticket := by
  unfold attend
  split
  · exact (env.effect_process request spooler.writer stage).answers_eq ticket
  · exact (env.effect_releaseAll 0 request.buffers stage).answers_eq ticket

/-- A request that is refused changes neither the writer nor the file. -/
theorem process_of_refusal (calm : env.Calm) {request : Request} {error : FrameError}
    (refused : request.refusal? = some error) (writer : Writer) (stage : Stage σ π) :
    ∃ after, stage.Untouched after ∧ env.process request writer stage =
      ⟨some (.error (if writer.poisoned then .poisoned else .frame error)), writer, after⟩ := by
  refine ⟨_, .releaseAll env.toPool request.buffers stage, ?_⟩
  rw [process, refused]
  split <;> simp only [refuse, calm_releaseAll calm, Bool.false_eq_true, if_false]

theorem attend_of_refusal (calm : env.Calm) {request : Request} {error : FrameError}
    (refused : request.refusal? = some error) (spooler : Spooler) (stage : Stage σ π) :
    (env.attend request spooler stage).1 = spooler ∧
      stage.Untouched (env.attend request spooler stage).2.2 := by
  unfold attend
  split
  · rename_i alive
    obtain ⟨after, untouched, processed⟩ := process_of_refusal calm refused spooler.writer stage
    rw [processed]
    exact ⟨by simp [← alive], untouched⟩
  · exact ⟨rfl, .releaseAll env.toPool request.buffers stage⟩

end Surroundings

/-! ## Runs -/

namespace Surroundings

variable (env : Surroundings σ π)

theorem submitted_finish (ending : Ending) (s : Session σ π) :
    (env.finish ending s).submitted = s.submitted := by
  rcases env.finish_eq ending s with finished | ⟨notice, -, finished⟩
  · rw [finished]
    exact env.submitted_workOff _ s
  · rw [finished]
    exact env.submitted_workOff _ s

/-- Giving a spooler up settles its queue, and makes no call after that. -/
theorem untouched_finish (ending : Ending) (s : Session σ π) :
    (env.finish ending s).spooler = { (env.settled s).spooler with alive := false } ∧
      (env.settled s).stage.Untouched (env.finish ending s).stage := by
  obtain ⟨spooler, stage⟩ := env.workOff_eq_steps s.spooler.queue.length s
  rcases env.finish_eq ending s with finished | ⟨notice, -, finished⟩
  · rw [finished]
    simp only [Session.shut, spooler, stage]
    exact ⟨rfl, .refl _⟩
  · rw [finished]
    simp only [Session.shut, Session.note, spooler, stage]
    exact ⟨rfl, .note _ _⟩

end Surroundings

/-- Of a list with one more element, each element is the last one, or one of the others. -/
theorem split_concat {α : Type} {front back others : List α} {element last : α}
    (split : others ++ [last] = front ++ element :: back) :
    (others = front ∧ last = element) ∨
      ∃ back', others = front ++ element :: back' := by
  rcases List.eq_nil_or_concat back with rfl | ⟨back', final, rfl⟩
  · obtain ⟨same, one⟩ := List.append_inj' split rfl
    exact .inl ⟨same, by simpa using one⟩
  · rw [List.concat_eq_append, ← List.cons_append, ← List.append_assoc] at split
    exact .inr ⟨back', (List.append_inj' split rfl).1⟩

namespace Session.Skims

variable {s t u v : Session σ π} {request : Request}

/-- One more request that there is nothing to write for. -/
theorem skip (skims : s.Skims t) (dropped : request.spillable = false)
    (spooler : u.spooler = s.spooler) (untouched : s.stage.Untouched u.stage)
    (submitted : u.submitted = s.submitted ++ [request])
    (silent : ∀ ticket, ticket ≠ s.submitted.length →
      u.stage.answers ticket = s.stage.answers ticket) : u.Skims t := by
  refine ⟨skims.spooler.trans spooler.symm, skims.stage.of_untouched untouched (.refl _), ?_, ?_⟩
  · rw [submitted, List.filter_append, List.filter_cons_of_neg (by simp [dropped]),
      List.filter_nil, List.append_nil, skims.submitted]
  · intro front other back split kept
    rw [submitted] at split
    rcases split_concat split with ⟨-, rfl⟩ | ⟨back', before⟩
    · rw [dropped] at kept
      cases kept
    · rw [silent front.length (by rw [before, List.length_append, List.length_cons]; omega)]
      exact skims.answers front other back' before kept

theorem keep (skims : s.Skims t) (kept : request.spillable = true)
    (spooler : v.spooler = u.spooler) (level : u.stage.Level v.stage)
    (submitted : u.submitted = s.submitted ++ [request])
    (submitted' : v.submitted = t.submitted ++ [request])
    (silent : ∀ ticket, ticket ≠ s.submitted.length →
      u.stage.answers ticket = s.stage.answers ticket)
    (silent' : ∀ ticket, ticket ≠ t.submitted.length →
      v.stage.answers ticket = t.stage.answers ticket)
    (alike : v.stage.answers t.submitted.length = u.stage.answers s.submitted.length) :
    u.Skims v := by
  refine ⟨spooler, level, ?_, ?_⟩
  · rw [submitted, submitted', List.filter_append, List.filter_cons_of_pos kept, List.filter_nil,
      skims.submitted]
  · intro front other back split chosen
    rw [submitted] at split
    rcases split_concat split with ⟨rfl, rfl⟩ | ⟨back', before⟩
    · rw [← skims.submitted]
      exact alike
    · have place : (front.filter Request.spillable).length < t.submitted.length := by
        rw [skims.submitted, before, List.filter_append, List.filter_cons_of_pos chosen,
          List.length_append, List.length_cons]
        omega
      rw [silent front.length (by rw [before, List.length_append, List.length_cons]; omega),
        silent' _ (Nat.ne_of_lt place)]
      exact skims.answers front other back' before chosen

end Session.Skims

namespace Surroundings

variable {env : Surroundings σ π} {settings : Settings} {file : σ} {pool : π}
  {s t : Session σ π}

theorem submitted_work_hand (request : Request) (s : Session σ π) :
    (env.work (env.hand request s)).submitted = s.submitted ++ [request] := rfl

/-- A request is answered under its own ticket only. -/
theorem answers_work_hand_other (calm : env.Calm) {request : Request} (some : request.items ≠ [])
    (none : s.spooler.queue = []) {ticket : Nat} (other : ticket ≠ s.submitted.length) :
    (env.work (env.hand request s)).stage.answers ticket = s.stage.answers ticket := by
  rw [(work_hand calm some none).2, answers_reply, if_neg (Ne.symm other), answers_attend]

theorem skims_dropped (calm : env.Calm) {request : Request} (dropped : request.spillable = false)
    (none : s.spooler.queue = []) (skims : s.Skims t) :
    (env.work (env.hand request s)).Skims t := by
  by_cases empty : request.items = []
  · have handed : env.work (env.hand request s) = { s with
        stage := s.stage.reply s.submitted.length (.ok [])
        submitted := s.submitted ++ [request] } := by
      simp [hand, submit, work, env.step_nil none, empty, none]
    rw [handed]
    refine skims.skip dropped rfl (.reply _ _ _) rfl fun ticket other => ?_
    rw [answers_reply, if_neg (Ne.symm other)]
  · have long : ¬ Framable request.buffers := fun framable => by
      rw [Request.spillable_iff.mpr ⟨empty, framable⟩] at dropped
      cases dropped
    obtain ⟨error, refused⟩ := Request.refused_of_not_framable long
    obtain ⟨spooler, stage⟩ := work_hand calm empty none
    obtain ⟨same, untouched⟩ := attend_of_refusal calm refused s.spooler s.stage
    refine skims.skip dropped (spooler.trans same) ?_ (submitted_work_hand request s) fun ticket =>
      answers_work_hand_other calm empty none
    rw [stage]
    exact untouched.trans (.reply _ _ _)

theorem skims_kept (calm : env.Calm) {request : Request} (kept : request.spillable = true)
    (none : s.spooler.queue = []) (balanced : s.Balanced) (balanced' : t.Balanced)
    (skims : s.Skims t) : (env.work (env.hand request s)).Skims (env.work (env.hand request t)) := by
  obtain ⟨some, -⟩ := Request.spillable_iff.mp kept
  have none' : t.spooler.queue = [] := by rw [skims.spooler, none]
  obtain ⟨spooler, stage⟩ := work_hand calm some none
  obtain ⟨spooler', stage'⟩ := work_hand calm some none'
  rw [skims.spooler] at spooler' stage'
  obtain ⟨same, reply, level⟩ := level_attend calm skims.stage request s.spooler
  refine skims.keep kept ?_ ?_ (submitted_work_hand request s) (submitted_work_hand request t)
    (fun ticket => answers_work_hand_other calm some none)
    (fun ticket => answers_work_hand_other calm some none') ?_
  · rw [spooler, spooler', same]
  · rw [stage, stage']
    exact level.of_untouched (.reply _ _ _) (.reply _ _ _)
  · rw [stage, stage', answers_reply, answers_reply, if_pos rfl, if_pos rfl, reply,
      answers_attend, answers_attend, balanced.answers_eq_nil (.inl (Nat.le_refl _)),
      balanced'.answers_eq_nil (.inl (Nat.le_refl _))]

/-- Where each request is processed when it is submitted, those that there is nothing to write for can
be left out. -/
theorem skims_promptly (calm : env.Calm) (requests : List Request) (none : s.spooler.queue = [])
    (balanced : s.Balanced) (balanced' : t.Balanced) (skims : s.Skims t) :
    (env.run (promptly requests) s).Skims
      (env.run (promptly (requests.filter Request.spillable)) t) := by
  induction requests generalizing s t with
  | nil => exact skims
  | cons request requests ih =>
    have gone : (env.work (env.hand request s)).spooler.queue = [] :=
      env.queue_run_promptly [request] none
    have then_balanced : (env.work (env.hand request s)).Balanced :=
      balanced_work (balanced_hand request balanced)
    cases kept : request.spillable with
    | false =>
      rw [List.filter_cons_of_neg (by simp [kept])]
      exact ih gone then_balanced balanced' (skims_dropped calm kept none skims)
    | true =>
      rw [List.filter_cons_of_pos kept]
      exact ih gone then_balanced (balanced_work (balanced_hand request balanced'))
        (skims_kept calm kept none balanced balanced' skims)

/-- A run that is ended and the run without the requests that there is nothing to write for. -/
theorem skims_finish (calm : env.Calm) {acts acts' : List Act}
    (filtered : submissions acts' = (submissions acts).filter Request.spillable)
    (ending ending' : Ending) {fresh : Session σ π} (orderly : fresh.Orderly)
    (balanced : fresh.Balanced) (none : fresh.spooler.queue = [])
    (nothing : fresh.submitted = []) :
    (env.finish ending (env.run acts fresh)).Skims (env.finish ending' (env.run acts' fresh)) := by
  have at_rest : env.settled fresh = fresh := by
    simp only [settled, env.settle_of_queue_eq_nil none]
  have itself : fresh.Skims fresh := by
    refine ⟨rfl, ⟨rfl, rfl⟩, by rw [nothing, List.filter_nil], fun front request back split => ?_⟩
    rw [nothing] at split
    simp at split
  have skims := skims_promptly calm (submissions acts) none balanced balanced itself
  have alike := env.alike_settled_run acts orderly balanced (.inl calm)
  have alike' := env.alike_settled_run acts' orderly balanced (.inl calm)
  rw [at_rest] at alike alike'
  rw [filtered] at alike'
  obtain ⟨spooler, untouched⟩ := env.untouched_finish ending (env.run acts fresh)
  obtain ⟨spooler', untouched'⟩ := env.untouched_finish ending' (env.run acts' fresh)
  have submitted : (env.finish ending (env.run acts fresh)).submitted = submissions acts := by
    rw [submitted_finish, submitted_run, nothing, List.nil_append]
  refine ⟨?_, ⟨?_, ?_⟩, ?_, fun front request back split kept => ?_⟩
  · rw [spooler, spooler', alike.spooler, alike'.spooler, skims.spooler]
  · rw [untouched.file, untouched'.file, alike.stage.file, alike'.stage.file, skims.stage.file]
  · rw [untouched.calls, untouched'.calls, alike.stage.calls_eq, alike'.stage.calls_eq,
      skims.stage.calls]
  · rw [submitted, submitted_finish, submitted_run, nothing, List.nil_append, filtered]
  · rw [answers_finish, answers_finish, alike.stage.answers, alike'.stage.answers]
    refine skims.answers front request back ?_ kept
    rw [submitted_run, submissions_promptly, nothing, List.nil_append, ← submitted, split]

/-- A request that cannot be framed leaves no trace. When the writer, which is not poisoned, comes to a
request with a buffer that is too long, it answers with the length of the first such buffer, makes no
call, and is the same as before. If all requests are left out of a run that are empty or have such a
buffer, the same calls are made, the same file is left, and the other requests are given the same
answers. And no batch of any other request fails to be encoded. -/
theorem refused_requests_leave_no_trace (calm : env.Calm) :
    (∀ s, env.Reaches settings file pool s → s.spooler.writer.poisoned = false →
      ∀ ticket request later, s.spooler.queue = ⟨ticket, request⟩ :: later →
        ∀ front item back, request.items = front ++ item :: back →
          (∀ other ∈ front, other.buffer.size ≤ Header.maxLength) →
          Header.maxLength < item.buffer.size →
            (env.work s).stage.answers ticket =
                [.error (.frame (.lengthOverflow item.buffer.size))] ∧
              (env.work s).stage.calls = s.stage.calls ∧
              (env.work s).stage.file = s.stage.file ∧
              (env.work s).spooler = { s.spooler with queue := later }) ∧
    (∀ spooler stage, env.start settings (.start file pool) = (.done spooler, stage) →
      ∀ acts acts' ending ending', submissions acts' =
          (submissions acts).filter Request.spillable →
        let all := env.finish ending (env.run acts (.fresh spooler stage))
        let some := env.finish ending' (env.run acts' (.fresh spooler stage))
        some.spooler = all.spooler ∧ some.stage.calls = all.stage.calls ∧
          some.stage.file = all.stage.file ∧
          ∀ front request back, submissions acts = front ++ request :: back →
            request.spillable = true →
              some.stage.answers (front.filter Request.spillable).length =
                all.stage.answers front.length) ∧
    ∀ request : Request, (∀ item ∈ request.items, item.buffer.size ≤ Header.maxLength) →
      ∀ n, ∀ batch ∈ batches n request.buffers, ∃ frames, batch.mapM Buffer.encode = .ok frames := by
  refine ⟨?_, ?_, ?_⟩
  · intro s reached healthy ticket request later queued front item back items short long
    have alive := reached.orderly.alive_of_queue (by simp [queued])
    have framable : Framable (front.map Item.buffer) := by simpa [Framable] using short
    obtain ⟨after, untouched, processed⟩ := process_of_refusal calm
      (Request.refusal_of_first items framable long) s.spooler.writer s.stage
    rw [healthy] at processed
    have worked := env.work_of_reply queued processed
    obtain ⟨reply, answered⟩ := answered_work (reached.balanced alive) queued
    have given : (env.work s).stage.answers ticket =
        .error (.frame (.lengthOverflow item.buffer.size)) :: after.answers ticket := by
      rw [worked]
      exact if_pos rfl
    have last := untouched.trans
      (.reply after ticket (.error (.frame (.lengthOverflow item.buffer.size))))
    refine ⟨?_, ?_, ?_, ?_⟩
    · rw [given] at answered ⊢
      exact congrArg (_ :: ·) (List.cons.inj answered).2
    · rw [worked]
      exact last.calls
    · rw [worked]
      exact last.file
    · rw [worked]
  · intro spooler stage started acts acts' ending ending' filtered all some
    have none : spooler.queue = [] := by
      obtain ⟨cursor, -, rfl, -⟩ := spooler_start started
      rfl
    have skims := skims_finish calm filtered ending ending' (Reaches.start started).orderly
      (balanced_fresh started) none rfl
    refine ⟨skims.spooler, skims.stage.calls, skims.stage.file, fun front request back split kept =>
      skims.answers front request back ?_ kept⟩
    rw [submitted_finish, submitted_run]
    exact split
  · intro request short n batch member
    have framable : Framable request.buffers := by simpa [Framable, Request.buffers] using short
    exact Request.encode_batches (refusal_of_framable framable) n member

/-- A buffer with one byte more than the header of a frame has room to say. -/
def tooLong : Item :=
  let long := Header.maxLength + 1
  ⟨⟨⟨.zeros long, by decide⟩, .pool, .data, long, false, by decide⟩, 0, 8⟩

/-- Three bytes are submitted together with a buffer that is too long, then alone. The first request is
refused, and the second one fares as if it were the only one. -/
theorem three_bytes_behind_a_refusal :
    let file : Planned Memory := ⟨⟨.empty, false⟩, .none⟩
    let stage := (exercise.start .standard (.start file ())).2
    let fresh : Session (Planned Memory) Unit := .fresh ⟨.start .standard 0, true, []⟩ stage
    let refused : Request := ⟨[threeBytes, tooLong]⟩
    let acts := [.submit refused, .submit ⟨[]⟩, .submit ⟨[threeBytes]⟩]
    let s := exercise.hand refused fresh
    let all := exercise.finish .close (exercise.run acts fresh)
    let some := exercise.finish .close (exercise.run [.submit ⟨[threeBytes]⟩, .step] fresh)
    (exercise.work s).stage.answers 0 = [.error (.frame (.lengthOverflow 2147483648))] ∧
      (exercise.work s).stage.calls = [] ∧
      (exercise.work s).spooler = ⟨.start .standard 0, true, []⟩ ∧
      some.stage.calls = all.stage.calls ∧ some.stage.file = all.stage.file ∧
      some.stage.answers 0 = all.stage.answers 2 ∧
      ∃ frames, [threeBytes.buffer].mapM Buffer.encode = .ok frames := by
  intro file stage fresh refused acts s all some
  have started : exercise.start .standard (.start file ()) =
      (.done ⟨.start .standard 0, true, []⟩, stage) := rfl
  obtain ⟨refusal, without, encoded⟩ :=
    @refused_requests_leave_no_trace _ _ exercise .standard file () Pool.calm_quiet
  obtain ⟨answer, calls, -, spooler⟩ := refusal s (.act (.submit refused) (.start started)) rfl 0
    refused [] rfl [threeBytes] tooLong [] rfl (by decide) (by decide)
  obtain ⟨-, calls', file', answers⟩ := without _ stage started acts [.submit ⟨[threeBytes]⟩, .step]
    .close .close rfl
  refine ⟨answer, calls, spooler, calls', file',
    answers [refused, ⟨[]⟩] ⟨[threeBytes]⟩ [] rfl (by decide), ?_⟩
  have one : batches 512 [threeBytes.buffer] = [[threeBytes.buffer]] :=
    batches_of_le (by simp) (by decide)
  exact encoded ⟨[threeBytes]⟩ (by decide) 512 _ (one ▸ List.mem_singleton.mpr rfl)

end Surroundings
end Spillway
