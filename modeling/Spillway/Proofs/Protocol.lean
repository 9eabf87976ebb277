import Spillway.Proofs.Attempts
import Spillway.Proofs.Interchange
import Spillway.Proofs.Tearing
/-!
The protocol that the calls for one request keep to. If the writer accepts the request, they are
writes, and when these are done a sync if one is asked for, and when they are not the one cut of the
repair; otherwise there are none. Every write gathers slices of one batch, not too many of them, and
every write but the last takes something or is interrupted, so there are no more of them than there are
bytes, interruptions and one.
-/

namespace Spillway

variable {σ π : Type}

def Call.isWrite : Call → Bool
  | .write _ _ _ => true
  | _ => false

/-- The call is a write that was interrupted. -/
def Call.isInterrupted : Call → Bool
  | .write _ _ (.failed failure) => failure.cause == .interrupted
  | _ => false

/-- The calls for a request, where `after` is the writer after them: none, or quiet writes which took all
of its frames, with a sync behind them if the settings ask for it, or writes of which the last one fails
before all is taken, with a cut to the last whole frame behind them. -/
inductive Protocol (request : Request) (writer after : Writer) : List Call → Prop
  | unheard (deaf : ¬ writer.Accepts request) : Protocol request writer after []
  | written {calls : List Call} (accepts : writer.Accepts request)
      (never : writer.settings.syncEach = false) (writes : ∀ call ∈ calls, call.isWrite = true)
      (quiet : Quiet calls) (all : takenBy calls = request.framedSize) :
      Protocol request writer after calls
  | synced {calls : List Call} {answer : Answer Unit} (accepts : writer.Accepts request)
      (each : writer.settings.syncEach = true) (writes : ∀ call ∈ calls, call.isWrite = true)
      (quiet : Quiet calls) (all : takenBy calls = request.framedSize) :
      Protocol request writer after (calls ++ [.sync answer])
  | cut {front : List Call} {last : Call} {answer : Answer Unit} (accepts : writer.Accepts request)
      (writes : ∀ call ∈ front ++ [last], call.isWrite = true) (quiet : Quiet front)
      (ends : last.endCause?.isSome = true) (less : takenBy front < request.framedSize) :
      Protocol request writer after (front ++ [last, .truncate after.cursor answer])

/-- A write gathers what is left of the frames of one batch, which go to `offset`, in no more than `most`
slices. -/
structure Gathers (most offset : Nat) (batch : List Buffer) (position : Nat) (slices : List Extent) :
    Prop where
  some : 1 ≤ slices.length
  few : slices.length ≤ most
  offered : 0 < Extent.totalSize slices
  left : slices.flatMap Extent.toList <:+ batch.flatMap Buffer.framed
  ends : position + Extent.totalSize slices = offset + framesSize batch

/-- The batch at a place among those of a request, where so many frames are written at a time. -/
def Request.batch (request : Request) (frames place : Nat) : List Buffer :=
  (request.buffers.drop (place * frames)).take frames

/-- Every write among the calls for a request gathers slices of one of its batches, and goes behind the
frames of those before it. -/
def GathersEach (settings : Settings) (request : Request) (cursor : Nat) (calls : List Call) : Prop :=
  ∀ position slices answer, .write position slices answer ∈ calls → ∃ place,
    Gathers (max settings.maxSlices Settings.minSlices)
      (cursor + framesSize (request.buffers.take (place * settings.framesPerWrite)))
      (request.batch settings.framesPerWrite place) position slices

/-! ## Batches -/

/-- A batch among the others has its place. -/
theorem batches_split {α : Type} {n : Nat} (some : 0 < n) {xs batch : List α}
    {front back : List (List α)} (split : batches n xs = front ++ batch :: back) :
    front.flatten = xs.take (front.length * n) ∧ batch = (xs.drop (front.length * n)).take n := by
  induction front generalizing xs with
  | nil =>
    have full : xs ≠ [] := by
      rintro rfl
      simp at split
    rw [batches_eq_cons some full] at split
    obtain ⟨first, -⟩ := List.cons.inj split
    simp [first]
  | cons first front ih =>
    have full : xs ≠ [] := by
      rintro rfl
      simp at split
    rw [batches_eq_cons some full] at split
    obtain ⟨rfl, others⟩ := List.cons.inj split
    obtain ⟨joined, place⟩ := ih others
    have behind : (front.length + 1) * n = n + front.length * n := by
      rw [Nat.add_mul, Nat.one_mul, Nat.add_comm]
    rw [List.length_cons, behind, List.flatten_cons, joined, List.take_add]
    exact ⟨rfl, by rw [place, List.drop_drop]⟩

/-- A frame has two slices, so a batch has no more than the settings allow, or those of one frame. -/
theorem Settings.two_mul_framesPerWrite_le (settings : Settings) :
    2 * settings.framesPerWrite ≤ max settings.maxSlices minSlices := by
  simp only [framesPerWrite]
  omega

/-! ## The number of writes -/

/-- Each of some fair and quiet writes takes a byte at least, or is interrupted. -/
theorem length_le_of_quiet {calls : List Call} (writes : ∀ call ∈ calls, call.isWrite = true)
    (quiet : Quiet calls) (fair : ∀ call ∈ calls, call.Fair) :
    calls.length ≤ takenBy calls + calls.countP Call.isInterrupted := by
  induction calls with
  | nil => exact Nat.le_refl _
  | cons call later ih =>
    obtain ⟨write, writes⟩ := List.forall_mem_cons.mp writes
    obtain ⟨silent, quiet⟩ := List.forall_mem_cons.mp quiet
    obtain ⟨honest, fair⟩ := List.forall_mem_cons.mp fair
    have rest := ih writes quiet fair
    have one : 1 ≤ call.taken + if call.isInterrupted = true then 1 else 0 := by
      cases call with
      | truncate _ _ | sync _ => cases write
      | write position slices answer =>
        cases answer with
        | crashed => cases honest.calm
        | done n =>
          have some : n ≠ 0 := by simpa [Call.endCause?] using silent
          simp only [Call.taken]
          omega
        | failed failure =>
          have interrupted : failure.cause = .interrupted := by simpa [Call.endCause?] using silent
          simp [Call.taken, Call.isInterrupted, interrupted]
    have taken : takenBy (call :: later) = call.taken + takenBy later := rfl
    rw [List.length_cons, List.countP_cons, taken]
    omega

/-- There are no more writes for a request than it has bytes, interruptions and one. -/
theorem Protocol.writes_le {request : Request} {writer after : Writer} {calls : List Call}
    (protocol : Protocol request writer after calls) (fair : ∀ call ∈ calls, call.Fair) :
    calls.countP Call.isWrite ≤ request.framedSize + 1 + calls.countP Call.isInterrupted := by
  cases protocol with
  | unheard deaf => simp
  | written accepts never writes quiet all =>
    have most := length_le_of_quiet writes quiet fair
    have few := List.countP_le_length (p := Call.isWrite) (l := calls)
    omega
  | @synced front answer accepts each writes quiet all =>
    have most := length_le_of_quiet writes quiet fun call member => fair call (by simp [member])
    have few := List.countP_le_length (p := Call.isWrite) (l := front)
    have none : [Call.sync answer].countP Call.isWrite = 0 := rfl
    simp only [List.countP_append, none]
    omega
  | @cut front last answer accepts writes quiet ends less =>
    have most := length_le_of_quiet (fun call member => writes call (by simp [member])) quiet
      fun call member => fair call (by simp [member])
    have few := List.countP_le_length (p := Call.isWrite) (l := front)
    have one := List.countP_le_length (p := Call.isWrite) (l := [last])
    have none : [Call.truncate after.cursor answer].countP Call.isWrite = 0 := rfl
    rw [← List.singleton_append]
    simp only [List.countP_append, none, List.length_singleton] at one ⊢
    omega

theorem GathersEach.append {settings : Settings} {request : Request} {cursor : Nat}
    {calls later : List Call} (gathers : GathersEach settings request cursor calls)
    (others : ∀ call ∈ later, call.isWrite = false) :
    GathersEach settings request cursor (calls ++ later) := by
  intro position slices answer member
  rcases List.mem_append.mp member with early | late
  · exact gathers position slices answer early
  · cases others _ late

namespace Surroundings

variable (env : Surroundings σ π)

/-- The calls made while a request is written are writes, and each gathers slices of one batch. -/
theorem gathers_spill {request : Request} (accepted : request.refusal? = none) (writer : Writer)
    (stage : Stage σ π) {calls : List Call}
    (called : (env.spill request writer stage).stage.calls = stage.calls ++ calls) :
    (∀ call ∈ calls, call.isWrite = true) ∧
      GathersEach writer.settings request writer.cursor calls := by
  obtain ⟨made, same, writes⟩ := (env.writes_spill accepted writer stage).calls
  obtain rfl : calls = made := List.append_cancel_left (called.symm.trans same)
  refine ⟨fun call member => ?_, fun position slices answer member => ?_⟩
  · obtain ⟨position, slices, answer, older, rfl, -⟩ := writes call member
    rfl
  · obtain ⟨_, _, _, older, same, front, batch, back, split, offers⟩ := writes _ member
    cases same
    obtain ⟨before, here⟩ := batches_split writer.settings.framesPerWrite_pos split
    have wide := writer.settings.two_mul_framesPerWrite_le
    have short : batch.length ≤ writer.settings.framesPerWrite := by
      rw [here, List.length_take]
      exact Nat.min_le_left _ _
    have few := offers.few
    have full : slices ≠ [] := by
      rintro rfl
      exact offers.some rfl
    refine ⟨front.length, List.length_pos_iff.mpr full, by omega, Nat.pos_of_ne_zero offers.some, ?_, ?_⟩
    · rw [Request.batch, ← here]
      exact offers.left
    · rw [Request.batch, ← here, ← before]
      exact offers.ends

/-- A request that the writer accepts is carried out by the protocol. -/
theorem protocol_carryOut {request : Request} {writer : Writer} (accepts : writer.Accepts request)
    {entries : List Entry} (known : request.entries? writer.cursor = some entries)
    (full : request.items ≠ []) (stage : Stage σ π) :
    ∃ calls, (env.carryOut request entries writer stage).stage.calls = stage.calls ++ calls ∧
      GathersEach writer.settings request writer.cursor calls ∧
      (env.Calm → (∀ call ∈ calls, call.Fair) →
        Protocol request writer (env.carryOut request entries writer stage).writer calls) := by
  obtain ⟨calls, attempts⟩ := env.attempts_spill accepts.framable writer stage
  obtain ⟨writes, gathers⟩ := env.gathers_spill accepts.framable writer stage attempts.calls_eq
  obtain ⟨all, less⟩ := env.taken_by_spill accepts.framable attempts.calls_eq
  have ended := attempts.ended
  rw [← framedSize_eq] at all less
  cases outcome : (env.spill request writer stage).outcome with
  | crashed =>
    rw [carryOut_of_crashed outcome]
    refine ⟨calls, attempts.calls_eq, gathers, fun calm fair => ?_⟩
    obtain ⟨-, call, member, wrong⟩ :=
      attempts.unfair outcome ⟨calm, room_of_entriesFrom full known⟩
    exact absurd (fair call member) wrong
  | failed error =>
    rw [outcome] at ended
    obtain ⟨front, last, cause, rfl, quiet, ends, -⟩ := ended
    obtain ⟨answer, -, cut, repaired⟩ := env.repaired_carryOut entries outcome
    have here : (env.carryOut request entries writer stage).writer.cursor =
        (env.spill request writer stage).writer.cursor := by
      rcases repaired with ⟨-, same, -⟩ | ⟨_, -, same, -⟩ | ⟨-, same, -⟩ <;> rw [same]
    rw [← here, attempts.calls_eq, List.append_assoc] at cut
    refine ⟨_, cut, gathers.append (by simp [Call.isWrite]), fun _ _ => ?_⟩
    rw [List.append_assoc]
    exact .cut accepts writes quiet (by rw [ends]; rfl)
      (Nat.lt_of_le_of_lt (by simp) (less error outcome))
  | done =>
    rw [outcome] at ended
    obtain ⟨-, later, called, ends⟩ := env.calls_carryOut_of_done accepts.framable entries outcome
    rw [attempts.calls_eq, List.append_assoc] at called
    refine ⟨calls ++ later, called, ?_, fun _ _ => ?_⟩
    · rcases ends with ⟨-, rfl⟩ | ⟨-, answer, rfl⟩
      · exact gathers.append (by simp)
      · exact gathers.append (by simp [Call.isWrite])
    · rcases ends with ⟨never, rfl⟩ | ⟨each, answer, rfl⟩
      · rw [List.append_nil]
        exact .written accepts never writes ended (all outcome)
      · exact .synced accepts each writes ended (all outcome)

/-- The calls for a request keep to the protocol, if the file answers fairly and no pool crashes. -/
theorem protocol_process {request : Request} (full : request.items ≠ []) (writer : Writer)
    (stage : Stage σ π) :
    ∃ calls, (env.process request writer stage).stage.calls = stage.calls ++ calls ∧
      GathersEach writer.settings request writer.cursor calls ∧
      (env.Calm → (∀ call ∈ calls, call.Fair) →
        Protocol request writer (env.process request writer stage).writer calls) := by
  by_cases accepts : writer.Accepts request
  · obtain ⟨entries, known, carried⟩ := env.process_of_accepts accepts stage
    rw [carried]
    exact env.protocol_carryOut accepts known full stage
  · have untouched := (env.process_of_deaf accepts stage).1
    exact ⟨[], by rw [untouched.calls, List.append_nil], fun _ _ _ member => absurd member (by simp),
      fun _ _ => .unheard accepts⟩

variable {env} {settings : Settings} {file : σ} {pool : π}

theorem Reaches.balanced {s : Session σ π} (reached : env.Reaches settings file pool s)
    (alive : s.spooler.alive = true) : s.Balanced := by
  revert alive
  apply reached.rule
  · intro spooler stage started _
    exact balanced_fresh started
  · intro s request _ balanced alive
    exact balanced_hand request (balanced ((stands_hand request s).alive alive))
  · intro s _ balanced alive
    exact balanced_work (balanced (env.alive_of_alive_step alive))
  · intro s notice _ balanced alive
    obtain ⟨answers, alive_crashed, crashes⟩ := balanced alive
    have more : s.stage.crashes ≤ (s.note notice).stage.crashes :=
      crashes_le_of_suffix (List.suffix_cons _ _)
    exact ⟨answers, alive_crashed, Nat.le_trans crashes more⟩
  · intro s _ _ alive
    cases alive

theorem answered_work {s : Session σ π} (balanced : s.Balanced) {order : Order} {later : List Order}
    (queued : s.spooler.queue = order :: later) :
    ∃ reply, (env.work s).stage.answers order.ticket = [reply] := by
  have before := balanced.answers order.ticket
  have after : ((env.work s).stage.answers order.ticket).length +
      waiting order.ticket (env.work s).spooler.queue = _ :=
    env.length_answers_step order.ticket s.spooler s.stage
  have first : waiting order.ticket s.spooler.queue = waiting order.ticket later + 1 := by
    simp [queued, waiting]
  have most : (s.stage.answers order.ticket).length + waiting order.ticket s.spooler.queue ≤ 1 := by
    split at before
    · omega
    · omega
  have left : waiting order.ticket (env.work s).spooler.queue = 0 := by
    cases verdict : env.process order.request s.spooler.writer s.stage with
    | mk reply? writer after =>
      cases reply? with
      | some reply =>
        rw [env.work_of_reply queued verdict]
        show waiting order.ticket later = 0
        omega
      | none =>
        rw [env.work_of_death queued verdict]
        rfl
  apply List.length_eq_one_iff.mp
  omega

theorem calls_work {s : Session σ π} {order : Order} {later : List Order}
    (queued : s.spooler.queue = order :: later) {calls : List Call}
    (called : (env.process order.request s.spooler.writer s.stage).stage.calls =
      s.stage.calls ++ calls) :
    (env.work s).stage.calls = s.stage.calls ++ calls ∧
      (env.work s).errands = s.errands ++ [⟨order, calls⟩] ∧
      (env.work s).spooler.writer =
        (env.process order.request s.spooler.writer s.stage).writer := by
  cases verdict : env.process order.request s.spooler.writer s.stage with
  | mk reply? writer after =>
    rw [verdict] at called
    cases reply? with
    | some reply =>
      have told := (Stage.Untouched.reply after order.ticket reply).calls.trans called
      rw [env.work_of_reply queued verdict]
      refine ⟨told, ?_, rfl⟩
      rw [told, List.drop_left]
    | none =>
      have told := ((Stage.Untouched.reply after order.ticket (.error .closed)).trans
        (untouched_abandon env later _)).calls.trans called
      rw [env.work_of_death queued verdict]
      refine ⟨told, ?_, rfl⟩
      rw [told, List.drop_left]

/-- Submitting a request makes no call, and an empty request never comes to the writer. When the writer
takes a request from the queue, it is answered in that step, whose calls are writes that each gather
slices of one batch; and if the file answers fairly and no pool crashes, the calls keep to the protocol,
and the writes are bounded by the bytes of the request and the interruptions. -/
theorem calls_keep_to_the_protocol (calm : env.Calm) {s : Session σ π}
    (reached : env.Reaches settings file pool s) :
    (∀ request, (env.hand request s).stage.calls = s.stage.calls ∧
      (request.items = [] → (env.hand request s).spooler = s.spooler)) ∧
    ∀ order later, s.spooler.queue = order :: later → ∃ calls reply,
      (env.work s).stage.calls = s.stage.calls ++ calls ∧
      (env.work s).errands = s.errands ++ [⟨order, calls⟩] ∧
      (env.work s).stage.answers order.ticket = [reply] ∧
      GathersEach settings order.request s.spooler.writer.cursor calls ∧
      ((∀ call ∈ calls, call.Fair) →
        Protocol order.request s.spooler.writer (env.work s).spooler.writer calls ∧
        calls.countP Call.isWrite ≤
          order.request.framedSize + 1 + calls.countP Call.isInterrupted) := by
  refine ⟨fun request => ⟨(stands_hand request s).untouched.calls, fun none => ?_⟩, ?_⟩
  · simp [hand, submit, none]
  · intro order later queued
    have alive := reached.orderly.alive_of_queue (by simp [queued])
    obtain ⟨-, full⟩ := reached.orderly.submitted_of_queue
      (show order ∈ s.spooler.queue by simp [queued])
    obtain ⟨reply, answered⟩ := answered_work (reached.balanced alive) queued
    obtain ⟨calls, called, gathers, protocol⟩ :=
      env.protocol_process full s.spooler.writer s.stage
    obtain ⟨made, errands, same⟩ := calls_work queued called
    rw [reached.settings_eq] at gathers
    refine ⟨calls, reply, made, errands, answered, gathers, fun fair => ?_⟩
    have keeps := protocol calm fair
    rw [← same] at keeps
    exact ⟨keeps, keeps.writes_le fair⟩

/-- Two frames go to a file with room for fifteen bytes, in three calls: a write that takes these, one
that fails, and a cut behind the first frame. -/
theorem two_frames_take_three_calls :
    let opened := ((cramped 15 100).start .standard (.start ⟨.empty, false⟩ ())).2
    let request : Request := ⟨[threeBytes, threeBytes]⟩
    let s := (cramped 15 100).hand request (.fresh ⟨.start .standard 0, true, []⟩ opened)
    let t := (cramped 15 100).work s
    ∃ first second,
      t.errands = [⟨⟨0, request⟩, [.write 0 first (.done 15),
        .write 15 second (.failed (.ofCause .storageFull)), .truncate 11 (.done ())]⟩] ∧
      t.stage.answers 0 = [.error (.io .storageFull)] ∧
      GathersEach .standard request 0 (t.errands.flatMap Errand.calls) ∧
      Protocol request s.spooler.writer t.spooler.writer (t.errands.flatMap Errand.calls) ∧
      (t.errands.flatMap Errand.calls).countP Call.isWrite ≤ 22 + 1 + 0 := by
  intro opened request s t
  obtain ⟨first, second, after, processed, made, size, -⟩ := process_cramped
  have reached : (cramped 15 100).Reaches .standard ⟨.empty, false⟩ () s :=
    .act (.submit request) (.start rfl)
  obtain ⟨calls, reply, called, errands, answered, gathers, protocol⟩ :=
    (calls_keep_to_the_protocol Pool.calm_quiet reached).2 ⟨0, request⟩ [] rfl
  have worked : t = _ := (cramped 15 100).work_of_reply (s := s) rfl processed
  have told : t.stage.calls = after.calls := by
    rw [worked]
    exact (Stage.Untouched.reply after 0 _).calls
  have all : t.stage.calls = calls := called
  rw [told, made] at all
  subst all
  have failed : t.stage.answers 0 = .error (.io .storageFull) :: after.answers 0 := by
    rw [worked]
    rfl
  have one : t.stage.answers 0 = [reply] := answered
  have fair : ∀ call ∈ [Call.write 0 first (.done 15),
      .write 15 second (.failed (.ofCause .storageFull)), .truncate 11 (.done ())], call.Fair := by
    intro call member
    simp only [List.mem_cons, List.not_mem_nil, or_false] at member
    rcases member with rfl | rfl | rfl
    · exact ⟨rfl, by simp [Call.taken, Call.offered, size]⟩
    · exact ⟨rfl, Nat.zero_le _⟩
    · exact ⟨rfl, Nat.zero_le _⟩
  obtain ⟨keeps, few⟩ := protocol fair
  have joined : t.errands.flatMap Errand.calls = _ := congrArg (List.flatMap Errand.calls) errands
  refine ⟨first, second, errands, ?_, ?_, ?_, ?_⟩
  · rw [one] at failed ⊢
    rw [(List.cons.inj failed).1]
  · rw [joined]
    exact gathers
  · rw [joined]
    exact keeps
  · rw [joined]
    exact few

end Surroundings
end Spillway
