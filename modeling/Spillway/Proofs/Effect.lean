import Spillway.Spooler
/-!
What the writer's work leaves on a stage. Every piece of it adds events on top of the journal, with
no reply among them; its calls are made on the file as the journal leaves it, at a given offset or
behind it; and the segments that go back are those of given buffers, each once and in their order.
`Surroundings.Effect` says all of this about two stages, and there is one lemma about it for each function
of the writer, up to `Surroundings.effect_process`.
-/

namespace Spillway

variable {σ π : Type}

/-- What goes back when a buffer is let go: its whole segment, with the owner it goes to. -/
def Buffer.handover (buffer : Buffer) : Owner × Segment := (buffer.owner, buffer.segment)

/-- What goes back, in order, when a request is let go. -/
def Request.handovers (request : Request) : List (Owner × Segment) :=
  request.buffers.map Buffer.handover

/-- The segments that went back according to a journal, with their owners, the first one first. -/
def handovers : List (Event σ) → List (Owner × Segment)
  | [] => []
  | .released owner segment _ :: older => handovers older ++ [(owner, segment)]
  | _ :: older => handovers older

/-- The file after a call is made on it. -/
def Store.redo (store : Store σ) (file : σ) : Call → σ
  | .write position slices _ => (store.write file slices position).2
  | .truncate length _ => (store.truncate file length).2
  | .sync _ => (store.sync file).2

/-- What a file has become after the events of a journal. -/
def Store.fileAt (store : Store σ) (file : σ) : List (Event σ) → σ
  | [] => file
  | .called call :: older => store.redo (store.fileAt file older) call
  | _ :: older => store.fileAt file older

/-- What the pools have become when segments have gone back to them, one after the other. -/
def Pool.reclaimAll (pool : Pool π) : π → List (Owner × Segment) → π
  | state, [] => state
  | state, (.nobody, _) :: later => pool.reclaimAll state later
  | state, (.pool number, segment) :: later =>
    pool.reclaimAll (pool.reclaim state number segment).2 later

/-- A call that is given no offset or length below `low`. -/
def Call.Above (low : Nat) : Call → Prop
  | .write position _ _ => low ≤ position
  | .truncate length _ => low ≤ length
  | .sync _ => True

/-- An event of the writer's work: no reply, and no call below `low`. -/
def Event.IsWork (low : Nat) : Event σ → Prop
  | .called call => call.Above low
  | .replied _ _ => False
  | _ => True

/-- An event of a transfer: the file is written, or something crashes. -/
def Event.IsTransfer : Event σ → Prop
  | .called (.write _ _ _) => True
  | .crashed => True
  | _ => False

/-- `after` is `before` with work done on it that let go of the buffers `released`. If the work
crashed, the events say so. -/
def Surroundings.Effect (env : Surroundings σ π) (low : Nat) (released : List Buffer)
    (crashed : Prop) (before after : Stage σ π) : Prop :=
  ∃ new, after.journal = new ++ before.journal ∧ after.file = env.fileAt before.file new ∧
    after.pool = env.reclaimAll before.pool (handovers new) ∧
    (∀ event ∈ new, event.IsWork low) ∧ handovers new = released.map Buffer.handover ∧
    (crashed → ∃ event ∈ new, event.isCrash)

/-- A writer at the same point or further on: its settings are the same, and its cursor has not
fallen. -/
structure Writer.Further (writer after : Writer) : Prop where
  settings : after.settings = writer.settings
  cursor : writer.cursor ≤ after.cursor

theorem Writer.Further.refl (writer : Writer) : writer.Further writer := ⟨rfl, Nat.le_refl _⟩

theorem Writer.Further.trans {writer between after : Writer} (first : writer.Further between)
    (second : between.Further after) : writer.Further after :=
  ⟨second.settings.trans first.settings, Nat.le_trans first.cursor second.cursor⟩

theorem handovers_append (new old : List (Event σ)) :
    handovers (new ++ old) = handovers old ++ handovers new := by
  induction new with
  | nil => simp [handovers]
  | cons event new ih => cases event <;> simp [handovers, ih]

/-- The handovers are the releases of a stage, without the files. -/
theorem map_releases (stage : Stage σ π) :
    stage.releases.map (fun release => (release.1, release.2.1)) = handovers stage.journal := by
  simp only [Stage.releases, Stage.events, List.filterMap_reverse, List.map_reverse]
  induction stage.journal with
  | nil => rfl
  | cons event older ih => cases event <;> simp [handovers, ← ih]

theorem fileAt_append (store : Store σ) (file : σ) (new old : List (Event σ)) :
    store.fileAt file (new ++ old) = store.fileAt (store.fileAt file old) new := by
  induction new with
  | nil => rfl
  | cons event new ih => cases event <;> simp [Store.fileAt, ih]

theorem reclaimAll_append (pool : Pool π) (state : π) (first later : List (Owner × Segment)) :
    pool.reclaimAll state (first ++ later) = pool.reclaimAll (pool.reclaimAll state first) later := by
  induction first generalizing state with
  | nil => rfl
  | cons handover first ih =>
    obtain ⟨owner, segment⟩ := handover
    cases owner <;> simp [Pool.reclaimAll, ih]

/-- What stands in the journal once a buffer is let go. -/
theorem Pool.journal_release (pool : Pool π) (buffer : Buffer) (stage : Stage σ π) :
    (pool.release buffer stage).2.journal =
      (if (pool.release buffer stage).1 then [.crashed] else []) ++
        .released buffer.owner buffer.segment stage.file :: stage.journal := by
  unfold Pool.release Pool.giveBack
  cases buffer.owner with
  | nobody => rfl
  | pool number =>
    simp only
    split <;> rfl

theorem Call.Above.mono {low high : Nat} (le : low ≤ high) {call : Call} (above : call.Above high) :
    call.Above low := by
  cases call with
  | write position slices answer => exact Nat.le_trans le above
  | truncate length answer => exact Nat.le_trans le above
  | sync answer => trivial

theorem Event.IsWork.mono {low high : Nat} (le : low ≤ high) {event : Event σ}
    (work : event.IsWork high) : event.IsWork low := by
  cases event with
  | called call => exact Call.Above.mono le work
  | replied ticket reply => exact work
  | released _ _ _ | counted _ _ | noted _ | crashed => trivial

namespace Surroundings.Effect

variable {env : Surroundings σ π} {low : Nat} {released later : List Buffer} {crashed crashedLater : Prop}
  {before between after : Stage σ π}

theorem refl (env : Surroundings σ π) (low : Nat) (stage : Stage σ π) :
    env.Effect low [] False stage stage :=
  ⟨[], rfl, rfl, rfl, by simp, rfl, False.elim⟩

theorem trans (first : env.Effect low released crashed before between)
    (second : env.Effect low later crashedLater between after) :
    env.Effect low (released ++ later) (crashed ∨ crashedLater) before after := by
  obtain ⟨new, journal, file, pool, work, handed, crash⟩ := first
  obtain ⟨newer, journal', file', pool', work', handed', crash'⟩ := second
  refine ⟨newer ++ new, by rw [journal', journal, List.append_assoc], ?_, ?_, ?_, ?_, ?_⟩
  · rw [file', file, fileAt_append]
  · rw [pool', pool, handovers_append, reclaimAll_append]
  · intro event member
    rcases List.mem_append.mp member with isNewer | isNew
    · exact work' event isNewer
    · exact work event isNew
  · rw [handovers_append, handed, handed', List.map_append]
  · rintro (one | two)
    · obtain ⟨event, member, is⟩ := crash one
      exact ⟨event, List.mem_append_right _ member, is⟩
    · obtain ⟨event, member, is⟩ := crash' two
      exact ⟨event, List.mem_append_left _ member, is⟩

theorem mono {high : Nat} (effect : env.Effect high released crashed before after)
    (le : low ≤ high) (weaker : crashedLater → crashed) :
    env.Effect low released crashedLater before after := by
  obtain ⟨new, journal, file, pool, work, handed, crash⟩ := effect
  exact ⟨new, journal, file, pool, fun event member => (work event member).mono le, handed,
    fun c => crash (weaker c)⟩

theorem of_calm (effect : env.Effect low released crashed before after)
    (calm : ¬ crashedLater) : env.Effect low released crashedLater before after :=
  effect.mono (Nat.le_refl low) fun crash => absurd crash calm

theorem of_record (env : Surroundings σ π) (low : Nat) (stage : Stage σ π) (event : Event σ)
    (work : event.IsWork low) (file : env.fileAt stage.file [event] = stage.file)
    (none : handovers [event] = []) :
    env.Effect low [] (event.isCrash) stage (stage.record event) :=
  ⟨[event], rfl, file.symm, by rw [none]; rfl, by simpa using work, none, fun crash => ⟨event, by simp, crash⟩⟩

theorem note (env : Surroundings σ π) (low : Nat) (stage : Stage σ π) (notice : Notice) :
    env.Effect low [] False stage (stage.note notice) :=
  (of_record env low stage (.noted notice) trivial rfl rfl).of_calm id

theorem count (env : Surroundings σ π) (low : Nat) (stage : Stage σ π) (instrument : Instrument)
    (amount : Nat) : env.Effect low [] False stage (stage.count instrument amount) :=
  (of_record env low stage (.counted instrument amount) trivial rfl rfl).of_calm id

theorem crash (env : Surroundings σ π) (low : Nat) (stage : Stage σ π) :
    env.Effect low [] True stage stage.crash :=
  (of_record env low stage .crashed trivial rfl rfl).mono (Nat.le_refl low) fun _ => rfl

theorem of_call (env : Surroundings σ π) (low : Nat) (stage : Stage σ π) (call : Call)
    (above : call.Above low) :
    env.Effect low [] (call.hasCrashed) stage
      ({ stage with file := env.redo stage.file call }.record (.called call)) :=
  ⟨[.called call], rfl, rfl, rfl, by simpa [Event.IsWork] using above, rfl,
    fun crash => ⟨.called call, by simp, crash⟩⟩

end Surroundings.Effect

namespace Surroundings

variable (env : Surroundings σ π)

theorem effect_writeOn (slices : List Extent) (position : Nat) (stage : Stage σ π) :
    env.Effect position [] ((env.writeOn slices position stage).1 = .crashed) stage
      (env.writeOn slices position stage).2 := by
  apply (Effect.of_call env position stage (.write position slices _) (Nat.le_refl _)).mono (Nat.le_refl _)
  intro crash
  exact beq_iff_eq.mpr crash

theorem effect_truncateOn (length : Nat) (stage : Stage σ π) :
    env.Effect length [] ((env.truncateOn length stage).1 = .crashed) stage
      (env.truncateOn length stage).2 := by
  apply (Effect.of_call env length stage (.truncate length _) (Nat.le_refl _)).mono (Nat.le_refl _)
  intro crash
  exact beq_iff_eq.mpr crash

theorem effect_syncOn (low : Nat) (stage : Stage σ π) :
    env.Effect low [] ((env.syncOn stage).1 = .crashed) stage (env.syncOn stage).2 := by
  apply (Effect.of_call env low stage (.sync _) trivial).mono (Nat.le_refl _)
  intro crash
  exact beq_iff_eq.mpr crash

private theorem effect_next {offset taken position : Nat} {slices : List Extent}
    {stage after : Stage σ π} {answer : Answer Nat} (found : Word.add? offset taken = some position)
    (call : env.writeOn slices position stage = (answer, after)) :
    env.Effect offset [] (answer = .crashed) stage after := by
  have effect := env.effect_writeOn slices position stage
  rw [call] at effect
  have behind : offset ≤ position := by
    have sum := (Word.add?_eq_some_iff.mp found).1
    omega
  exact effect.mono behind id

/-- A transfer calls the file at its offset or behind it, and lets nothing go. -/
theorem effect_transferFrom (offset before : Nat) (slices : List Extent) (taken : Nat)
    (stage : Stage σ π) :
    env.Effect offset [] ((env.transferFrom offset before slices taken stage).finish = .crashed)
      stage (env.transferFrom offset before slices taken stage).stage := by
  fun_induction env.transferFrom offset before slices taken stage with
  | case1 slices taken stage none => exact (Effect.refl env offset stage).of_calm (by simp)
  | case2 slices taken stage some overflow =>
    exact (Effect.crash env offset stage).mono (Nat.le_refl _) fun _ => trivial
  | case3 slices taken stage some position found after call =>
    exact (env.effect_next found call).mono (Nat.le_refl _) fun _ => rfl
  | case4 slices taken stage some position found failure after call interrupted ih =>
    exact ((env.effect_next found call).trans ih).mono (Nat.le_refl _) .inr
  | case5 slices taken stage some position found failure after call fatal =>
    exact (env.effect_next found call).of_calm (by simp)
  | case6 slices taken stage some position found after call =>
    exact (env.effect_next found call).of_calm (by simp)
  | case7 slices taken stage some position found n after call nonzero overflow =>
    exact ((env.effect_next found call).trans (Effect.crash env offset after)).mono (Nat.le_refl _)
      fun _ => .inr trivial
  | case8 slices taken stage some position found n after call nonzero counted overclaimed =>
    exact ((env.effect_next found call).trans (Effect.crash env offset after)).mono (Nat.le_refl _)
      fun _ => .inr trivial
  | case9 slices taken stage some position found n after call nonzero counted within ih =>
    exact ((env.effect_next found call).trans ih).mono (Nat.le_refl _) .inr

/-- A transfer does nothing but write to the file. -/
theorem events_transferFrom (offset before : Nat) (slices : List Extent) (taken : Nat)
    (stage : Stage σ π) :
    ∃ new, (env.transferFrom offset before slices taken stage).stage.journal =
        new ++ stage.journal ∧ ∀ event ∈ new, event.IsTransfer := by
  -- One write on top of the journal, and what comes on top of that.
  have write : ∀ {position : Nat} {slices : List Extent} {stage after : Stage σ π}
      {answer : Answer Nat}, env.writeOn slices position stage = (answer, after) →
      ∀ {last : Stage σ π}, (∃ new, last.journal = new ++ after.journal ∧
        ∀ event ∈ new, event.IsTransfer) →
      ∃ new, last.journal = new ++ stage.journal ∧ ∀ event ∈ new, event.IsTransfer := by
    rintro position slices stage after answer call last ⟨new, journal, only⟩
    cases call
    let made := Call.write position slices (env.write stage.file slices position).1
    refine ⟨new ++ [.called made], ?_, ?_⟩
    · rw [journal, List.append_assoc]
      rfl
    · exact List.forall_mem_append.mpr ⟨only, by simp [made, Event.IsTransfer]⟩
  have none : ∀ stage : Stage σ π, ∃ new, stage.journal = new ++ stage.journal ∧
      ∀ event ∈ new, event.IsTransfer := fun stage => ⟨[], rfl, by simp⟩
  have crash : ∀ stage : Stage σ π, ∃ new, stage.crash.journal = new ++ stage.journal ∧
      ∀ event ∈ new, event.IsTransfer := fun stage => ⟨[.crashed], rfl, by simp [Event.IsTransfer]⟩
  fun_induction env.transferFrom offset before slices taken stage with
  | case1 slices taken stage empty => exact none stage
  | case2 slices taken stage some overflow => exact crash stage
  | case3 slices taken stage some position found after call => exact write call (none after)
  | case4 slices taken stage some position found failure after call interrupted ih =>
    exact write call ih
  | case5 slices taken stage some position found failure after call fatal =>
    exact write call (none after)
  | case6 slices taken stage some position found after call => exact write call (none after)
  | case7 slices taken stage some position found n after call nonzero overflow =>
    exact write call (crash after)
  | case8 slices taken stage some position found n after call nonzero counted overclaimed =>
    exact write call (crash after)
  | case9 slices taken stage some position found n after call nonzero counted within ih =>
    exact write call ih

theorem effect_release (low : Nat) (buffer : Buffer) (stage : Stage σ π) :
    env.Effect low [buffer] ((env.release buffer stage).1 = true) stage
      (env.release buffer stage).2 := by
  obtain ⟨segment, owner, kind, size, compressed, size_le⟩ := buffer
  cases owner with
  | nobody =>
    exact ⟨[.released .nobody segment stage.file], rfl, rfl, rfl, by simp [Event.IsWork], rfl,
      fun crash => by cases crash⟩
  | pool number =>
    have answer : env.release ⟨segment, .pool number, kind, size, compressed, size_le⟩ stage =
        let done := env.reclaim stage.pool number segment
        let handed := stage.record (.released (.pool number) segment stage.file)
        (done.1, if done.1 then { handed with pool := done.2 }.crash else { handed with pool := done.2 }) :=
      rfl
    rw [answer]
    cases crash : (env.reclaim stage.pool number segment).1 with
    | false =>
      simp only [crash, Bool.false_eq_true, if_false]
      exact ⟨[.released (.pool number) segment stage.file], rfl, rfl, rfl, by simp [Event.IsWork], rfl,
        False.elim⟩
    | true =>
      simp only [crash, if_true]
      exact ⟨[.crashed, .released (.pool number) segment stage.file], rfl, rfl, rfl,
        by simp [Event.IsWork], rfl, fun _ => ⟨.crashed, by simp, rfl⟩⟩

theorem effect_releaseAll (low : Nat) (buffers : List Buffer) (stage : Stage σ π) :
    env.Effect low buffers ((env.releaseAll buffers stage).1 = true) stage
      (env.releaseAll buffers stage).2 := by
  induction buffers generalizing stage with
  | nil => exact (Effect.refl env low stage).of_calm (by simp [Pool.releaseAll])
  | cons buffer rest ih =>
    have both := (env.effect_release low buffer stage).trans (ih (env.release buffer stage).2)
    exact both.mono (Nat.le_refl _) fun crash => by simpa [Pool.releaseAll] using crash

/-- A commit lets every buffer of its batch go, wherever it stops. -/
theorem commit_releases (written committed : Nat) (batch : List Buffer) (stage : Stage σ π) :
    (env.commit written committed batch stage).crashed = (env.releaseAll batch stage).1 ∧
      (env.commit written committed batch stage).stage = (env.releaseAll batch stage).2 := by
  fun_induction env.commit written committed batch stage with
  | case1 committed stage => exact ⟨rfl, rfl⟩
  | case2 committed buffer rest stage short dropped => exact ⟨rfl, rfl⟩
  | case3 committed buffer rest stage whole released crashed =>
    have first : (env.release buffer stage).1 = true := crashed
    exact ⟨by simp [Pool.releaseAll, first], rfl⟩
  | case4 committed buffer rest stage whole released calm ih =>
    have first : (env.release buffer stage).1 = false := by simpa using calm
    exact ⟨by simpa [Pool.releaseAll, first] using ih.1, ih.2⟩

theorem effect_commit (low written committed : Nat) (batch : List Buffer) (stage : Stage σ π) :
    env.Effect low batch ((env.commit written committed batch stage).crashed = true) stage
      (env.commit written committed batch stage).stage := by
  obtain ⟨crashed, after⟩ := env.commit_releases written committed batch stage
  rw [crashed, after]
  exact env.effect_releaseAll low batch stage

theorem effect_settleBatch (low : Nat) (batch : List Buffer) (written : Nat) (outcome : Outcome)
    (calm : outcome ≠ .crashed) (writer : Writer) (stage : Stage σ π) :
    env.Effect low batch ((env.settleBatch batch written outcome writer stage).outcome = .crashed)
      stage (env.settleBatch batch written outcome writer stage).stage := by
  have committed := env.effect_commit low written 0 batch stage
  simp only [settleBatch]
  split
  · rename_i crashed
    exact committed.mono (Nat.le_refl _) fun _ => crashed
  · have counted := committed.trans (Effect.count env low _ .bytesWritten
      (env.commit written 0 batch stage).bytes)
    rw [List.append_nil] at counted
    exact counted.of_calm calm

theorem further_settleBatch (batch : List Buffer) (written : Nat) (outcome : Outcome)
    (writer : Writer) (stage : Stage σ π) :
    writer.Further (env.settleBatch batch written outcome writer stage).writer := by
  simp only [settleBatch]
  split
  · exact .refl writer
  · exact ⟨rfl, Nat.le_add_right _ _⟩

theorem effect_writeBatch (batch : List Buffer) (writer : Writer) (stage : Stage σ π) :
    env.Effect writer.cursor batch ((env.writeBatch batch writer stage).outcome = .crashed) stage
      (env.writeBatch batch writer stage).stage := by
  unfold writeBatch
  cases batch.mapM Buffer.encode with
  | error error =>
    apply (env.effect_releaseAll writer.cursor batch stage).mono (Nat.le_refl _)
    intro crash
    by_cases crashed : (env.releaseAll batch stage).1 = true
    · exact crashed
    · simp [crashed] at crash
  | ok frames =>
    have moved := env.effect_transferFrom writer.cursor 0 (frames.flatMap Frame.slices) 0 stage
    simp only
    unfold Store.transfer
    generalize env.transferFrom writer.cursor 0 (frames.flatMap Frame.slices) 0 stage = transfer at moved
    have noted := moved.trans (Effect.note env writer.cursor transfer.stage
      (.wrote transfer.written batch.length writer.cursor))
    cases finish : transfer.finish with
    | crashed =>
      have dropped := moved.trans (env.effect_releaseAll writer.cursor batch transfer.stage)
      exact dropped.mono (Nat.le_refl _) fun _ => .inl finish
    | failed failure =>
      have settled := noted.trans (env.effect_settleBatch writer.cursor batch transfer.written
        (.failed (.io failure.cause)) (by simp) writer _)
      exact settled.mono (Nat.le_refl _) .inr
    | done value =>
      have settled := noted.trans (env.effect_settleBatch writer.cursor batch transfer.written
        .done (by simp) writer _)
      exact settled.mono (Nat.le_refl _) .inr

theorem further_writeBatch (batch : List Buffer) (writer : Writer) (stage : Stage σ π) :
    writer.Further (env.writeBatch batch writer stage).writer := by
  unfold writeBatch
  cases batch.mapM Buffer.encode with
  | error error => exact .refl writer
  | ok frames =>
    simp only
    cases (env.transfer (frames.flatMap Frame.slices) writer.cursor 0 stage).finish with
    | crashed => exact .refl writer
    | failed failure => exact env.further_settleBatch _ _ _ _ _
    | done value => exact env.further_settleBatch _ _ _ _ _

theorem further_writeBatches (batches : List (List Buffer)) (writer : Writer) (stage : Stage σ π) :
    writer.Further (env.writeBatches batches writer stage).writer := by
  fun_induction env.writeBatches batches writer stage with
  | case1 writer stage => exact .refl writer
  | case2 batch later writer stage work done ih =>
    exact (env.further_writeBatch batch writer stage).trans ih
  | case3 batch later writer stage work dropped fails =>
    exact env.further_writeBatch batch writer stage

/-- The batches of a request are all let go, those behind a failure too. -/
theorem effect_writeBatches (batches : List (List Buffer)) (writer : Writer) (stage : Stage σ π) :
    env.Effect writer.cursor batches.flatten
      ((env.writeBatches batches writer stage).outcome = .crashed) stage
      (env.writeBatches batches writer stage).stage := by
  fun_induction env.writeBatches batches writer stage with
  | case1 writer stage => exact (Effect.refl _ _ stage).of_calm (by simp)
  | case2 batch later writer stage work done ih =>
    have first := env.effect_writeBatch batch writer stage
    have rest := ih.mono (env.further_writeBatch batch writer stage).cursor id
    exact (first.trans rest).mono (Nat.le_refl _) .inr
  | case3 batch later writer stage work dropped fails =>
    have both := (env.effect_writeBatch batch writer stage).trans
      (env.effect_releaseAll writer.cursor later.flatten work.stage)
    apply both.mono (Nat.le_refl _)
    intro crash
    by_cases late : dropped.1 = true
    · exact .inr late
    · exact .inl (by simpa [late] using crash)

theorem effect_writeRequest (request : Request) (writer : Writer) (stage : Stage σ π) :
    env.Effect writer.cursor request.buffers
      ((env.writeRequest request writer stage).outcome = .crashed) stage
      (env.writeRequest request writer stage).stage := by
  have effect := env.effect_writeBatches (batches writer.settings.framesPerWrite request.buffers)
    writer stage
  rwa [flatten_batches] at effect

theorem effect_repair (writer : Writer) (stage : Stage σ π) :
    env.Effect writer.cursor [] ((env.repair writer stage).1 = true) stage
      (env.repair writer stage).2.2 := by
  have called := env.effect_truncateOn writer.cursor stage
  unfold repair
  generalize env.truncateOn writer.cursor stage = done at called
  obtain ⟨answer, after⟩ := done
  cases answer with
  | done value =>
    exact (called.trans (Effect.note env writer.cursor after _)).of_calm (by simp)
  | failed failure =>
    exact (called.trans (Effect.note env writer.cursor after _)).of_calm (by simp)
  | crashed => exact called.mono (Nat.le_refl _) fun _ => rfl

@[simp] theorem cursor_repair (writer : Writer) (stage : Stage σ π) :
    (env.repair writer stage).2.1.cursor = writer.cursor := by
  unfold repair
  split <;> rfl

theorem further_repair (writer : Writer) (stage : Stage σ π) :
    writer.Further (env.repair writer stage).2.1 := by
  unfold repair
  split <;> exact ⟨rfl, Nat.le_refl _⟩

theorem effect_refuse (low : Nat) (request : Request) (error : SpillError) (writer : Writer)
    (stage : Stage σ π) :
    env.Effect low request.buffers ((env.refuse request error writer stage).reply? = none) stage
      (env.refuse request error writer stage).stage := by
  apply (env.effect_releaseAll low request.buffers stage).mono (Nat.le_refl _)
  intro unanswered
  by_cases crashed : (env.releaseAll request.buffers stage).1 = true
  · exact crashed
  · simp [refuse, crashed] at unanswered

theorem further_carryOut (request : Request) (entries : List Entry) (writer : Writer)
    (stage : Stage σ π) :
    writer.Further (env.carryOut request entries writer stage).writer := by
  have moved : writer.Further (env.writeRequest request writer
      (stage.note (.spilling request.items.length request.framedSize writer.cursor))).writer :=
    env.further_writeBatches _ writer _
  simp only [carryOut]
  generalize env.writeRequest request writer
    (stage.note (.spilling request.items.length request.framedSize writer.cursor)) = work at moved
  cases work.outcome with
  | crashed => exact moved
  | failed error => exact moved.trans (env.further_repair work.writer _)
  | done =>
    simp only
    split
    · split <;> exact moved
    · exact moved

/-- A request that is carried out calls the file at the cursor or behind it, and all its buffers are
let go. -/
theorem effect_carryOut (request : Request) (entries : List Entry) (writer : Writer)
    (stage : Stage σ π) :
    env.Effect writer.cursor request.buffers
      ((env.carryOut request entries writer stage).reply? = none) stage
      (env.carryOut request entries writer stage).stage := by
  have noted := Effect.note env writer.cursor stage
    (.spilling request.items.length request.framedSize writer.cursor)
  have wrote := noted.trans (env.effect_writeRequest request writer _)
  have moved : writer.cursor ≤ (env.writeRequest request writer
      (stage.note (.spilling request.items.length request.framedSize writer.cursor))).writer.cursor :=
    (env.further_writeBatches _ writer _).cursor
  rw [List.nil_append] at wrote
  simp only [carryOut]
  generalize env.writeRequest request writer
    (stage.note (.spilling request.items.length request.framedSize writer.cursor)) = work at wrote moved
  -- Nothing is let go after the writing, so what follows adds events only.
  have finish : ∀ {crashed : Prop} {after : Stage σ π},
      env.Effect writer.cursor [] crashed work.stage after →
      env.Effect writer.cursor request.buffers crashed stage after := by
    intro crashed after rest
    have both := (wrote.trans rest).mono (Nat.le_refl _) Or.inr
    rwa [List.append_nil] at both
  have failure : ∀ (stage : Stage σ π) (bytes : Nat) (error : SpillError),
      env.Effect writer.cursor [] False stage
        (stage.countFailure request writer.cursor bytes error) := fun stage bytes error =>
    ((Effect.count env _ stage .failedRequests 1).trans
      (Effect.note env _ _ _)).of_calm id
  have success : ∀ stage : Stage σ π,
      env.Effect writer.cursor [] False stage (stage.countSuccess request) := fun stage =>
    (((Effect.count env _ stage .requests 1).trans
      (Effect.count env _ _ .buffersSpilled request.items.length)).trans
        (Effect.count env _ _ .writeLatency 1)).of_calm id
  cases outcome : work.outcome with
  | crashed => exact wrote.mono (Nat.le_refl _) fun _ => .inr outcome
  | failed error =>
    apply finish
    have repaired := (env.effect_repair work.writer (work.stage.countFailure request writer.cursor
      (work.writer.cursor - writer.cursor) error)).mono moved id
    apply ((failure work.stage _ error).trans repaired).mono (Nat.le_refl _)
    intro unanswered
    by_cases crashed : (env.repair work.writer (work.stage.countFailure request writer.cursor
      (work.writer.cursor - writer.cursor) error)).1 = true
    · exact .inr crashed
    · simp [crashed] at unanswered
  | done =>
    simp only
    split
    · have synced := env.effect_syncOn writer.cursor work.stage
      generalize env.syncOn work.stage = done at synced
      obtain ⟨answer, after⟩ := done
      cases answer with
      | crashed => exact (finish synced).mono (Nat.le_refl _) fun _ => rfl
      | failed cause => exact finish ((synced.trans (failure after _ _)).of_calm (by simp))
      | done value => exact finish ((synced.trans (success after)).of_calm (by simp))
    · exact finish ((success work.stage).of_calm (by simp))

theorem further_process (request : Request) (writer : Writer) (stage : Stage σ π) :
    writer.Further (env.process request writer stage).writer := by
  unfold process
  split
  · exact .refl writer
  · split
    · exact .refl writer
    · split
      · exact .refl writer
      · exact env.further_carryOut request _ writer stage

/-- Whatever becomes of a request, all its buffers are let go, the calls made for it are at the
cursor or behind it, and it is only without a reply if something crashed. -/
theorem effect_process (request : Request) (writer : Writer) (stage : Stage σ π) :
    env.Effect writer.cursor request.buffers ((env.process request writer stage).reply? = none)
      stage (env.process request writer stage).stage := by
  unfold process
  split
  · exact env.effect_refuse _ request _ writer stage
  · split
    · exact env.effect_refuse _ request _ writer stage
    · split
      · have crash := (Effect.crash env writer.cursor stage).trans
          (env.effect_releaseAll writer.cursor request.buffers _)
        exact crash.mono (Nat.le_refl _) fun _ => .inl trivial
      · exact env.effect_carryOut request _ writer stage

end Surroundings

/-! ## Pools that never crash -/

def Pool.Calm (pool : Pool π) : Prop :=
  ∀ state number segment, (pool.reclaim state number segment).1 = false

/-- Pools that take every segment back. -/
def Pool.quiet : Pool Unit where
  reclaim _ _ _ := (false, ())

theorem Pool.calm_quiet : Pool.quiet.Calm := fun _ _ _ => rfl

namespace Surroundings

variable {env : Surroundings σ π}

theorem calm_release (calm : env.Calm) (buffer : Buffer) (stage : Stage σ π) :
    (env.release buffer stage).1 = false := by
  unfold Pool.release Pool.giveBack
  cases buffer.owner with
  | nobody => rfl
  | pool number => exact calm _ _ _

theorem calm_releaseAll (calm : env.Calm) (buffers : List Buffer) (stage : Stage σ π) :
    (env.releaseAll buffers stage).1 = false := by
  induction buffers generalizing stage with
  | nil => rfl
  | cons buffer rest ih =>
    simp only [Pool.releaseAll, calm_release calm, ih, Bool.or_self]

end Surroundings
end Spillway
