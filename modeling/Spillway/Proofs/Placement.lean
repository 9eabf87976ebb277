import Mathlib.Data.List.Forall2
import Spillway.Proofs.Reading
import Spillway.Proofs.Session
import Spillway.Proofs.Verdicts
/-!
Entries stay good for ever. When a request is answered, the frame of each of its items is at the offset
of its entry and ends before the writer's cursor. No call that the writer makes from then on is given
an offset or a length below that cursor, so the frame stays where it is, whatever becomes of later
requests, and can be read back at any time.
-/

namespace Spillway

variable {σ π : Type}

/-- The frame of an item is at the offset of its entry, within the first `limit` bytes. -/
structure Entry.Locates (bytes : List UInt8) (limit : Nat) (item : Item) (entry : Entry) : Prop where
  subpartition : entry.subpartition = item.subpartition
  index : entry.index = item.index
  short : item.buffer.size ≤ Header.maxLength
  inside : entry.offset + item.frameSize ≤ limit
  there : item.buffer.framed <+: bytes.drop entry.offset

/-- By a moment of the journal, every request that was answered with entries has its frames where
these say, within the first `limit` bytes of what the file had become by then. -/
def Located (env : Surroundings σ π) (bytes : σ → List UInt8) (file : σ) (submitted : List Request)
    (limit : Nat) (moment : List (Event σ)) : Prop :=
  ∀ ticket entries, .replied ticket (.ok entries) ∈ moment →
    ∃ request, submitted[ticket]? = some request ∧
      List.Forall₂ (Entry.Locates (bytes (env.fileAt file moment)) limit) request.items entries

namespace Entry.Locates

variable {bytes : List UInt8} {limit : Nat} {item : Item} {entry : Entry}

theorem mono (locates : entry.Locates bytes limit item) {high : Nat} (le : limit ≤ high) :
    entry.Locates bytes high item :=
  { locates with inside := Nat.le_trans locates.inside le }

theorem keep (locates : entry.Locates bytes limit item) {after : List UInt8}
    (kept : bytes.take limit <+: after) : entry.Locates after limit item := by
  have inside : entry.offset + item.buffer.framed.length ≤ limit := by
    rw [Buffer.length_framed locates.short]
    exact locates.inside
  exact { locates with there := prefix_drop_of_take locates.there inside kept }

theorem retrievable (locates : entry.Locates bytes limit item) :
    Retrievable bytes entry.offset item.buffer :=
  retrievable_of_framed locates.short locates.there

end Entry.Locates

/-- The entries of items say where their frames are if these lie one behind the other from `start`
on. -/
theorem locates_entriesFrom {bytes : List UInt8} {start limit : Nat} {items : List Item}
    {entries : List Entry} (known : Request.entriesFrom? start items = some entries)
    (framable : Framable (items.map Item.buffer))
    (there : (items.map Item.buffer).flatMap Buffer.framed <+: bytes.drop start)
    (inside : start + framesSize (items.map Item.buffer) ≤ limit) :
    List.Forall₂ (Entry.Locates bytes limit) items entries := by
  induction items generalizing start entries with
  | nil =>
    cases known
    exact .nil
  | cons item rest ih =>
    have short := framable item.buffer List.mem_cons_self
    obtain ⟨-, later, known', rfl⟩ := entriesFrom?_cons.mp known
    rw [List.map_cons, List.flatMap_cons, append_prefix_drop_iff, Buffer.length_framed short] at there
    rw [List.map_cons, framesSize_cons, ← Nat.add_assoc] at inside
    refine .cons ⟨rfl, rfl, short, ?_, there.1⟩ ?_
    · exact Nat.le_trans (Nat.le_add_right _ _) inside
    · exact ih known' (fun buffer member => framable buffer (List.mem_cons_of_mem _ member)) there.2
        inside

/-- A call keeps what is below the offset or the length it is given. -/
theorem Store.Retains.redo {store : Store σ} {bytes : σ → List UInt8} (retains : store.Retains bytes)
    {low : Nat} {call : Call} (above : call.Above low) (file : σ) :
    (bytes file).take low <+: bytes (store.redo file call) := by
  have front := List.take_prefix low (bytes file)
  cases call with
  | write position slices answer =>
    exact take_prefix_trans front (retains.write file slices position) above
  | truncate length answer => exact take_prefix_trans front (retains.truncate file length) above
  | sync answer => exact front.trans (retains.sync file)

namespace Located

variable {env : Surroundings σ π} {bytes : σ → List UInt8} {file : σ} {submitted : List Request}
  {limit : Nat} {moment : List (Event σ)}

theorem mono (located : Located env bytes file submitted limit moment) (more : List Request)
    {high : Nat} (le : limit ≤ high) :
    Located env bytes file (submitted ++ more) high moment := by
  intro ticket entries replied
  obtain ⟨request, found, placed⟩ := located ticket entries replied
  have inside : ticket < submitted.length := (List.getElem?_eq_some_iff.mp found).1
  refine ⟨request, by rw [List.getElem?_append_left inside, found], ?_⟩
  exact placed.imp fun item entry locates => locates.mono le

theorem cons (retains : env.Retains bytes) (located : Located env bytes file submitted limit moment)
    {event : Event σ} (none : ∀ ticket entries, event ≠ .replied ticket (.ok entries))
    (above : ∀ call, event = .called call → call.Above limit) :
    Located env bytes file submitted limit (event :: moment) := by
  intro ticket entries replied
  have earlier : .replied ticket (.ok entries) ∈ moment := by
    rcases List.mem_cons.mp replied with now | before
    · exact absurd now.symm (none ticket entries)
    · exact before
  obtain ⟨request, found, placed⟩ := located ticket entries earlier
  refine ⟨request, found, placed.imp fun item entry locates => ?_⟩
  cases event with
  | called call => exact locates.keep (retains.redo (above call rfl) (env.fileAt file moment))
  | released _ _ _ | counted _ _ | noted _ | replied _ _ | crashed => exact locates

theorem reply_error (retains : env.Retains bytes)
    (located : Located env bytes file submitted limit moment) (ticket : Nat) (error : SpillError) :
    Located env bytes file submitted limit (.replied ticket (.error error) :: moment) := by
  apply located.cons retains
  · intro other entries same
    cases same
  · intro call same
    cases same

theorem note (retains : env.Retains bytes)
    (located : Located env bytes file submitted limit moment) (notice : Notice) :
    Located env bytes file submitted limit (.noted notice :: moment) := by
  apply located.cons retains
  · intro ticket entries same
    cases same
  · intro call same
    cases same

/-- A request is answered with entries that say where its frames are. -/
theorem reply_ok (located : Located env bytes file submitted limit moment) {ticket : Nat}
    {request : Request} {entries : List Entry} (found : submitted[ticket]? = some request)
    (placed : List.Forall₂ (Entry.Locates (bytes (env.fileAt file moment)) limit) request.items
      entries) :
    Located env bytes file submitted limit (.replied ticket (.ok entries) :: moment) := by
  intro other others replied
  rcases List.mem_cons.mp replied with now | before
  · cases now
    exact ⟨request, found, placed⟩
  · exact located other others before

end Located

namespace Surroundings

variable {env : Surroundings σ π} {settings : Settings} {file : σ} {pool : π}
  {bytes : σ → List UInt8}

/-- Work at the limit and behind it keeps every frame. -/
theorem Effect.located {low : Nat} {released : List Buffer} {crashed : Prop}
    {before after : Stage σ π} (effect : env.Effect low released crashed before after)
    (retains : env.Retains bytes) {submitted : List Request}
    (always : AtEveryMoment (Located env bytes file submitted low) before.journal) :
    AtEveryMoment (Located env bytes file submitted low) after.journal := by
  obtain ⟨new, journal, -, -, work, -, -⟩ := effect
  rw [journal]
  refine always.append work fun event older _ isWork located => located.cons retains ?_ ?_
  · rintro ticket entries rfl
    exact isWork
  · rintro call rfl
    exact isWork

/-- A request that is answered with entries has its frames where they say, and the cursor is behind
them. -/
theorem locates_process (retains : env.Retains bytes) (request : Request) (writer : Writer)
    (stage : Stage σ π) (entries : List Entry)
    (answered : (env.process request writer stage).reply? = some (.ok entries)) :
    List.Forall₂ (Entry.Locates (bytes (env.process request writer stage).stage.file)
      (env.process request writer stage).writer.cursor) request.items entries := by
  have settles := env.settles_process (by rw [answered]; rfl)
  generalize env.process request writer stage = verdict at settles answered
  cases settles with
  | poisoned _ _ | refused _ _ _ | cut _ _ _ _ _ _ | stuck _ _ _ => cases answered
  | @written reply after sound accepted done last answer =>
    cases answered
    obtain ⟨cause, failed⟩ | ⟨found, known, same⟩ := answer
    · cases failed
    · cases same
      obtain ⟨calls, wrote, -, moves⟩ := wrote_spill retains.writes accepted done
      have kept : bytes (env.spill request writer stage).stage.file <+: bytes after.file := by
        rcases last with untouched | ⟨answer, -, synced, -⟩
        · exact ⟨[], by rw [untouched.file, List.append_nil]⟩
        · rw [← show (env.sync _).2 = after.file from congrArg Prod.snd synced]
          exact retains.sync _
      apply locates_entriesFrom known (framable_of_refusal accepted)
      · exact prefix_drop_of_take wrote.there (Nat.le_refl _) ((List.take_prefix _ _).trans kept)
      · exact Nat.le_of_eq moves.cursor.symm

theorem located_abandon (retains : env.Retains bytes) {submitted : List Request} {limit : Nat}
    (orders : List Order) {stage : Stage σ π}
    (always : AtEveryMoment (Located env bytes file submitted limit) stage.journal) :
    AtEveryMoment (Located env bytes file submitted limit) (env.abandon orders stage).journal := by
  induction orders generalizing stage with
  | nil => exact always
  | cons order later ih =>
    have dropped := (env.effect_releaseAll limit order.request.buffers stage).located retains always
    refine ih (atEveryMoment_cons.mpr ⟨?_, dropped⟩)
    exact (dropped _ (List.suffix_refl _)).reply_error retains order.ticket .closed

/-- In a session, entries say where the frames are, before the writer's cursor. -/
def EntriesHold (env : Surroundings σ π) (bytes : σ → List UInt8) (file : σ) (s : Session σ π) :
    Prop :=
  AtEveryMoment (Located env bytes file s.submitted s.spooler.writer.cursor) s.stage.journal

theorem entriesHold_hand (retains : env.Retains bytes) {s : Session σ π} (request : Request)
    (hold : env.EntriesHold bytes file s) :
    env.EntriesHold bytes file (env.hand request s) := by
  have grown : AtEveryMoment
      (Located env bytes file (s.submitted ++ [request]) s.spooler.writer.cursor) s.stage.journal :=
    fun moment suffix => (hold moment suffix).mono [request] (Nat.le_refl _)
  have dropped := (env.effect_releaseAll s.spooler.writer.cursor request.buffers s.stage).located
    retains grown
  simp only [EntriesHold, hand, submit]
  split
  · rename_i empty
    refine atEveryMoment_cons.mpr ⟨?_, grown⟩
    have last : (s.submitted ++ [request])[s.submitted.length]? = some request := by simp
    refine (grown _ (List.suffix_refl _)).reply_ok last ?_
    rw [List.isEmpty_iff.mp empty]
    exact .nil
  · split
    · exact grown
    · split
      · exact dropped
      · refine atEveryMoment_cons.mpr ⟨?_, dropped⟩
        exact (dropped _ (List.suffix_refl _)).reply_error retains _ .closed

theorem entriesHold_work (retains : env.Retains bytes) {s : Session σ π} (orderly : s.Orderly)
    (accounts : env.Accounts file pool s.stage) (hold : env.EntriesHold bytes file s) :
    env.EntriesHold bytes file (env.work s) := by
  simp only [EntriesHold, work, step]
  split
  · exact hold
  · rename_i order later queued
    have submitted : s.submitted[order.ticket]? = some order.request :=
      (orderly.submitted_of_queue (by simp [queued])).1
    have placed := locates_process retains order.request s.spooler.writer s.stage
    have effect := env.effect_process order.request s.spooler.writer s.stage
    have further := (env.further_process order.request s.spooler.writer s.stage).cursor
    generalize env.process order.request s.spooler.writer s.stage = verdict
      at placed effect further
    -- All calls were at the old cursor or behind it, so the limit may move on to the new one.
    have processed : AtEveryMoment
        (Located env bytes file s.submitted verdict.writer.cursor) verdict.stage.journal := by
      intro moment suffix
      have located := (effect.located retains hold moment suffix).mono [] further
      rwa [List.append_nil] at located
    have now := processed _ (List.suffix_refl _)
    split
    · rename_i reply answered
      refine atEveryMoment_cons.mpr ⟨?_, processed⟩
      cases reply with
      | error error => exact now.reply_error retains order.ticket error
      | ok entries =>
        have same := placed entries answered
        rw [(effect.accounts accounts).1] at same
        exact now.reply_ok submitted same
    · apply located_abandon retains later
      exact atEveryMoment_cons.mpr ⟨now.reply_error retains order.ticket .closed, processed⟩

theorem Reaches.entriesHold (retains : env.Retains bytes) {s : Session σ π}
    (reached : env.Reaches settings file pool s) : env.EntriesHold bytes file s := by
  apply reached.rule
  · intro spooler stage started
    obtain ⟨cursor, -, rfl, rfl⟩ := spooler_start started
    intro moment suffix ticket entries replied
    have impossible := suffix.mem replied
    simp [Session.fresh, Stage.note, Stage.record, Stage.start] at impossible
  · exact fun s request _ hold => entriesHold_hand retains request hold
  · exact fun s reached hold => entriesHold_work retains reached.orderly reached.accounts hold
  · intro s notice _ hold
    exact atEveryMoment_cons.mpr ⟨(hold _ (List.suffix_refl _)).note retains notice, hold⟩
  · exact fun s _ hold => hold

/-- The file is what its calls made of it, and when a request has been answered with entries, then at
that moment and every later one of the run each of its items can be read back from the offset of its
entry. -/
theorem entries_stay_readable (retains : env.Retains bytes) {s : Session σ π}
    (reached : env.Reaches settings file pool s) :
    s.stage.file = env.fileAt file s.stage.journal ∧
      ∀ moment, moment <:+ s.stage.journal → ∀ ticket entries,
        .replied ticket (.ok entries) ∈ moment → ∃ request, s.submitted[ticket]? = some request ∧
          List.Forall₂ (fun item entry => entry.subpartition = item.subpartition ∧
            entry.index = item.index ∧
            Retrievable (bytes (env.fileAt file moment)) entry.offset item.buffer)
            request.items entries := by
  refine ⟨reached.accounts.1, fun moment suffix ticket entries replied => ?_⟩
  obtain ⟨request, found, placed⟩ := reached.entriesHold retains moment suffix ticket entries replied
  exact ⟨request, found, placed.imp fun item entry locates =>
    ⟨locates.subpartition, locates.index, locates.retrievable⟩⟩

/-- A buffer is spilled to an empty file in memory, and can be read back from its beginning. -/
theorem three_bytes_stay_readable :
    let stage := (inMemory.start .standard (.start ⟨.empty, false⟩ ⟨0, none⟩)).2
    let opened := Session.fresh ⟨.start .standard 0, true, []⟩ stage
    let spilt := inMemory.work (inMemory.hand ⟨[threeBytes]⟩ opened)
    Retrievable spilt.stage.file.contents.toList 0 threeBytes.buffer := by
  intro stage opened spilt
  have reached : inMemory.Reaches .standard ⟨.empty, false⟩ ⟨0, none⟩ spilt :=
    .act .step (.act (.submit _) (.start rfl))
  obtain ⟨file, readable⟩ := entries_stay_readable Memory.retains reached
  obtain ⟨after, processed⟩ := process_threeBytes
  have worked := inMemory.work_of_reply (s := inMemory.hand ⟨[threeBytes]⟩ opened) rfl processed
  have replied : .replied 0 (.ok [⟨7, 0, 0⟩]) ∈ spilt.stage.journal := by
    rw [show spilt = _ from worked]
    exact List.mem_cons_self
  obtain ⟨request, found, placed⟩ := readable _ (List.suffix_refl _) 0 _ replied
  cases found
  cases placed with
  | cons first rest =>
    rw [← file] at first
    exact first.2.2

end Surroundings
end Spillway
