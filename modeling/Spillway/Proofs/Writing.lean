import Spillway.Proofs.Effect
import Spillway.Proofs.Files
/-!
What writing leaves in a file that writes faithfully. A transfer, a batch and a whole request leave
so many bytes of the joined frames behind the cursor as the file took in all, and the cursor moves on
by those frames that are whole.
-/

namespace Spillway

variable {σ π : Type}

/-- The bytes that a write took, as far as it says so. -/
def Call.taken : Call → Nat
  | .write _ _ (.done n) => n
  | _ => 0

/-- The bytes that were taken by some calls in all. -/
def takenBy (calls : List Call) : Nat := Word.total (calls.map Call.taken)

/-- A write that ends the request it is made for: it fails, other than by being interrupted, or it
takes nothing. -/
def Call.endsWriting : Call → Bool
  | .write _ _ (.done n) => n == 0
  | .write _ _ (.failed failure) => failure.cause != .interrupted
  | _ => false

/-- The file was not called. -/
structure Stage.Untouched (before after : Stage σ π) : Prop where
  file : after.file = before.file
  calls : after.calls = before.calls

/-- Calls were made which wrote `part` at `offset`, and kept what was before it. -/
structure Stage.Wrote (bytes : σ → List UInt8) (offset : Nat) (part : List UInt8)
    (calls : List Call) (before after : Stage σ π) : Prop where
  calls_eq : after.calls = before.calls ++ calls
  taken_eq : takenBy calls = part.length
  there : part <+: (bytes after.file).drop offset
  kept : (bytes before.file).take offset <+: bytes after.file

/-- Calls were made which wrote the first `n` bytes of `all` at `offset`. If this is done, these are
all bytes and no write ended it before; if it failed, there are more, and the last write ended it. -/
structure Stage.Writing (bytes : σ → List UInt8) (offset : Nat) (all : List UInt8) (n : Nat)
    (calls : List Call) (before after : Stage σ π) (done failed : Prop) : Prop where
  wrote : before.Wrote bytes offset (all.take n) calls after
  le_length : n ≤ all.length
  of_done : done → n = all.length ∧ ∀ call ∈ calls, call.endsWriting = false
  of_failed : failed → n < all.length ∧ ∃ front last, calls = front ++ [last] ∧
    (∀ call ∈ front, call.endsWriting = false) ∧ last.endsWriting = true

@[simp] theorem takenBy_nil : takenBy [] = 0 := rfl

@[simp] theorem takenBy_append (calls later : List Call) :
    takenBy (calls ++ later) = takenBy calls + takenBy later := by
  simp [takenBy]

theorem calls_record_called (stage : Stage σ π) (call : Call) :
    (stage.record (.called call)).calls = stage.calls ++ [call] := by
  simp [Stage.calls, Stage.events, Stage.record]

theorem mem_calls_iff {stage : Stage σ π} {call : Call} :
    call ∈ stage.calls ↔ .called call ∈ stage.journal := by
  simp only [Stage.calls, Stage.events, List.mem_filterMap, List.mem_reverse]
  constructor
  · rintro ⟨event, member, called⟩
    cases event with
    | called other =>
      cases called
      exact member
    | released _ _ _ | counted _ _ | noted _ | replied _ _ | crashed => cases called
  · intro member
    exact ⟨_, member, rfl⟩

namespace Store

variable {store : Store σ} {stage after : Stage σ π}

/-- A write is made on the file as it is, and is the next call. -/
theorem called_writeOn {slices : List Extent} {position : Nat} {answer : Answer Nat}
    (call : store.writeOn slices position stage = (answer, after)) :
    store.write stage.file slices position = (answer, after.file) ∧
      after.calls = stage.calls ++ [.write position slices answer] := by
  cases call
  exact ⟨rfl, calls_record_called _ _⟩

theorem called_truncateOn {length : Nat} {answer : Answer Unit}
    (call : store.truncateOn length stage = (answer, after)) :
    store.truncate stage.file length = (answer, after.file) ∧
      after.calls = stage.calls ++ [.truncate length answer] := by
  cases call
  exact ⟨rfl, calls_record_called _ _⟩

theorem called_syncOn {answer : Answer Unit} (call : store.syncOn stage = (answer, after)) :
    store.sync stage.file = (answer, after.file) ∧ after.calls = stage.calls ++ [.sync answer] := by
  cases call
  exact ⟨rfl, calls_record_called _ _⟩

end Store

namespace Stage.Untouched

variable {before between after : Stage σ π}

theorem refl (stage : Stage σ π) : stage.Untouched stage := ⟨rfl, rfl⟩

theorem trans (first : before.Untouched between) (second : between.Untouched after) :
    before.Untouched after :=
  ⟨second.file.trans first.file, second.calls.trans first.calls⟩

theorem note (stage : Stage σ π) (notice : Notice) : stage.Untouched (stage.note notice) :=
  ⟨rfl, by simp [Stage.note, Stage.calls, Stage.events, Stage.record]⟩

theorem count (stage : Stage σ π) (instrument : Instrument) (amount : Nat) :
    stage.Untouched (stage.count instrument amount) :=
  ⟨rfl, by simp [Stage.count, Stage.calls, Stage.events, Stage.record]⟩

theorem reply (stage : Stage σ π) (ticket : Nat) (reply : Reply) :
    stage.Untouched (stage.reply ticket reply) :=
  ⟨rfl, by simp [Stage.reply, Stage.calls, Stage.events, Stage.record]⟩

theorem release (pool : Pool π) (buffer : Buffer) (stage : Stage σ π) :
    stage.Untouched (pool.release buffer stage).2 := by
  unfold Pool.release Pool.giveBack
  cases buffer.owner with
  | nobody => exact ⟨rfl, by simp [Stage.calls, Stage.events, Stage.record]⟩
  | pool number =>
    simp only
    split <;> exact ⟨rfl, by simp [Stage.calls, Stage.events, Stage.record, Stage.crash]⟩

theorem releaseAll (pool : Pool π) (buffers : List Buffer) (stage : Stage σ π) :
    stage.Untouched (pool.releaseAll buffers stage).2 := by
  induction buffers generalizing stage with
  | nil => exact .refl stage
  | cons buffer rest ih => exact (release pool buffer stage).trans (ih _)

theorem countFailure (stage : Stage σ π) (request : Request) (start bytes : Nat)
    (error : SpillError) : stage.Untouched (stage.countFailure request start bytes error) :=
  (count stage _ _).trans (note _ _)

theorem countSuccess (stage : Stage σ π) (request : Request) :
    stage.Untouched (stage.countSuccess request) :=
  ((count stage _ _).trans (count _ _ _)).trans (count _ _ _)

end Stage.Untouched

namespace Stage.Wrote

variable {bytes : σ → List UInt8} {offset : Nat} {part next : List UInt8}
  {calls later : List Call} {before between after : Stage σ π}

theorem of_untouched (untouched : before.Untouched after) (bytes : σ → List UInt8)
    (offset : Nat) : before.Wrote bytes offset [] [] after :=
  ⟨by rw [untouched.calls, List.append_nil], rfl, List.nil_prefix,
    by rw [untouched.file]; exact List.take_prefix _ _⟩

theorem trans (first : before.Wrote bytes offset part calls between)
    (second : between.Wrote bytes (offset + part.length) next later after) :
    before.Wrote bytes offset (part ++ next) (calls ++ later) after where
  calls_eq := by rw [second.calls_eq, first.calls_eq, List.append_assoc]
  taken_eq := by rw [takenBy_append, first.taken_eq, second.taken_eq, List.length_append]
  there := append_prefix_drop_iff.mpr
    ⟨prefix_drop_of_take first.there (Nat.le_refl _) second.kept, second.there⟩
  kept := take_prefix_trans first.kept second.kept (Nat.le_add_right _ _)

theorem trans_untouched (first : before.Wrote bytes offset part calls between)
    (second : between.Untouched after) : before.Wrote bytes offset part calls after := by
  have both := first.trans (of_untouched second bytes _)
  rwa [List.append_nil, List.append_nil] at both

theorem untouched_trans (first : before.Untouched between)
    (second : between.Wrote bytes offset part calls after) :
    before.Wrote bytes offset part calls after :=
  (of_untouched first bytes offset).trans second

/-- What is written at the end of a file follows what is in it. -/
theorem appended (wrote : before.Wrote bytes offset part calls after)
    (last : (bytes before.file).length = offset) : bytes before.file ++ part <+: bytes after.file := by
  obtain ⟨-, -, ⟨rest, there⟩, kept⟩ := wrote
  rw [← last, List.take_length] at kept
  obtain ⟨behind, joined⟩ := kept
  rw [← last, ← joined, List.drop_left] at there
  exact ⟨rest, by rw [List.append_assoc, there, joined]⟩

end Stage.Wrote

namespace Stage.Writing

variable {bytes : σ → List UInt8} {offset n : Nat} {part rest : List UInt8}
  {calls later : List Call} {before between after : Stage σ π} {done failed : Prop}

/-- Writing that goes on behind a part which is written. -/
theorem behind (first : before.Wrote bytes offset part calls between)
    (quiet : ∀ call ∈ calls, call.endsWriting = false)
    (second : between.Writing bytes (offset + part.length) rest n later after done failed) :
    before.Writing bytes offset (part ++ rest) (part.length + n) (calls ++ later) after done
      failed where
  wrote := by
    rw [List.take_length_add_append]
    exact first.trans second.wrote
  le_length := by
    have le := second.le_length
    rw [List.length_append]
    omega
  of_done finished := by
    obtain ⟨all, silent⟩ := second.of_done finished
    exact ⟨by rw [all, List.length_append], List.forall_mem_append.mpr ⟨quiet, silent⟩⟩
  of_failed fails := by
    obtain ⟨less, front, last, rfl, silent, ends⟩ := second.of_failed fails
    refine ⟨?_, calls ++ front, last, (List.append_assoc _ _ _).symm, ?_, ends⟩
    · rw [List.length_append]
      omega
    · exact List.forall_mem_append.mpr ⟨quiet, silent⟩

theorem trans_untouched (writing : before.Writing bytes offset rest n calls between done failed)
    (untouched : between.Untouched after) :
    before.Writing bytes offset rest n calls after done failed :=
  ⟨writing.wrote.trans_untouched untouched, writing.le_length, writing.of_done,
    writing.of_failed⟩

theorem untouched_trans (first : before.Untouched between)
    (writing : between.Writing bytes offset rest n calls after done failed) :
    before.Writing bytes offset rest n calls after done failed :=
  ⟨.untouched_trans first writing.wrote, writing.le_length, writing.of_done, writing.of_failed⟩

theorem mono {done' failed' : Prop}
    (writing : before.Writing bytes offset rest n calls after done failed)
    (weaker : done' → done) (weaker' : failed' → failed) :
    before.Writing bytes offset rest n calls after done' failed' :=
  ⟨writing.wrote, writing.le_length, fun finished => writing.of_done (weaker finished),
    fun fails => writing.of_failed (weaker' fails)⟩

theorem of_untouched (untouched : before.Untouched after) (bytes : σ → List UInt8)
    (offset : Nat) (never : ¬ failed) : before.Writing bytes offset [] 0 [] after done failed :=
  ⟨.of_untouched untouched bytes offset, Nat.le_refl _, fun _ => ⟨rfl, by simp⟩,
    fun fails => absurd fails never⟩

/-- A write ends the writing before anything is taken. -/
theorem of_ended {call : Call} (wrote : before.Wrote bytes offset [] [call] after)
    (some : rest ≠ []) (ends : call.endsWriting = true) (never : ¬ done) :
    before.Writing bytes offset rest 0 [call] after done failed :=
  ⟨wrote, Nat.zero_le _, fun finished => absurd finished never,
    fun _ => ⟨List.length_pos_iff.mpr some, [], call, rfl, by simp, ends⟩⟩

/-- What was not begun does not matter to writing that has ended before. -/
theorem append (writing : before.Writing bytes offset rest n calls after done failed)
    (never : ¬ done) (more : List UInt8) :
    before.Writing bytes offset (rest ++ more) n calls after done failed where
  wrote := by
    rw [List.take_append_of_le_length writing.le_length]
    exact writing.wrote
  le_length := by
    have le := writing.le_length
    rw [List.length_append]
    omega
  of_done finished := absurd finished never
  of_failed fails := by
    obtain ⟨less, ended⟩ := writing.of_failed fails
    exact ⟨by rw [List.length_append]; omega, ended⟩

end Stage.Writing

/-- A transfer goes on behind what a write took. -/
theorem Store.transferFrom_took {store : Store σ} {offset before taken n : Nat}
    {slices : List Extent} {stage : Stage σ π} (nonzero : n ≠ 0)
    (most : n ≤ Extent.totalSize slices) (inside : offset + taken < Word.span)
    (counted : before + taken + n < Word.span)
    (took : (store.write stage.file slices (offset + taken)).1 = .done n) :
    store.transferFrom offset before slices taken stage =
      store.transferFrom offset before (Extent.advance n slices) (taken + n)
        (store.writeOn slices (offset + taken) stage).2 := by
  have found := Word.add?_eq_some_iff.mpr ⟨rfl, inside⟩
  have whole : Word.add? (before + taken) n = some (before + taken + n) :=
    Word.add?_eq_some_iff.mpr ⟨rfl, counted⟩
  have call : store.writeOn slices (offset + taken) stage =
      (.done n, (store.writeOn slices (offset + taken) stage).2) := Prod.ext took rfl
  rw [store.transferFrom_write (by omega) found call]
  simp only [if_neg nonzero, whole, Option.isNone_some, Bool.false_eq_true, if_false,
    if_neg (Nat.not_lt.mpr most)]

theorem Store.transferFrom_failed {store : Store σ} {offset before taken : Nat}
    {slices : List Extent} {stage : Stage σ π} {failure : Failure}
    (some : Extent.totalSize slices ≠ 0) (inside : offset + taken < Word.span)
    (fatal : failure.cause ≠ .interrupted)
    (failed : (store.write stage.file slices (offset + taken)).1 = .failed failure) :
    store.transferFrom offset before slices taken stage =
      ⟨.failed failure, before + taken, (store.writeOn slices (offset + taken) stage).2⟩ := by
  have found := Word.add?_eq_some_iff.mpr ⟨rfl, inside⟩
  have call : store.writeOn slices (offset + taken) stage =
      (.failed failure, (store.writeOn slices (offset + taken) stage).2) := Prod.ext failed rfl
  rw [store.transferFrom_write some found call]
  simp only [if_neg fatal]

/-- A transfer is done when the first write takes everything. -/
theorem Store.transfer_whole {store : Store σ} {slices : List Extent} {offset written : Nat}
    {stage : Stage σ π} (some : Extent.totalSize slices ≠ 0) (inside : offset < Word.span)
    (counted : written + Extent.totalSize slices < Word.span)
    (took : (store.write stage.file slices offset).1 = .done (Extent.totalSize slices)) :
    store.transfer slices offset written stage =
      ⟨.done (), written + Extent.totalSize slices, (store.writeOn slices offset stage).2⟩ := by
  rw [Store.transfer, transferFrom_took some (Nat.le_refl _) inside counted took]
  rw [Store.transferFrom, if_pos (by simp [Extent.totalSize_advance]), Nat.zero_add, Nat.add_zero]

namespace Store.Writes

variable {store : Store σ} {bytes : σ → List UInt8}

theorem wrote_writeOn (writes : store.Writes bytes) {slices : List Extent} {position n : Nat}
    {stage after : Stage σ π} (call : store.writeOn slices position stage = (.done n, after)) :
    stage.Wrote bytes position ((slices.flatMap Extent.toList).take n)
      [.write position slices (.done n)] after := by
  obtain ⟨wrote, called⟩ := called_writeOn call
  obtain ⟨most, there⟩ := writes.done stage.file slices position n _ wrote
  have kept := writes.keeps stage.file slices position (by simp [wrote])
  rw [Extent.totalSize_eq] at most
  rw [wrote] at kept
  refine ⟨called, ?_, there, kept⟩
  rw [List.length_take, Nat.min_eq_left most]
  rfl

theorem wrote_writeOn_failed (writes : store.Writes bytes) {slices : List Extent}
    {position : Nat} {failure : Failure} {stage after : Stage σ π}
    (call : store.writeOn slices position stage = (.failed failure, after)) :
    stage.Wrote bytes position [] [.write position slices (.failed failure)] after := by
  obtain ⟨wrote, called⟩ := called_writeOn call
  have kept := writes.keeps stage.file slices position (by simp [wrote])
  rw [wrote] at kept
  exact ⟨called, rfl, List.nil_prefix, kept⟩

/-- A transfer that does not crash writes as much as it counts. -/
theorem writing_transferFrom (writes : store.Writes bytes) (offset before : Nat)
    (slices : List Extent) (taken : Nat) (stage : Stage σ π)
    (calm : (store.transferFrom offset before slices taken stage).finish ≠ .crashed) :
    ∃ n calls,
      (store.transferFrom offset before slices taken stage).written = before + taken + n ∧
      stage.Writing bytes (offset + taken) (slices.flatMap Extent.toList) n calls
        (store.transferFrom offset before slices taken stage).stage
        ((store.transferFrom offset before slices taken stage).finish = .done ())
        (∃ failure,
          (store.transferFrom offset before slices taken stage).finish = .failed failure) := by
  -- What the calls so far wrote lies right before what is left of the slices, at `offset + taken`.
  fun_induction store.transferFrom offset before slices taken stage with
  | case1 slices taken stage none =>
    rw [Extent.totalSize_eq] at none
    refine ⟨0, [], rfl, ?_⟩
    rw [List.length_eq_zero_iff.mp none]
    exact .of_untouched (.refl stage) bytes _ (by simp)
  | case2 slices taken stage some overflow => exact absurd rfl calm
  | case3 slices taken stage some position found after call => exact absurd rfl calm
  | case4 slices taken stage some position found failure after call interrupted ih =>
    obtain ⟨n, calls, written, rest⟩ := ih calm
    obtain ⟨rfl, -⟩ := Word.add?_eq_some_iff.mp found
    have quiet : ∀ c ∈ [Call.write (offset + taken) slices (.failed failure)],
        c.endsWriting = false := by
      simp [Call.endsWriting, interrupted]
    have both := Stage.Writing.behind (writes.wrote_writeOn_failed call) quiet rest
    exact ⟨n, _, written, by simpa using both⟩
  | case5 slices taken stage some position found failure after call fatal =>
    obtain ⟨rfl, -⟩ := Word.add?_eq_some_iff.mp found
    rw [Extent.totalSize_eq, List.length_eq_zero_iff] at some
    exact ⟨0, _, rfl, .of_ended (writes.wrote_writeOn_failed call) some (by simpa [Call.endsWriting] using fatal)
      (by simp)⟩
  | case6 slices taken stage some position found after call =>
    obtain ⟨rfl, -⟩ := Word.add?_eq_some_iff.mp found
    rw [Extent.totalSize_eq, List.length_eq_zero_iff] at some
    exact ⟨0, _, rfl, .of_ended (writes.wrote_writeOn call) some rfl (by simp)⟩
  | case7 slices taken stage some position found n after call nonzero overflow =>
    exact absurd rfl calm
  | case8 slices taken stage some position found n after call nonzero counted overclaimed =>
    exact absurd rfl calm
  | case9 slices taken stage some position found n after call nonzero counted within ih =>
    obtain ⟨more, calls, written, rest⟩ := ih calm
    obtain ⟨rfl, -⟩ := Word.add?_eq_some_iff.mp found
    have first := writes.wrote_writeOn call
    have length : ((slices.flatMap Extent.toList).take n).length = n := by
      rw [List.length_take, ← Extent.totalSize_eq]
      omega
    have quiet : ∀ c ∈ [Call.write (offset + taken) slices (.done n)],
        c.endsWriting = false := by
      simpa [Call.endsWriting] using nonzero
    rw [Extent.flatMap_advance, ← Nat.add_assoc] at rest
    have both := Stage.Writing.behind first quiet (by rw [length]; exact rest)
    rw [List.take_append_drop, length] at both
    exact ⟨n + more, _, by rw [written]; omega, both⟩

end Store.Writes

/-- A writer has moved on by so many bytes, and is as it was otherwise. -/
structure Writer.Moves (writer after : Writer) (bytes : Nat) : Prop where
  settings : after.settings = writer.settings
  poisoned : after.poisoned = writer.poisoned
  cursor : after.cursor = writer.cursor + bytes
  progress : writer.progress.cursor = writer.cursor → after.progress.cursor = after.cursor

theorem Writer.Moves.refl (writer : Writer) : writer.Moves writer 0 := ⟨rfl, rfl, rfl, id⟩

theorem Writer.moves_advance (writer : Writer) (bytes : Nat) :
    writer.Moves (writer.advance bytes) bytes := ⟨rfl, rfl, rfl, fun _ => rfl⟩

theorem Writer.Moves.trans {writer between after : Writer} {bytes more : Nat}
    (first : writer.Moves between bytes) (second : between.Moves after more) :
    writer.Moves after (bytes + more) where
  settings := second.settings.trans first.settings
  poisoned := second.poisoned.trans first.poisoned
  cursor := by rw [second.cursor, first.cursor, Nat.add_assoc]
  progress same := second.progress (first.progress same)

namespace Surroundings

variable {env : Surroundings σ π} {bytes : σ → List UInt8}

theorem untouched_commit (written committed : Nat) (batch : List Buffer) (stage : Stage σ π) :
    stage.Untouched (env.commit written committed batch stage).stage := by
  rw [(env.commit_releases written committed batch stage).2]
  exact .releaseAll env.toPool batch stage

/-- A commit counts the whole frames within what is written. -/
theorem bytes_commit (written committed : Nat) (batch : List Buffer) (stage : Stage σ π)
    (calm : (env.commit written committed batch stage).crashed = false)
    (ahead : committed ≤ written) :
    (env.commit written committed batch stage).bytes =
      committed + framesSize (batch.take (wholeWithin (written - committed) batch)) := by
  fun_induction env.commit written committed batch stage with
  | case1 committed stage => rfl
  | case2 committed buffer rest stage short dropped =>
    rw [wholeWithin, if_pos (by omega)]
    rfl
  | case3 committed buffer rest stage whole released crashed => cases calm
  | case4 committed buffer rest stage whole released quiet ih =>
    have left : written - committed - buffer.frameSize =
        written - (committed + buffer.frameSize) := by omega
    rw [ih calm (by omega), wholeWithin, if_neg (by omega), List.take_succ_cons, framesSize_cons,
      left, Nat.add_assoc]

theorem untouched_settleBatch (batch : List Buffer) (written : Nat) (outcome : Outcome)
    (writer : Writer) (stage : Stage σ π) :
    stage.Untouched (env.settleBatch batch written outcome writer stage).stage := by
  simp only [settleBatch]
  split
  · exact untouched_commit written 0 batch stage
  · exact (untouched_commit written 0 batch stage).trans (.count _ _ _)

theorem outcome_settleBatch (batch : List Buffer) (written : Nat) (outcome : Outcome)
    (writer : Writer) (stage : Stage σ π) :
    (env.settleBatch batch written outcome writer stage).outcome = outcome ∨
      (env.settleBatch batch written outcome writer stage).outcome = .crashed := by
  simp only [settleBatch]
  split
  · exact .inr rfl
  · exact .inl rfl

/-- A batch is settled by the whole frames within what is written, unless a pool crashes. -/
theorem moves_settleBatch (batch : List Buffer) (written : Nat) (outcome : Outcome)
    (writer : Writer) (stage : Stage σ π)
    (calm : (env.settleBatch batch written outcome writer stage).outcome ≠ .crashed) :
    stage.Untouched (env.settleBatch batch written outcome writer stage).stage ∧
      (env.settleBatch batch written outcome writer stage).outcome = outcome ∧
      writer.Moves (env.settleBatch batch written outcome writer stage).writer
        (framesSize (batch.take (wholeWithin written batch))) := by
  have committed := env.bytes_commit written 0 batch stage
  simp only [settleBatch] at calm ⊢
  split at calm
  · exact absurd rfl calm
  · rename_i quiet
    rw [if_neg quiet, committed (by simpa using quiet) (Nat.zero_le _), Nat.zero_add]
    exact ⟨(untouched_commit written 0 batch stage).trans (.count _ _ _), rfl,
      writer.moves_advance _⟩

/-- A batch that has been written as far as the file takes it is settled by what it took. -/
theorem writing_settleBatch {batch : List Buffer} {n : Nat} {outcome : Outcome} {writer : Writer}
    {calls : List Call} {before between : Stage σ π} {done failed : Prop}
    (writing : before.Writing bytes writer.cursor (batch.flatMap Buffer.framed) n calls between done
      failed)
    (of_done : outcome = .done → done) (of_failed : (∃ error, outcome = .failed error) → failed)
    (calm : (env.settleBatch batch n outcome writer between).outcome ≠ .crashed) :
    before.Writing bytes writer.cursor (batch.flatMap Buffer.framed) n calls
        (env.settleBatch batch n outcome writer between).stage
        ((env.settleBatch batch n outcome writer between).outcome = .done)
        (∃ error, (env.settleBatch batch n outcome writer between).outcome = .failed error) ∧
      writer.Moves (env.settleBatch batch n outcome writer between).writer
        (framesSize (batch.take (wholeWithin n batch))) := by
  obtain ⟨untouched, same, moves⟩ := moves_settleBatch batch n outcome writer between calm
  rw [same]
  exact ⟨(writing.trans_untouched untouched).mono of_done of_failed, moves⟩

theorem writing_writeBatch (writes : env.Writes bytes) {batch : List Buffer}
    (framable : Framable batch) (writer : Writer) (stage : Stage σ π)
    (calm : (env.writeBatch batch writer stage).outcome ≠ .crashed) :
    ∃ n calls,
      stage.Writing bytes writer.cursor (batch.flatMap Buffer.framed) n calls
        (env.writeBatch batch writer stage).stage
        ((env.writeBatch batch writer stage).outcome = .done)
        (∃ error, (env.writeBatch batch writer stage).outcome = .failed error) ∧
      writer.Moves (env.writeBatch batch writer stage).writer
        (framesSize (batch.take (wholeWithin n batch))) := by
  obtain ⟨frames, encoded, joined⟩ := encode_batch framable
  have moved := writes.writing_transferFrom writer.cursor 0 (frames.flatMap Frame.slices) 0 stage
  unfold writeBatch at calm ⊢
  rw [encoded] at calm ⊢
  simp only [Store.transfer] at calm ⊢
  rw [joined] at moved
  generalize env.transferFrom writer.cursor 0 (frames.flatMap Frame.slices) 0 stage = transfer
    at moved calm ⊢
  have noted := Stage.Untouched.note transfer.stage
    (.wrote transfer.written batch.length writer.cursor)
  cases finish : transfer.finish with
  | crashed => simp [finish] at calm
  | failed failure =>
    obtain ⟨n, calls, written, writing⟩ := moved (by simp [finish])
    rw [Nat.add_zero, Nat.zero_add] at written
    simp only [finish, written] at calm noted ⊢
    exact ⟨n, calls, writing_settleBatch (writing.trans_untouched noted) (by simp)
      (fun _ => ⟨failure, finish⟩) calm⟩
  | done value =>
    obtain ⟨n, calls, written, writing⟩ := moved (by simp [finish])
    rw [Nat.add_zero, Nat.zero_add] at written
    simp only [finish, written] at calm noted ⊢
    exact ⟨n, calls, writing_settleBatch (writing.trans_untouched noted) (fun _ => finish)
      (by simp) calm⟩

theorem writing_writeBatches (writes : env.Writes bytes) {batches : List (List Buffer)}
    (framable : Framable batches.flatten) (writer : Writer) (stage : Stage σ π)
    (calm : (env.writeBatches batches writer stage).outcome ≠ .crashed) :
    ∃ n calls,
      stage.Writing bytes writer.cursor (batches.flatten.flatMap Buffer.framed) n calls
        (env.writeBatches batches writer stage).stage
        ((env.writeBatches batches writer stage).outcome = .done)
        (∃ error, (env.writeBatches batches writer stage).outcome = .failed error) ∧
      writer.Moves (env.writeBatches batches writer stage).writer
        (framesSize (batches.flatten.take (wholeWithin n batches.flatten))) := by
  fun_induction env.writeBatches batches writer stage with
  | case1 writer stage =>
    exact ⟨0, [], .of_untouched (.refl stage) bytes _ (by simp), .refl writer⟩
  | case2 batch later writer stage work done ih =>
    rw [List.flatten_cons] at framable ⊢
    have first := framable.left
    obtain ⟨n, calls, writing, moves⟩ :=
      writing_writeBatch writes first writer stage (by rw [done]; simp)
    obtain ⟨more, rest, writing', moves'⟩ := ih framable.right calm
    -- The batch is in the file as a whole, so the next one begins where its frames end.
    obtain ⟨all, quiet⟩ := writing.of_done done
    have wrote := writing.wrote
    rw [all, List.take_length] at wrote
    rw [length_framed_flatMap first] at all
    rw [all, wholeWithin_framesSize, List.take_length] at moves
    rw [moves.cursor, ← length_framed_flatMap first] at writing'
    have both := Stage.Writing.behind wrote quiet writing'
    refine ⟨(batch.flatMap Buffer.framed).length + more, calls ++ rest, ?_, ?_⟩
    · rw [List.flatMap_append]
      exact both
    · rw [length_framed_flatMap first, wholeWithin_append, List.take_length_add_append,
        framesSize_append]
      exact moves.trans moves'
  | case3 batch later writer stage work dropped fails =>
    rw [List.flatten_cons] at framable ⊢
    have first := framable.left
    have quiet : dropped.1 = false := by
      cases crash : dropped.1 with
      | false => rfl
      | true => simp [crash] at calm
    simp only [quiet, Bool.false_eq_true, if_false] at calm ⊢
    obtain ⟨n, calls, writing, moves⟩ := writing_writeBatch writes first writer stage calm
    have failed : ∃ error, work.outcome = .failed error := by
      cases outcome : work.outcome with
      | done => exact absurd outcome fails
      | failed error => exact ⟨error, rfl⟩
      | crashed => exact absurd outcome calm
    -- The failed batch is not whole, so none of the frames behind it counts.
    have less := (writing.of_failed failed).1
    rw [length_framed_flatMap first] at less
    refine ⟨n, calls, ?_, ?_⟩
    · rw [List.flatMap_append]
      exact (writing.append fails _).trans_untouched (.releaseAll env.toPool _ _)
    · rw [wholeWithin_append_of_lt less, List.take_append_of_le_length (wholeWithin_le n batch)]
      exact moves

/-- A transfer to a tidy file that is done leaves nothing behind what it wrote. -/
theorem length_transferFrom (tidy : env.Tidy bytes) (offset before : Nat) (slices : List Extent)
    (taken : Nat) (stage : Stage σ π)
    (done : (env.transferFrom offset before slices taken stage).finish = .done ()) :
    (bytes (env.transferFrom offset before slices taken stage).stage.file).length ≤
      max (bytes stage.file).length (offset + taken + Extent.totalSize slices) := by
  fun_induction env.transferFrom offset before slices taken stage with
  | case1 slices taken stage none => exact Nat.le_max_left _ _
  | case2 slices taken stage some overflow => cases done
  | case3 slices taken stage some position found after call => cases done
  | case4 slices taken stage some position found failure after call interrupted ih =>
    obtain ⟨rfl, -⟩ := Word.add?_eq_some_iff.mp found
    obtain ⟨cause, text⟩ := failure
    cases interrupted
    have rest := ih done
    have wrote := (Store.called_writeOn call).1
    have first := tidy.write stage.file slices (offset + taken)
      (.inr ⟨text, congrArg Prod.fst wrote⟩)
    rw [wrote] at first
    exact Nat.le_trans rest (Nat.max_le.mpr ⟨first, Nat.le_max_right _ _⟩)
  | case5 slices taken stage some position found failure after call fatal => cases done
  | case6 slices taken stage some position found after call => cases done
  | case7 slices taken stage some position found n after call nonzero overflow => cases done
  | case8 slices taken stage some position found n after call nonzero counted overclaimed =>
    cases done
  | case9 slices taken stage some position found n after call nonzero counted within ih =>
    obtain ⟨rfl, -⟩ := Word.add?_eq_some_iff.mp found
    have rest := ih done
    have wrote := (Store.called_writeOn call).1
    have first := tidy.write stage.file slices (offset + taken) (.inl ⟨n, congrArg Prod.fst wrote⟩)
    rw [wrote] at first
    have left : offset + (taken + n) + Extent.totalSize (Extent.advance n slices) =
        offset + taken + Extent.totalSize slices := by
      rw [Extent.totalSize_advance]
      omega
    rw [left] at rest
    exact Nat.le_trans rest (Nat.max_le.mpr ⟨first, Nat.le_max_right _ _⟩)

theorem length_writeBatch (tidy : env.Tidy bytes) {batch : List Buffer}
    (framable : Framable batch) (writer : Writer) (stage : Stage σ π)
    (done : (env.writeBatch batch writer stage).outcome = .done) :
    (bytes (env.writeBatch batch writer stage).stage.file).length ≤
      max (bytes stage.file).length (writer.cursor + framesSize batch) := by
  obtain ⟨frames, encoded, joined⟩ := encode_batch framable
  have moved := length_transferFrom tidy writer.cursor 0 (frames.flatMap Frame.slices) 0 stage
  unfold writeBatch at done ⊢
  rw [encoded] at done ⊢
  simp only [Store.transfer] at done ⊢
  rw [Extent.totalSize_eq, joined, length_framed_flatMap framable] at moved
  generalize env.transferFrom writer.cursor 0 (frames.flatMap Frame.slices) 0 stage = transfer
    at moved done ⊢
  cases finish : transfer.finish with
  | crashed => simp [finish] at done
  | failed failure =>
    simp only [finish] at done
    have settled := moves_settleBatch batch _ _ writer _ (by rw [done]; simp)
    rw [done] at settled
    cases settled.2.1
  | done value =>
    simp only [finish] at done ⊢
    have settled := moves_settleBatch batch _ _ writer _ (by rw [done]; simp)
    rw [settled.1.file]
    exact moved finish

theorem length_writeBatches (tidy : env.Tidy bytes) {batches : List (List Buffer)}
    (framable : Framable batches.flatten) (writer : Writer) (stage : Stage σ π)
    (done : (env.writeBatches batches writer stage).outcome = .done) :
    (bytes (env.writeBatches batches writer stage).stage.file).length ≤
      max (bytes stage.file).length (writer.cursor + framesSize batches.flatten) := by
  fun_induction env.writeBatches batches writer stage with
  | case1 writer stage => exact Nat.le_max_left _ _
  | case2 batch later writer stage work finished ih =>
    rw [List.flatten_cons] at framable ⊢
    have first : (bytes work.stage.file).length ≤ _ :=
      length_writeBatch tidy framable.left writer stage finished
    have rest := ih framable.right done
    obtain ⟨n, calls, writing, moves⟩ :=
      writing_writeBatch tidy.toWrites framable.left writer stage (by rw [finished]; simp)
    have all := (writing.of_done finished).1
    rw [length_framed_flatMap framable.left] at all
    rw [all, wholeWithin_framesSize, List.take_length] at moves
    rw [moves.cursor] at rest
    rw [framesSize_append]
    omega
  | case3 batch later writer stage work dropped fails =>
    simp only at done
    split at done
    · cases done
    · exact absurd done fails

end Surroundings
end Spillway
