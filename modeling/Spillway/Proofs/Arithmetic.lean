import Spillway.Proofs.Attempts
import Spillway.Proofs.Calls
import Spillway.Proofs.Tearing
/-!
The sums and differences of a writer. For each of its functions there is one that does the same with
every sum and every difference checked, the running ones too, and has no result when one leaves the
64 bits of a word. The lemmas say of each that it has the result of the function that does not check, as
long as the frames end within 64 bits and the file does not claim more than it was offered; up to
`Surroundings.process?_of_room`. Where the frames do not end within 64 bits, the entries have no offsets, and
the writer dies over this before it does anything.
-/

set_option linter.unusedVariables false

namespace Spillway

variable {σ π : Type}

/-! ## Checked functions -/

namespace Word

/-- The difference of two words, unless it is negative. -/
def sub? (a b : Nat) : Option Nat := if b ≤ a then some (a - b) else none

/-- The sum of words, added up from the first on, unless it leaves 64 bits on the way. -/
def sum? (ns : List Nat) : Option Nat := ns.foldlM add? 0

end Word

/-- The length of the buffer once it is framed, unless it leaves 64 bits. -/
def Buffer.frameSize? (buffer : Buffer) : Option Nat := Word.add? Header.width buffer.size

/-- The number of bytes that the request takes once it is written, unless it leaves 64 bits. -/
def Request.framedSize? (request : Request) : Option Nat :=
  (request.items.mapM fun item : Item => item.buffer.frameSize?).bind Word.sum?

/-- The writer after so many bytes of whole frames, unless its cursor leaves 64 bits. -/
def Writer.advance? (writer : Writer) (bytes : Nat) : Option Writer :=
  (Word.add? writer.cursor bytes).map fun cursor =>
    { writer with cursor := cursor, progress := ⟨cursor, writer.progress.written + bytes⟩ }

namespace Store

/-- Transfers what is left of the slices, `remaining` bytes, to a file. The count of written bytes, which
goes on from `written`, stood at `start` when the first byte was written at `offset`. -/
def transferFrom? (store : Store σ) (offset start : Nat) (slices : List Extent)
    (written remaining : Nat) (stage : Stage σ π) : Option (Transfer σ π) :=
  if remaining = 0 then some ⟨.done (), written, stage⟩
  else
    match (Word.sub? written start).bind (Word.add? offset) with
    | none => none
    | some position =>
      match call : store.writeOn slices position stage with
      | (.crashed, after) => some ⟨.crashed, written, after⟩
      | (.failed failure, after) =>
        if failure.cause = .interrupted then
          transferFrom? store offset start slices written remaining after
        else some ⟨.failed failure, written, after⟩
      | (.done n, after) =>
        if n = 0 then some ⟨.failed stalled, written, after⟩
        else
          match Word.add? written n with
          | none => none
          | some written =>
            match less : Word.sub? remaining n with
            | none => none
            | some remaining =>
              transferFrom? store offset start (Extent.advance n slices) written remaining after
termination_by (remaining, store.patience stage.file)
decreasing_by
  · rename_i interrupted
    apply Prod.Lex.right
    simp only [writeOn, Prod.mk.injEq] at call
    have less := store.patience_lt stage.file slices position
      ⟨failure.text, by rw [call.1, ← interrupted]⟩
    rw [← call.2]
    exact less
  · apply Prod.Lex.left
    unfold Word.sub? at less
    split at less
    · cases less
      omega
    · cases less

def transfer? (store : Store σ) (slices : List Extent) (offset written : Nat) (stage : Stage σ π) :
    Option (Transfer σ π) := do
  let remaining ← Word.sum? (slices.map Extent.size)
  store.transferFrom? offset written slices written remaining stage

end Store

namespace Surroundings

variable (env : Surroundings σ π)

/-- Lets the buffers go whose frames lie within the first `written` bytes of a batch, then the rest
of the batch. -/
def commit? (written : Nat) : (committed : Nat) → List Buffer → Stage σ π → Option (Commit σ π)
  | committed, [], stage => some ⟨committed, false, stage⟩
  | committed, buffer :: rest, stage =>
    match buffer.frameSize?.bind (Word.add? committed) with
    | none => none
    | some whole =>
      if written < whole then
        let dropped := env.releaseAll (buffer :: rest) stage
        some ⟨committed, dropped.1, dropped.2⟩
      else
        let released := env.release buffer stage
        if released.1 then some ⟨committed, true, (env.releaseAll rest released.2).2⟩
        else commit? written whole rest released.2

def settleBatch? (batch : List Buffer) (written : Nat) (outcome : Outcome) (writer : Writer)
    (stage : Stage σ π) : Option (Work σ π) := do
  let committed ← env.commit? written 0 batch stage
  if committed.crashed then return ⟨.crashed, writer, committed.stage⟩
  else
    let moved ← writer.advance? committed.bytes
    return ⟨outcome, moved, committed.stage.count .bytesWritten committed.bytes⟩

def writeBatch? (batch : List Buffer) (writer : Writer) (stage : Stage σ π) :
    Option (Work σ π) :=
  match batch.mapM Buffer.encode with
  | .error error =>
    let dropped := env.releaseAll batch stage
    some ⟨if dropped.1 then .crashed else .failed (.frame error), writer, dropped.2⟩
  | .ok frames => do
    let moved ← env.transfer? (frames.flatMap Frame.slices) writer.cursor 0 stage
    let noted := moved.stage.note (.wrote moved.written batch.length writer.cursor)
    match moved.finish with
    | .crashed => some ⟨.crashed, writer, (env.releaseAll batch moved.stage).2⟩
    | .failed failure =>
      env.settleBatch? batch moved.written (.failed (.io failure.cause)) writer noted
    | .done () => env.settleBatch? batch moved.written .done writer noted

def writeBatches? : List (List Buffer) → Writer → Stage σ π → Option (Work σ π)
  | [], writer, stage => some ⟨.done, writer, stage⟩
  | batch :: later, writer, stage =>
    match env.writeBatch? batch writer stage with
    | none => none
    | some work =>
      match work.outcome with
      | .done => writeBatches? later work.writer work.stage
      | outcome =>
        let dropped := env.releaseAll later.flatten work.stage
        some ⟨if dropped.1 then .crashed else outcome, work.writer, dropped.2⟩

def carryOut? (request : Request) (entries : List Entry) (writer : Writer) (stage : Stage σ π) :
    Option (Verdict σ π) := do
  let start := writer.cursor
  let size ← request.framedSize?
  let noted := stage.note (.spilling request.items.length size start)
  let work ← env.writeBatches? (batches writer.settings.framesPerWrite request.buffers) writer noted
  match work.outcome with
  | .crashed => some ⟨none, work.writer, work.stage⟩
  | .failed error =>
    let bytes ← Word.sub? work.writer.cursor start
    let repaired := env.repair work.writer (work.stage.countFailure request start bytes error)
    return ⟨if repaired.1 then none else some (.error error), repaired.2.1, repaired.2.2⟩
  | .done =>
    if work.writer.settings.syncEach then
      match env.syncOn work.stage with
      | (.crashed, after) => return ⟨none, work.writer, after⟩
      | (.failed failure, after) =>
        let error := SpillError.io failure.cause
        let bytes ← Word.sub? work.writer.cursor start
        return ⟨some (.error error), work.writer, after.countFailure request start bytes error⟩
      | (.done (), after) => return ⟨some (.ok entries), work.writer, after.countSuccess request⟩
    else return ⟨some (.ok entries), work.writer, work.stage.countSuccess request⟩

def process? (request : Request) (writer : Writer) (stage : Stage σ π) : Option (Verdict σ π) :=
  if writer.poisoned then some (env.refuse request .poisoned writer stage)
  else
    match request.refusal? with
    | some error => some (env.refuse request (.frame error) writer stage)
    | none => do
      let entries ← request.entries? writer.cursor
      env.carryOut? request entries writer stage

end Surroundings

/-! ## Honest files -/

/-- A call does not claim to have taken more than it was offered. -/
def Event.Honest : Event σ → Prop
  | .called call => call.taken ≤ call.offered
  | _ => True

namespace Grown

variable {P : Event σ → List (Event σ) → Prop} {old between journal : List (Event σ)}

theorem left (grown : Grown P old journal) (behind : old <:+ between) (upTo : between <:+ journal) :
    Grown P old between :=
  ⟨behind, fun event older moment => grown.each event older (moment.trans upTo)⟩

theorem right (grown : Grown P old journal) (behind : old <:+ between) (upTo : between <:+ journal) :
    Grown P between journal :=
  ⟨upTo, fun event older moment since => grown.each event older moment (behind.trans since)⟩

end Grown

/-- If no call that was made claims more than it was offered, neither does any in the journal. -/
theorem exists_calls_honest {before after : Stage σ π} (behind : before.journal <:+ after.journal) :
    ∃ calls, after.calls = before.calls ++ calls ∧
      ((∀ call ∈ calls, call.taken ≤ call.offered) →
        Grown (fun event _ => event.Honest) before.journal after.journal) := by
  obtain ⟨new, joined⟩ := behind
  refine ⟨({ after with journal := new } : Stage σ π).calls, ?_, fun honest => ?_⟩
  · simp only [Stage.calls, Stage.events, ← joined, List.reverse_append, List.filterMap_append]
  · rw [← joined]
    refine Grown.of_new (fun event member older => ?_) before.journal
    cases event with
    | called call => exact honest call (mem_calls_iff.mpr member)
    | released _ _ _ | counted _ _ | noted _ | replied _ _ | crashed => trivial

/-! ## Checks within 64 bits -/

namespace Word

theorem foldlM_add? {start : Nat} {ns : List Nat} (room : start + total ns < span) :
    ns.foldlM add? start = some (start + total ns) := by
  induction ns generalizing start with
  | nil => rfl
  | cons n ns ih =>
    rw [total_cons, ← Nat.add_assoc] at room
    have first : add? start n = some (start + n) := add?_eq_some_iff.mpr ⟨rfl, by omega⟩
    rw [List.foldlM_cons, first, total_cons, ← Nat.add_assoc]
    exact ih room

theorem sum?_of_lt {ns : List Nat} (room : total ns < span) : sum? ns = some (total ns) := by
  have all : ns.foldlM add? 0 = some (0 + total ns) := foldlM_add? (by rwa [Nat.zero_add])
  rwa [Nat.zero_add] at all

theorem sub?_of_le {a b : Nat} (le : b ≤ a) : sub? a b = some (a - b) := if_pos le

/-- How far a count went on from its start, behind an offset. -/
@[simp] theorem add?_sub? (offset start n : Nat) :
    (sub? (start + n) start).bind (add? offset) = add? offset n := by
  rw [sub?_of_le (Nat.le_add_right _ _), Nat.add_sub_cancel_left, Option.bind_some]

end Word

@[simp] theorem Buffer.frameSize?_eq (buffer : Buffer) : buffer.frameSize? = some buffer.frameSize := by
  have size := buffer.size_le
  have capacity := buffer.segment.size_lt
  simp only [Segment.capacity] at size
  refine Word.add?_eq_some_iff.mpr ⟨rfl, ?_⟩
  simp only [frameSize, Header.width, Word.half, Word.span] at *
  omega

theorem Request.framedSize?_of_lt {request : Request} (room : request.framedSize < Word.span) :
    request.framedSize? = some request.framedSize := by
  have sizes : (request.items.mapM fun item : Item => item.buffer.frameSize?) =
      some (request.items.map Item.frameSize) := by
    simp only [Buffer.frameSize?_eq]
    exact List.mapM_pure
  rw [framedSize?, sizes, Option.bind_some, Word.sum?_of_lt room]
  rfl

theorem Writer.advance?_of_lt {writer : Writer} {bytes : Nat}
    (room : writer.cursor + bytes < Word.span) : writer.advance? bytes = some (writer.advance bytes) := by
  rw [advance?, Word.add?_eq_some_iff.mpr ⟨rfl, room⟩]
  rfl

namespace Store

variable {store : Store σ}

theorem transferFrom?_write {offset start : Nat} {slices : List Extent} {written remaining position : Nat}
    {stage after : Stage σ π} {answer : Answer Nat} (left : remaining ≠ 0)
    (found : (Word.sub? written start).bind (Word.add? offset) = some position)
    (call : store.writeOn slices position stage = (answer, after)) :
    store.transferFrom? offset start slices written remaining stage =
      match answer with
      | .crashed => some ⟨.crashed, written, after⟩
      | .failed failure =>
        if failure.cause = .interrupted then
          store.transferFrom? offset start slices written remaining after
        else some ⟨.failed failure, written, after⟩
      | .done n =>
        if n = 0 then some ⟨.failed stalled, written, after⟩
        else
          match Word.add? written n with
          | none => none
          | some written =>
            match Word.sub? remaining n with
            | none => none
            | some remaining =>
              store.transferFrom? offset start (Extent.advance n slices) written remaining after := by
  rw [transferFrom?, if_neg left, found]
  simp only
  split <;> rename_i same <;> rw [call] at same <;> cases same
  · rfl
  · rfl
  · simp only
    congr 1
    split
    · rfl
    · split <;> rename_i less <;> rw [less]

end Store

namespace Surroundings

variable (env : Surroundings σ π)

/-- A write on an honest file takes no more than it was offered, and what comes after it is as honest. -/
theorem honest_write {slices : List Extent} {position : Nat} {stage after last : Stage σ π}
    {answer : Answer Nat} (call : env.writeOn slices position stage = (answer, after))
    (upTo : after.journal <:+ last.journal)
    (honest : Grown (fun event _ => event.Honest) stage.journal last.journal) :
    (∀ n, answer = .done n → n ≤ Extent.totalSize slices) ∧
      Grown (fun event _ => event.Honest) after.journal last.journal := by
  cases call
  refine ⟨fun n done => ?_, honest.right (List.suffix_cons _ _) upTo⟩
  have offered := honest.each _ _ upTo (List.suffix_refl _)
  simpa only [Event.Honest, Call.taken, Call.offered, done] using offered

/-- A transfer whose bytes end within 64 bits, and which is not claimed to have taken more than it
offered, is what it is when its position, its count and what remains of it are checked. -/
theorem transferFrom?_of_room {offset start : Nat} {slices : List Extent} {taken : Nat}
    {stage : Stage σ π} (room : offset + taken + Extent.totalSize slices < Word.span)
    (count : start + taken + Extent.totalSize slices < Word.span)
    (honest : Grown (fun event _ => event.Honest) stage.journal
      (env.transferFrom offset start slices taken stage).stage.journal) :
    env.transferFrom? offset start slices (start + taken) (Extent.totalSize slices) stage =
      some (env.transferFrom offset start slices taken stage) := by
  fun_induction env.transferFrom offset start slices taken stage with
  | case1 slices taken stage none => rw [Store.transferFrom?, if_pos none]
  | case2 slices taken stage some overflow =>
    rw [Word.add?_eq_none_iff] at overflow
    omega
  | case3 slices taken stage some position found after call =>
    rw [Store.transferFrom?_write some ((Word.add?_sub? _ _ _).trans found) call]
  | case4 slices taken stage some position found failure after call interrupted ih =>
    have later := (env.effect_transferFrom offset start slices taken after).suffix
    rw [Store.transferFrom?_write some ((Word.add?_sub? _ _ _).trans found) call]
    simp only [if_pos interrupted]
    exact ih room count (env.honest_write call later honest).2
  | case5 slices taken stage some position found failure after call fatal =>
    rw [Store.transferFrom?_write some ((Word.add?_sub? _ _ _).trans found) call]
    simp only [if_neg fatal]
  | case6 slices taken stage some position found after call =>
    rw [Store.transferFrom?_write some ((Word.add?_sub? _ _ _).trans found) call]
    rfl
  | case7 slices taken stage some position found n after call nonzero overflow =>
    have within := (env.honest_write call (List.suffix_cons _ _) honest).1 n rfl
    rw [Option.isNone_iff_eq_none, Word.add?_eq_none_iff] at overflow
    omega
  | case8 slices taken stage some position found n after call nonzero counted overclaimed =>
    have within := (env.honest_write call (List.suffix_cons _ _) honest).1 n rfl
    omega
  | case9 slices taken stage some position found n after call nonzero counted within ih =>
    have later := (env.effect_transferFrom offset start (Extent.advance n slices) (taken + n)
      after).suffix
    have sum : Word.add? (start + taken) n = Option.some (start + (taken + n)) :=
      Word.add?_eq_some_iff.mpr ⟨Nat.add_assoc _ _ _, by omega⟩
    rw [Extent.totalSize_advance] at ih
    rw [Store.transferFrom?_write some ((Word.add?_sub? _ _ _).trans found) call]
    simp only [if_neg nonzero, sum, Word.sub?_of_le (Nat.not_lt.mp within)]
    exact ih (by omega) (by omega) (env.honest_write call later honest).2

theorem transfer?_of_room {offset : Nat} {slices : List Extent} {stage : Stage σ π}
    (room : offset + Extent.totalSize slices < Word.span)
    (honest : Grown (fun event _ => event.Honest) stage.journal
      (env.transfer slices offset 0 stage).stage.journal) :
    env.transfer? slices offset 0 stage = some (env.transfer slices offset 0 stage) := by
  have size : Word.sum? (slices.map Extent.size) = some (Extent.totalSize slices) :=
    Word.sum?_of_lt (show Extent.totalSize slices < Word.span by omega)
  rw [Store.transfer?, size]
  exact env.transferFrom?_of_room (by omega) (by omega) honest

theorem commit?_of_room (written : Nat) {committed : Nat} {batch : List Buffer}
    (room : committed + framesSize batch < Word.span) (stage : Stage σ π) :
    env.commit? written committed batch stage = some (env.commit written committed batch stage) := by
  have next : ∀ {committed : Nat} {buffer : Buffer}, committed + buffer.frameSize < Word.span →
      buffer.frameSize?.bind (Word.add? committed) = some (committed + buffer.frameSize) := by
    intro committed buffer room
    rw [Buffer.frameSize?_eq, Option.bind_some, Word.add?_eq_some_iff.mpr ⟨rfl, room⟩]
  fun_induction env.commit written committed batch stage with
  | case1 committed stage => rfl
  | case2 committed buffer rest stage short dropped =>
    rw [framesSize_cons] at room
    rw [commit?, next (by omega)]
    exact if_pos short
  | case3 committed buffer rest stage whole released crashed =>
    rw [framesSize_cons] at room
    rw [commit?, next (by omega)]
    simp only [if_neg whole]
    exact if_pos crashed
  | case4 committed buffer rest stage whole released calm ih =>
    rw [framesSize_cons] at room
    rw [commit?, next (by omega)]
    simp only [if_neg whole]
    rw [if_neg calm]
    exact ih (by omega)

theorem bytes_commit_le (written committed : Nat) (batch : List Buffer) (stage : Stage σ π) :
    (env.commit written committed batch stage).bytes ≤ committed + framesSize batch := by
  fun_induction env.commit written committed batch stage with
  | case1 committed stage => exact Nat.le_add_right _ _
  | case2 committed buffer rest stage short dropped => exact Nat.le_add_right _ _
  | case3 committed buffer rest stage whole released crashed => exact Nat.le_add_right _ _
  | case4 committed buffer rest stage whole released calm ih =>
    rw [framesSize_cons, ← Nat.add_assoc]
    exact ih

theorem settleBatch?_of_room {batch : List Buffer} (written : Nat) (outcome : Outcome)
    {writer : Writer} (room : writer.cursor + framesSize batch < Word.span) (stage : Stage σ π) :
    env.settleBatch? batch written outcome writer stage =
      some (env.settleBatch batch written outcome writer stage) := by
  have committed : env.commit? written 0 batch stage = some (env.commit written 0 batch stage) :=
    env.commit?_of_room written (by omega) stage
  have most := env.bytes_commit_le written 0 batch stage
  rw [settleBatch?, committed, settleBatch]
  simp only [Option.bind_eq_bind, Option.bind_some]
  split
  · rfl
  · rw [Writer.advance?_of_lt (by omega)]
    rfl

theorem suffix_writeBatch {batch : List Buffer} {frames : List Frame}
    (encoded : batch.mapM Buffer.encode = .ok frames) (writer : Writer) (stage : Stage σ π) :
    (env.transfer (frames.flatMap Frame.slices) writer.cursor 0 stage).stage.journal <:+
      (env.writeBatch batch writer stage).stage.journal := by
  simp only [writeBatch, encoded]
  generalize env.transfer (frames.flatMap Frame.slices) writer.cursor 0 stage = moved
  have noted := (Effect.note env 0 moved.stage (.wrote moved.written batch.length writer.cursor)).suffix
  cases moved.finish with
  | crashed => exact (env.effect_releaseAll 0 batch moved.stage).suffix
  | failed failure => exact noted.trans (env.effect_settleBatch 0 batch _ _ (by simp) writer _).suffix
  | done value => exact noted.trans (env.effect_settleBatch 0 batch _ _ (by simp) writer _).suffix

/-- A batch whose frames end within 64 bits is written as it is with checks, to a file that is honest
about it. -/
theorem writeBatch?_of_room {batch : List Buffer} (framable : Framable batch) {writer : Writer}
    {stage : Stage σ π} (room : writer.cursor + framesSize batch < Word.span)
    (honest : Grown (fun event _ => event.Honest) stage.journal
      (env.writeBatch batch writer stage).stage.journal) :
    env.writeBatch? batch writer stage = some (env.writeBatch batch writer stage) := by
  obtain ⟨frames, encoded, joined⟩ := encode_batch framable
  have size : Extent.totalSize (frames.flatMap Frame.slices) = framesSize batch := by
    rw [Extent.totalSize_eq, joined, length_framed_flatMap framable]
  have began := (env.effect_transferFrom writer.cursor 0 (frames.flatMap Frame.slices) 0 stage).suffix
  have moved := env.transfer?_of_room (by rwa [size])
    (honest.left began (env.suffix_writeBatch encoded writer stage))
  simp only [writeBatch?, writeBatch, encoded, moved, Option.bind_eq_bind, Option.bind_some]
  cases (env.transfer (frames.flatMap Frame.slices) writer.cursor 0 stage).finish with
  | crashed => rfl
  | failed failure => exact env.settleBatch?_of_room _ _ room _
  | done value => exact env.settleBatch?_of_room _ _ room _

theorem writeBatches?_of_room {batches : List (List Buffer)} (framable : Framable batches.flatten)
    {writer : Writer} {stage : Stage σ π}
    (room : writer.cursor + framesSize batches.flatten < Word.span)
    (honest : Grown (fun event _ => event.Honest) stage.journal
      (env.writeBatches batches writer stage).stage.journal) :
    env.writeBatches? batches writer stage = some (env.writeBatches batches writer stage) := by
  fun_induction env.writeBatches batches writer stage with
  | case1 writer stage => rfl
  | case2 batch later writer stage work done ih =>
    rw [List.flatten_cons] at framable
    rw [List.flatten_cons, framesSize_append] at room
    have first := (env.effect_writeBatch batch writer stage).suffix
    have rest := (env.effect_writeBatches later work.writer work.stage).suffix
    have moves : work.writer.cursor = writer.cursor + framesSize batch :=
      (env.taken_writeBatch framable.left writer stage done).2.cursor
    have written : env.writeBatch? batch writer stage = some work :=
      env.writeBatch?_of_room framable.left (by omega) (honest.left first rest)
    simp only [writeBatches?, written, done]
    exact ih framable.right (by omega) (honest.right first rest)
  | case3 batch later writer stage work dropped fails =>
    rw [List.flatten_cons] at framable
    rw [List.flatten_cons, framesSize_append] at room
    have first := (env.effect_writeBatch batch writer stage).suffix
    have rest := (env.effect_releaseAll 0 later.flatten work.stage).suffix
    have written : env.writeBatch? batch writer stage = some work :=
      env.writeBatch?_of_room framable.left (by omega) (honest.left first rest)
    simp only [writeBatches?, written]
    cases outcome : work.outcome with
    | done => exact absurd outcome fails
    | failed error => rfl
    | crashed => rfl

theorem suffix_carryOut (request : Request) (entries : List Entry) (writer : Writer)
    (stage : Stage σ π) :
    (env.spill request writer stage).stage.journal <:+
      (env.carryOut request entries writer stage).stage.journal := by
  cases outcome : (env.spill request writer stage).outcome with
  | crashed => exact carryOut_of_crashed outcome ▸ List.suffix_refl _
  | failed error =>
    let reported := (env.spill request writer stage).stage.countFailure request writer.cursor
      ((env.spill request writer stage).writer.cursor - writer.cursor) error
    have counted : (env.spill request writer stage).stage.journal <:+ reported.journal := ⟨[_, _], rfl⟩
    rw [carryOut_of_failed outcome]
    exact counted.trans (env.effect_repair _ reported).suffix
  | done =>
    cases each : (env.spill request writer stage).writer.settings.syncEach with
    | false =>
      rw [carryOut_of_done outcome each]
      exact ⟨[_, _, _], rfl⟩
    | true =>
      have synced := (env.effect_syncOn 0 (env.spill request writer stage).stage).suffix
      rw [carryOut_of_sync outcome each]
      generalize env.syncOn (env.spill request writer stage).stage = done at synced
      obtain ⟨answer, after⟩ := done
      cases answer with
      | crashed => exact synced
      | failed failure => exact synced.trans ⟨[_, _], rfl⟩
      | done value => exact synced.trans ⟨[_, _, _], rfl⟩

theorem carryOut?_of_room {request : Request} (accepted : request.refusal? = none)
    (entries : List Entry) {writer : Writer} {stage : Stage σ π}
    (room : writer.cursor + request.framedSize < Word.span)
    (honest : Grown (fun event _ => event.Honest) stage.journal
      (env.carryOut request entries writer stage).stage.journal) :
    env.carryOut? request entries writer stage = some (env.carryOut request entries writer stage) := by
  let noted := stage.note (.spilling request.items.length request.framedSize writer.cursor)
  have all := flatten_batches writer.settings.framesPerWrite request.buffers
  have size := request.framedSize?_of_lt (show request.framedSize < Word.span by omega)
  have first : noted.journal <:+ (env.spill request writer stage).stage.journal :=
    (env.effect_writeBatches _ writer noted).suffix
  have written : env.writeBatches? (batches writer.settings.framesPerWrite request.buffers) writer
      noted = some (env.spill request writer stage) := by
    apply env.writeBatches?_of_room
    · rw [all]
      exact framable_of_refusal accepted
    · rwa [all, ← framedSize_eq]
    · exact (honest.left ((List.suffix_cons _ _).trans first)
        (env.suffix_carryOut request entries writer stage)).right (List.suffix_cons _ _) first
  have moved : writer.cursor ≤ (env.spill request writer stage).writer.cursor :=
    (env.further_writeBatches _ writer noted).cursor
  simp only [carryOut?, size, Option.bind_eq_bind, Option.bind_some]
  rw [written, Option.bind_some]
  cases outcome : (env.spill request writer stage).outcome with
  | crashed => rw [carryOut_of_crashed outcome]
  | failed error =>
    rw [carryOut_of_failed outcome]
    simp only [Word.sub?_of_le moved]
    rfl
  | done =>
    cases each : (env.spill request writer stage).writer.settings.syncEach with
    | false =>
      rw [carryOut_of_done outcome each]
      rfl
    | true =>
      rw [carryOut_of_sync outcome each]
      simp only [Word.sub?_of_le moved, if_true]
      generalize env.syncOn (env.spill request writer stage).stage = done
      obtain ⟨answer, after⟩ := done
      cases answer <;> rfl

/-- A request whose frames end within 64 bits is processed as it is with checks, on a file that is honest
about it. -/
theorem process?_of_room {request : Request} {writer : Writer} {stage : Stage σ π}
    (room : writer.cursor + request.framedSize < Word.span)
    (honest : Grown (fun event _ => event.Honest) stage.journal
      (env.process request writer stage).stage.journal) :
    env.process? request writer stage = some (env.process request writer stage) := by
  by_cases poisoned : writer.poisoned = true
  · simp only [process?, process, if_pos poisoned]
  · cases refusal : request.refusal? with
    | some error => simp only [process?, process, if_neg poisoned, refusal]
    | none =>
      obtain ⟨entries, known⟩ : ∃ entries, request.entries? writer.cursor = some entries :=
        entriesFrom?_of_room (by rwa [framedSize_eq] at room)
      have carried : env.process request writer stage = env.carryOut request entries writer stage := by
        simp only [process, if_neg poisoned, refusal, known]
      rw [carried] at honest ⊢
      simp only [process?, if_neg poisoned, refusal, known]
      exact env.carryOut?_of_room refusal entries room honest

/-! ## Frames that do not end within 64 bits -/

/-- Their entries have no offsets, and the writer dies over this at once. -/
theorem process_of_no_room {request : Request} {writer : Writer} (sound : writer.poisoned = false)
    (accepted : request.refusal? = none) (full : request.items ≠ [])
    (room : Word.span ≤ writer.cursor + request.framedSize) (stage : Stage σ π) :
    env.process? request writer stage = none ∧
      env.process request writer stage =
        ⟨none, writer, (env.releaseAll request.buffers stage.crash).2⟩ := by
  have unknown : request.entries? writer.cursor = none := by
    rw [Option.eq_none_iff_forall_ne_some]
    intro entries known
    have inside := room_of_entriesFrom full known
    rw [← Request.buffers, ← framedSize_eq] at inside
    omega
  constructor
  · simp only [process?, sound, Bool.false_eq_true, if_false, accepted, unknown]
    rfl
  · simp only [process, sound, Bool.false_eq_true, if_false, accepted, unknown]

theorem Effect.replies_eq {env : Surroundings σ π} {low : Nat} {released : List Buffer} {crashed : Prop}
    {before after : Stage σ π} (effect : env.Effect low released crashed before after) :
    after.replies = before.replies := by
  obtain ⟨new, journal, -, -, work, -⟩ := effect
  simp only [Stage.replies, Stage.events, journal, List.reverse_append, List.filterMap_append]
  rw [List.append_right_eq_self, List.filterMap_eq_nil_iff]
  intro event member
  have only := work event (List.mem_reverse.mp member)
  cases event with
  | replied ticket reply => exact only.elim
  | called _ | released _ _ _ | counted _ _ | noted _ | crashed => rfl

/-- Requests that are abandoned are answered as closed, and all that their buffers hold goes back. -/
theorem abandon_closes (orders : List Order) (stage : Stage σ π) :
    (env.abandon orders stage).replies =
        stage.replies ++ orders.map (fun order => (order.ticket, .error .closed)) ∧
      handovers (env.abandon orders stage).journal =
        handovers stage.journal ++ orderHandovers orders := by
  induction orders generalizing stage with
  | nil => exact ⟨(List.append_nil _).symm, (List.append_nil _).symm⟩
  | cons order later ih =>
    have dropped := env.effect_releaseAll 0 order.request.buffers stage
    let answered := (env.releaseAll order.request.buffers stage).2.reply order.ticket (.error .closed)
    have replied : answered.replies = stage.replies ++ [(order.ticket, .error .closed)] := by
      rw [← dropped.replies_eq]
      simp [answered, Stage.replies, Stage.events, Stage.reply, Stage.record]
    have handed : handovers answered.journal = handovers stage.journal ++ order.request.handovers :=
      dropped.handovers_eq
    obtain ⟨replies, gone⟩ := ih answered
    rw [replied, List.append_assoc] at replies
    rw [handed, List.append_assoc] at gone
    exact ⟨replies, gone⟩

/-- If the frames of a request end within 64 bits, and no call that is made for it claims more than it was
offered, then no sum and no difference on the way leaves 64 bits. If they do not, one does, before the
file is called: the writer crashes over the request and dies, which leaves the file as it is; this
request and those behind it are answered as closed, and their segments go back. -/
theorem no_sum_leaves_the_word_unnoticed {request : Request} {writer : Writer}
    (sound : writer.poisoned = false) (full : request.items ≠ [])
    (short : ∀ item ∈ request.items, item.buffer.size ≤ Header.maxLength) (stage : Stage σ π) :
    (writer.cursor + request.framedSize < Word.span → ∃ calls,
      (env.process request writer stage).stage.calls = stage.calls ++ calls ∧
      ((∀ call ∈ calls, call.taken ≤ call.offered) →
        env.process? request writer stage = some (env.process request writer stage))) ∧
    (Word.span ≤ writer.cursor + request.framedSize →
      env.process? request writer stage = none ∧
      ∀ ticket later,
        let orders := ⟨ticket, request⟩ :: later
        let next := env.step ⟨writer, true, orders⟩ stage
        next.1 = ⟨writer, false, []⟩ ∧ stage.crash.journal <:+ next.2.journal ∧
        next.2.file = stage.file ∧ next.2.calls = stage.calls ∧
        next.2.replies =
          stage.replies ++ orders.map (fun order => (order.ticket, .error .closed)) ∧
        handovers next.2.journal = handovers stage.journal ++ orderHandovers orders) := by
  have accepted : request.refusal? = none := by
    refine refusal_of_framable fun buffer member => ?_
    obtain ⟨item, found, rfl⟩ := List.mem_map.mp member
    exact short item found
  constructor
  · intro room
    obtain ⟨calls, called, grown⟩ :=
      exists_calls_honest (env.effect_process request writer stage).suffix
    exact ⟨calls, called, fun honest => env.process?_of_room room (grown honest)⟩
  · intro room
    obtain ⟨checked, dies⟩ := env.process_of_no_room sound accepted full room stage
    refine ⟨checked, fun ticket later => ?_⟩
    intro orders next
    have stepped : next = (⟨writer, false, []⟩, env.abandon orders stage.crash) := by
      simp only [next, step, orders, dies, abandon]
    have crash : stage.Untouched stage.crash := ⟨rfl, calls_crash stage⟩
    have untouched := crash.trans (untouched_abandon env orders stage.crash)
    obtain ⟨replies, handed⟩ := env.abandon_closes orders stage.crash
    rw [(Effect.crash env 0 stage).replies_eq] at replies
    rw [stepped]
    exact ⟨rfl, env.suffix_abandon orders stage.crash, untouched.file, untouched.calls, replies, handed⟩

/-- Two frames of eleven bytes go to a file with room for fifteen: the failure is worked out within
64 bits. With the cursor twenty bytes below their end, the same request stops the writer. -/
theorem two_frames_do_not_fit_behind_a_far_cursor :
    let opened := ((cramped 15 100).start .standard (.start ⟨.empty, false⟩ ())).2
    let request : Request := ⟨[threeBytes, threeBytes]⟩
    let far : Writer := .start .standard (Word.span - 20)
    let next := (cramped 15 100).step ⟨far, true, [⟨0, request⟩]⟩ opened
    (∃ after, (cramped 15 100).process? request (.start .standard 0) opened =
      some ⟨some (.error (.io .storageFull)), (Writer.start .standard 0).advance 11, after⟩) ∧
    (cramped 15 100).process? request far opened = none ∧
    next.2.calls = [] ∧ next.2.replies = [(0, .error .closed)] ∧
    handovers next.2.journal = request.handovers := by
  intro opened request far next
  have short : ∀ item ∈ request.items, item.buffer.size ≤ Header.maxLength := by decide
  obtain ⟨near, -⟩ := (cramped 15 100).no_sum_leaves_the_word_unnoticed
    (show (Writer.start .standard 0).poisoned = false from rfl) (by simp [request]) short opened
  obtain ⟨-, stops⟩ := (cramped 15 100).no_sum_leaves_the_word_unnoticed
    (show far.poisoned = false from rfl) (by simp [request]) short opened
  obtain ⟨first, second, after, processed, made, size, -⟩ := process_cramped
  obtain ⟨calls, called, checked⟩ := near (by decide)
  obtain ⟨dies, step⟩ := stops (by decide)
  obtain ⟨-, -, -, untouched, replies, handed⟩ := step 0 []
  have all : after.calls = calls := by
    rw [processed] at called
    exact called
  have honest : ∀ call ∈ calls, call.taken ≤ call.offered := by
    intro call member
    rw [← all, made] at member
    simp only [List.mem_cons, List.not_mem_nil, or_false] at member
    rcases member with rfl | rfl | rfl
    · simp [Call.taken, Call.offered, size]
    · exact Nat.zero_le _
    · exact Nat.zero_le _
  refine ⟨⟨after, (checked honest).trans (congrArg some processed)⟩, dies, untouched, replies, ?_⟩
  rw [handed]
  rfl

end Surroundings

end Spillway
