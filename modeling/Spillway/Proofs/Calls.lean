import Spillway.Proofs.Completion
import Spillway.Proofs.Release
/-!
The calls that are made while a request is written. They are writes and nothing else: each offers what
is left of one batch, in its place, and it is made when the buffers of the batches before, and no
others, have gone back. `Grown` says of two journals, one on top of the other, what is true of the
events in between, and there is one lemma about these writes for each function of the writer, up to
`Surroundings.writes_spill`.
-/

namespace Spillway

variable {σ π : Type}

/-- A journal has grown out of an older one, and `P` is true of every event on top, and of the journal
on which it came. -/
structure Grown (P : Event σ → List (Event σ) → Prop) (old journal : List (Event σ)) : Prop where
  suffix : old <:+ journal
  each : ∀ event older, event :: older <:+ journal → old <:+ older → P event older

/-- A call can only be a write, and if it is, `P` is true of the journal on which it was made, and of
what it offered where. -/
def Event.OnlyWrites (P : List (Event σ) → Nat → List Extent → Prop) :
    Event σ → List (Event σ) → Prop
  | .called (.write position slices _), older => P older position slices
  | .called _, _ => False
  | _, _ => True

/-- The slices are what is left to be written of a batch which begins at `offset`, and the position is
where this goes, at a time when the segments `gone` have gone back and no others. -/
structure Offers (batch : List Buffer) (offset : Nat) (gone : List (Owner × Segment))
    (older : List (Event σ)) (position : Nat) (slices : List Extent) : Prop where
  gone : handovers older = gone
  some : Extent.totalSize slices ≠ 0
  left : slices.flatMap Extent.toList <:+ batch.flatMap Buffer.framed
  ends : position + Extent.totalSize slices = offset + framesSize batch
  few : slices.length ≤ 2 * batch.length

namespace Grown

variable {P Q : Event σ → List (Event σ) → Prop} {old between journal : List (Event σ)}

theorem refl (P : Event σ → List (Event σ) → Prop) (journal : List (Event σ)) :
    Grown P journal journal := by
  refine ⟨List.suffix_refl _, fun event older moment behind => ?_⟩
  have longer := moment.length_le
  have shorter := behind.length_le
  rw [List.length_cons] at longer
  omega

theorem mono (grown : Grown P old journal) (weaker : ∀ event older, P event older → Q event older) :
    Grown Q old journal :=
  ⟨grown.suffix, fun event older moment behind =>
    weaker event older (grown.each event older moment behind)⟩

theorem trans (first : Grown P old between) (second : Grown P between journal) :
    Grown P old journal := by
  refine ⟨first.suffix.trans second.suffix, fun event older moment behind => ?_⟩
  rcases List.suffix_or_suffix_of_suffix moment second.suffix with early | late
  · exact first.each event older early behind
  · rcases List.suffix_cons_iff.mp late with same | later
    · exact first.each event older (same ▸ List.suffix_refl _) behind
    · exact second.each event older moment later

theorem cons (grown : Grown P old journal) {event : Event σ} (holds : P event journal) :
    Grown P old (event :: journal) := by
  refine ⟨grown.suffix.trans (List.suffix_cons _ _), fun other older moment behind => ?_⟩
  rcases List.suffix_cons_iff.mp moment with same | earlier
  · cases same
    exact holds
  · exact grown.each other older earlier behind

theorem of_new {new : List (Event σ)} (holds : ∀ event ∈ new, ∀ older, P event older)
    (old : List (Event σ)) : Grown P old (new ++ old) := by
  induction new with
  | nil => exact refl P old
  | cons event new ih =>
    have first := ih fun other member => holds other (List.mem_cons_of_mem _ member)
    exact first.cons (holds event List.mem_cons_self _)

theorem releaseAll {stage : Stage σ π} (grown : Grown P old stage.journal) (pool : Pool π)
    (buffers : List Buffer) (crash : ∀ older, P .crashed older)
    (handed : ∀ owner segment file older, P (.released owner segment file) older) :
    Grown P old (pool.releaseAll buffers stage).2.journal := by
  induction buffers generalizing stage with
  | nil => exact grown
  | cons buffer rest ih =>
    have gone : Grown P old
        (.released buffer.owner buffer.segment stage.file :: stage.journal) :=
      grown.cons (handed _ _ _ _)
    apply ih
    rw [pool.journal_release]
    split
    · exact gone.cons (crash _)
    · exact gone

/-- For each of the calls made on top, the property was true when it was made. -/
theorem called {before after : Stage σ π} (grown : Grown P before.journal after.journal) :
    ∃ made, after.calls = before.calls ++ made ∧ ∀ call ∈ made, ∃ older, P (.called call) older := by
  obtain ⟨new, joined⟩ := grown.suffix
  refine ⟨({ after with journal := new } : Stage σ π).calls, ?_, fun call member => ?_⟩
  · simp only [Stage.calls, Stage.events, ← joined, List.reverse_append, List.filterMap_append]
  · obtain ⟨front, back, split⟩ := List.append_of_mem (mem_calls_iff.mp member)
    have split : new = front ++ .called call :: back := split
    exact ⟨back ++ before.journal, grown.each (.called call) (back ++ before.journal)
      ⟨front, by rw [← joined, split, List.append_assoc, List.cons_append]⟩ (List.suffix_append _ _)⟩

/-- The calls made on top are writes, and what was asked of them is true. -/
theorem calls {P : List (Event σ) → Nat → List Extent → Prop} {before after : Stage σ π}
    (only : Grown (Event.OnlyWrites P) before.journal after.journal) :
    ∃ made, after.calls = before.calls ++ made ∧ ∀ call ∈ made, ∃ position slices answer older,
      call = .write position slices answer ∧ P older position slices := by
  obtain ⟨made, called, each⟩ := only.called
  refine ⟨made, called, fun call member => ?_⟩
  obtain ⟨older, write⟩ := each call member
  cases call with
  | write position slices answer => exact ⟨position, slices, answer, older, rfl, write⟩
  | truncate _ _ | sync _ => exact write.elim

end Grown

theorem Event.OnlyWrites.mono {P Q : List (Event σ) → Nat → List Extent → Prop}
    (weaker : ∀ older position slices, P older position slices → Q older position slices)
    (event : Event σ) (older : List (Event σ)) (only : event.OnlyWrites P older) :
    event.OnlyWrites Q older := by
  cases event with
  | called call =>
    cases call with
    | write position slices answer => exact weaker _ _ _ only
    | truncate _ _ | sync _ => exact only.elim
  | released _ _ _ | counted _ _ | noted _ | replied _ _ | crashed => trivial

theorem Extent.length_advance_le (n : Nat) (parts : List Extent) :
    (Extent.advance n parts).length ≤ parts.length := by
  fun_induction Extent.advance n parts with
  | case1 n => exact Nat.le_refl _
  | case2 n part rest used ih => exact Nat.le_succ_of_le ih
  | case3 n part rest left => exact Nat.le_refl _

theorem length_slices (frames : List Frame) :
    (frames.flatMap Frame.slices).length = 2 * frames.length := by
  induction frames with
  | nil => rfl
  | cons frame rest ih =>
    rw [List.flatMap_cons, List.length_append, ih, List.length_cons]
    simp only [Frame.slices, List.length_cons, List.length_nil]
    omega

namespace Surroundings

variable (env : Surroundings σ π)

/-- A transfer offers what is left of its batch until it ends. -/
theorem writes_transferFrom (offset before : Nat) {batch : List Buffer} {slices : List Extent}
    {taken : Nat} (stage : Stage σ π)
    (left : slices.flatMap Extent.toList <:+ batch.flatMap Buffer.framed)
    (ends : taken + Extent.totalSize slices = framesSize batch)
    (few : slices.length ≤ 2 * batch.length) :
    Grown (Event.OnlyWrites (Offers batch offset (handovers stage.journal))) stage.journal
      (env.transferFrom offset before slices taken stage).stage.journal := by
  -- The first write offers all that is left, and does not let anything go.
  have write : ∀ {slices : List Extent} {taken position : Nat} {stage after : Stage σ π}
      {answer : Answer Nat}, Extent.totalSize slices ≠ 0 →
      slices.flatMap Extent.toList <:+ batch.flatMap Buffer.framed →
      taken + Extent.totalSize slices = framesSize batch → slices.length ≤ 2 * batch.length →
      Word.add? offset taken = some position → env.writeOn slices position stage = (answer, after) →
      Grown (Event.OnlyWrites (Offers batch offset (handovers stage.journal))) stage.journal
          after.journal ∧
        handovers after.journal = handovers stage.journal := by
    intro slices taken position stage after answer some left ends few found call
    obtain ⟨rfl, -⟩ := Word.add?_eq_some_iff.mp found
    cases call
    exact ⟨(Grown.refl _ _).cons ⟨rfl, some, left, by omega, few⟩, rfl⟩
  fun_induction env.transferFrom offset before slices taken stage with
  | case1 slices taken stage none => exact .refl _ _
  | case2 slices taken stage some overflow => exact (Grown.refl _ _).cons trivial
  | case3 slices taken stage some position found after call => exact (write some left ends few found call).1
  | case4 slices taken stage some position found failure after call interrupted ih =>
    obtain ⟨first, same⟩ := write some left ends few found call
    rw [same] at ih
    exact first.trans (ih left ends few)
  | case5 slices taken stage some position found failure after call fatal =>
    exact (write some left ends few found call).1
  | case6 slices taken stage some position found after call => exact (write some left ends few found call).1
  | case7 slices taken stage some position found n after call nonzero overflow =>
    exact (write some left ends few found call).1.cons trivial
  | case8 slices taken stage some position found n after call nonzero counted overclaimed =>
    exact (write some left ends few found call).1.cons trivial
  | case9 slices taken stage some position found n after call nonzero counted within ih =>
    obtain ⟨first, same⟩ := write some left ends few found call
    rw [same] at ih
    refine first.trans (ih ?_ ?_ (Nat.le_trans (Extent.length_advance_le n slices) few))
    · rw [Extent.flatMap_advance]
      exact (List.drop_suffix _ _).trans left
    · rw [Extent.totalSize_advance]
      omega

theorem writes_settleBatch {P : List (Event σ) → Nat → List Extent → Prop} {old : List (Event σ)}
    (batch : List Buffer) (written : Nat) (outcome : Outcome) (writer : Writer) {stage : Stage σ π}
    (only : Grown (Event.OnlyWrites P) old stage.journal) :
    Grown (Event.OnlyWrites P) old
      (env.settleBatch batch written outcome writer stage).stage.journal := by
  have committed := only.releaseAll env.toPool batch (fun _ => trivial) fun _ _ _ _ => trivial
  rw [← (env.commit_releases written 0 batch stage).2] at committed
  simp only [settleBatch]
  split
  · exact committed
  · exact committed.cons trivial

theorem writes_writeBatch {batch : List Buffer} (framable : Framable batch) (writer : Writer)
    (stage : Stage σ π) :
    Grown (Event.OnlyWrites (Offers batch writer.cursor (handovers stage.journal))) stage.journal
      (env.writeBatch batch writer stage).stage.journal := by
  obtain ⟨frames, encoded, joined⟩ := encode_batch framable
  have ends : 0 + Extent.totalSize (frames.flatMap Frame.slices) = framesSize batch := by
    rw [Extent.totalSize_eq, joined, length_framed_flatMap framable, Nat.zero_add]
  have few : (frames.flatMap Frame.slices).length ≤ 2 * batch.length :=
    Nat.le_of_eq (by rw [length_slices, length_encoded encoded])
  have moved := env.writes_transferFrom writer.cursor 0 stage (joined ▸ List.suffix_refl _) ends few
  unfold writeBatch
  simp only [encoded, Store.transfer]
  generalize env.transferFrom writer.cursor 0 (frames.flatMap Frame.slices) 0 stage = transfer
    at moved
  cases transfer.finish with
  | crashed => exact moved.releaseAll env.toPool batch (fun _ => trivial) fun _ _ _ _ => trivial
  | failed failure => exact env.writes_settleBatch batch _ _ writer (moved.cons trivial)
  | done value => exact env.writes_settleBatch batch _ _ writer (moved.cons trivial)

/-- The calls that are made for some batches offer what is left of one of them, behind the frames of
those before it, when the buffers of these have gone back. -/
theorem writes_writeBatches {batches : List (List Buffer)} (framable : Framable batches.flatten)
    (writer : Writer) (stage : Stage σ π) :
    Grown (Event.OnlyWrites fun older position slices => ∃ front batch back,
        batches = front ++ batch :: back ∧ Offers batch (writer.cursor + framesSize front.flatten)
          (handovers stage.journal ++ front.flatten.map Buffer.handover) older position slices)
      stage.journal (env.writeBatches batches writer stage).stage.journal := by
  fun_induction env.writeBatches batches writer stage with
  | case1 writer stage => exact .refl _ _
  | case2 batch later writer stage work done ih =>
    rw [List.flatten_cons] at framable
    have first := env.writes_writeBatch framable.left writer stage
    have handed := (env.effect_writeBatch batch writer stage).handovers_eq
    have moves := (env.taken_writeBatch framable.left writer stage done).2
    apply Grown.trans (first.mono (Event.OnlyWrites.mono ?_))
      ((ih framable.right).mono (Event.OnlyWrites.mono ?_))
    · intro older position slices offers
      exact ⟨[], batch, later, rfl, by simpa using offers⟩
    · rintro older position slices ⟨front, next, back, rfl, offers⟩
      refine ⟨batch :: front, next, back, rfl, ?_⟩
      rw [handed, moves.cursor, List.append_assoc, ← List.map_append, Nat.add_assoc,
        ← framesSize_append] at offers
      rwa [List.flatten_cons]
  | case3 batch later writer stage work dropped fails =>
    rw [List.flatten_cons] at framable
    have first := env.writes_writeBatch framable.left writer stage
    refine (first.mono (Event.OnlyWrites.mono ?_)).releaseAll env.toPool _ (fun _ => trivial)
      fun _ _ _ _ => trivial
    intro older position slices offers
    exact ⟨[], batch, later, rfl, by simpa using offers⟩

/-- The calls that are made while a request is written offer what is left of one of its batches, behind
the frames of the batches before it, when the buffers of these have gone back. -/
theorem writes_spill {request : Request} (accepted : request.refusal? = none) (writer : Writer)
    (stage : Stage σ π) :
    Grown (Event.OnlyWrites fun older position slices => ∃ front batch back,
        batches writer.settings.framesPerWrite request.buffers = front ++ batch :: back ∧
          Offers batch (writer.cursor + framesSize front.flatten)
            (handovers stage.journal ++ front.flatten.map Buffer.handover) older position slices)
      stage.journal (env.spill request writer stage).stage.journal := by
  have framable : Framable (batches writer.settings.framesPerWrite request.buffers).flatten := by
    rw [flatten_batches]
    exact framable_of_refusal accepted
  let noted := stage.note (.spilling request.items.length request.framedSize writer.cursor)
  have wrote := env.writes_writeBatches framable writer noted
  exact ((Grown.refl _ _).cons trivial).trans wrote

/-- A repair cuts the file at the cursor, and makes no other call. -/
theorem calls_repair (writer : Writer) (stage : Stage σ π) :
    ∃ answer, (env.repair writer stage).2.2.calls =
      stage.calls ++ [.truncate writer.cursor answer] := by
  unfold repair
  cases truncated : env.truncateOn writer.cursor stage with
  | mk answer after =>
    have called := (Store.called_truncateOn truncated).2
    refine ⟨answer, ?_⟩
    cases answer with
    | done value => rw [(Stage.Untouched.note after _).calls, called]
    | failed failure => rw [(Stage.Untouched.note after _).calls, called]
    | crashed => exact called

end Surroundings
end Spillway
