import Spillway.Medium
import Spillway.Plan
import Spillway.Proofs.Framing
/-!
What can be asked of a file whose bytes are known. It writes faithfully if what it says it took is
where it was to go. It retains what it has if no call changes anything below the offset or length it
is given. It is tidy if it stores what it takes and nothing behind that, except for a write that
fails, and if it is cut exactly. It takes what it is offered if every write takes something or is
interrupted. A file in memory is all of this, and a mild plan laid over a file does not keep it from
taking what it is offered, nor from being synced.
-/

namespace Spillway

variable {σ : Type}

/-- A file, whose bytes are those given, writes faithfully: so many of the offered bytes as it says
it took are at their position, and what was before this position is kept. -/
structure Store.Writes (store : Store σ) (bytes : σ → List UInt8) : Prop where
  done : ∀ file slices position n after, store.write file slices position = (.done n, after) →
    n ≤ Extent.totalSize slices ∧
      (slices.flatMap Extent.toList).take n <+: (bytes after).drop position
  keeps : ∀ file slices position, (store.write file slices position).1 ≠ .crashed →
    (bytes file).take position <+: bytes (store.write file slices position).2

/-- A file in which no call, even one that crashes, changes what is below the offset or the length
that it is given. -/
structure Store.Retains (store : Store σ) (bytes : σ → List UInt8) : Prop where
  done : ∀ file slices position n after, store.write file slices position = (.done n, after) →
    n ≤ Extent.totalSize slices ∧
      (slices.flatMap Extent.toList).take n <+: (bytes after).drop position
  write : ∀ file slices position,
    (bytes file).take position <+: bytes (store.write file slices position).2
  truncate : ∀ file length, (bytes file).take length <+: bytes (store.truncate file length).2
  sync : ∀ file, bytes file <+: bytes (store.sync file).2

/-- A file that stores what it takes. A write that fails may leave anything at its position and
behind. An interrupted one is no failure, since it is made again; like one that takes something, it
leaves nothing behind what it was offered. -/
structure Store.Tidy (store : Store σ) (bytes : σ → List UInt8) : Prop extends
    store.Writes bytes where
  write : ∀ file slices position,
    (∃ n, (store.write file slices position).1 = .done n) ∨
      (store.write file slices position).1.Interrupted →
    (bytes (store.write file slices position).2).length ≤
      max (bytes file).length (position + Extent.totalSize slices)
  truncate : ∀ file length after, store.truncate file length = (.done (), after) →
    length ≤ (bytes file).length → bytes after = (bytes file).take length
  sync : ∀ file, (store.sync file).1 ≠ .crashed → bytes (store.sync file).2 = bytes file

/-- An answer to a write that took something or was interrupted: the file is still sound, so much of
what was offered as was taken is at its position, nothing has changed before this position, and
nothing was written behind what was offered. -/
structure Accepted (bytes : σ → List UInt8) (sound : σ → Prop) (file : σ) (slices : List Extent)
    (position : Nat) (done : Answer Nat × σ) : Prop where
  stays : sound done.2
  answer : done.1.Interrupted ∨ ∃ n, done.1 = .done n ∧ 0 < n ∧ n ≤ Extent.totalSize slices ∧
    (slices.flatMap Extent.toList).take n <+: (bytes done.2).drop position
  keeps : (bytes file).take position <+: bytes done.2
  within : (bytes done.2).length ≤ max (bytes file).length (position + Extent.totalSize slices)

/-- A file that, as long as it is sound, accepts every write of something that ends below half of the
machine's span. -/
def Store.Takes (store : Store σ) (bytes : σ → List UInt8) (sound : σ → Prop) : Prop :=
  ∀ file slices position, sound file → Extent.totalSize slices ≠ 0 →
    position + Extent.totalSize slices < Word.half →
      Accepted bytes sound file slices position (store.write file slices position)

/-- A file that syncs without a failure, and has the same bytes afterwards. -/
def Store.Syncs (store : Store σ) (bytes : σ → List UInt8) (sound : σ → Prop) : Prop :=
  ∀ file, sound file → (store.sync file).1 = .done () ∧ sound (store.sync file).2 ∧
    bytes (store.sync file).2 = bytes file

/-- A cue that does not keep a write from taking something in the end. A write that claims a single
byte stores more than it claims. -/
def Cue.Mild : Cue → Prop
  | .fail cause => cause = .interrupted
  | .atMost bytes => 0 < bytes
  | .claim bytes => bytes = 1

instance (cue : Cue) : Decidable cue.Mild :=
  match cue with
  | .fail cause => inferInstanceAs (Decidable (cause = .interrupted))
  | .atMost bytes => inferInstanceAs (Decidable (0 < bytes))
  | .claim bytes => inferInstanceAs (Decidable (bytes = 1))

/-- A plan that interrupts writes or cuts them short, and does no more to them, and nothing to a
sync. -/
structure Plan.Mild (plan : Plan) : Prop where
  script : ∀ cue ∈ plan.script, cue.Mild
  limit : plan.limit = .none
  chunk : plan.chunk ≠ some 0
  sync : plan.syncCause = .none

theorem Store.Retains.writes {store : Store σ} {bytes : σ → List UInt8}
    (retains : store.Retains bytes) : store.Writes bytes :=
  ⟨retains.done, fun file slices position _ => retains.write file slices position⟩

namespace Extent

theorem take_prefix_overwrite (e : Extent) (offset : Nat) (patch : Extent) :
    e.toList.take offset <+: (e.overwrite offset patch).toList := by
  rw [toList_overwrite, List.append_assoc, List.append_assoc]
  exact List.prefix_append _ _

theorem prefix_drop_overwrite (e : Extent) (offset : Nat) (patch : Extent) :
    patch.toList <+: (e.overwrite offset patch).toList.drop offset := by
  have front : (e.toList.take offset ++ List.replicate (offset - e.size) (0 : UInt8)).length =
      offset := by
    simp
    omega
  rw [toList_overwrite, List.append_assoc, List.drop_left' front]
  exact List.prefix_append _ _

theorem size_overwrite_le (e : Extent) (offset : Nat) (patch : Extent) :
    (e.overwrite offset patch).size ≤ max e.size (offset + patch.size) := by
  simp only [overwrite, size_append, size_resize, size_drop]
  omega

end Extent

namespace Memory

/-- Placing slices keeps what is before them, as far as it comes. -/
theorem take_prefix_place (contents : Extent) (position : Nat) (slices : List Extent) :
    contents.toList.take position <+: (place contents position slices).2.toList := by
  induction slices generalizing contents position with
  | nil => exact List.take_prefix _ _
  | cons slice rest ih =>
    rw [place]
    split
    · exact List.take_prefix _ _
    · exact take_prefix_trans (contents.take_prefix_overwrite position slice) (ih _ _)
        (Nat.le_add_right _ _)

/-- Slices that are placed are there, one behind the other. -/
theorem place_eq_some {contents after : Extent} {position stop : Nat} {slices : List Extent}
    (placed : place contents position slices = (some stop, after)) :
    stop = position + Extent.totalSize slices ∧
      slices.flatMap Extent.toList <+: after.toList.drop position ∧
      after.size ≤ max contents.size (position + Extent.totalSize slices) := by
  induction slices generalizing contents position with
  | nil =>
    cases placed
    exact ⟨rfl, List.nil_prefix, Nat.le_max_left _ _⟩
  | cons slice rest ih =>
    rw [place] at placed
    split at placed
    · cases placed
    · obtain ⟨stop_eq, there, size⟩ := ih placed
      have kept := take_prefix_place (contents.overwrite position slice) (position + slice.size) rest
      have bound := contents.size_overwrite_le position slice
      have total : Extent.totalSize (slice :: rest) = slice.size + Extent.totalSize rest := rfl
      rw [placed] at kept
      refine ⟨by omega, ?_, by omega⟩
      rw [List.flatMap_cons, append_prefix_drop_iff, Extent.length_toList]
      have here := contents.prefix_drop_overwrite position slice
      have inside : position + slice.toList.length ≤ position + slice.size :=
        Nat.le_of_eq (congrArg (position + ·) slice.length_toList)
      exact ⟨prefix_drop_of_take here inside kept, there⟩

theorem take_prefix_write (memory : Memory) (slices : List Extent) (position : Nat) :
    memory.contents.toList.take position <+:
      (memory.write slices position).2.contents.toList := by
  have kept := take_prefix_place memory.contents position slices
  unfold write
  split
  · exact List.take_prefix _ _
  · split <;> (rename_i placed; rwa [placed] at kept)

theorem write_eq_done {memory after : Memory} {slices : List Extent} {position n : Nat}
    (written : memory.write slices position = (.done n, after)) :
    n = Extent.totalSize slices ∧
      slices.flatMap Extent.toList <+: after.contents.toList.drop position ∧
      after.contents.size ≤ max memory.contents.size (position + Extent.totalSize slices) := by
  unfold write at written
  split at written
  · cases written
  · split at written
    · rename_i placed
      cases written
      obtain ⟨stop, there, size⟩ := place_eq_some placed
      exact ⟨by omega, there, size⟩
    · cases written

theorem retains : store.Retains fun memory => memory.contents.toList where
  done memory slices position n after written := by
    obtain ⟨all, there, -⟩ := write_eq_done written
    rw [Extent.totalSize_eq] at all
    exact ⟨by rw [Extent.totalSize_eq]; omega, by rwa [all, List.take_length]⟩
  write := take_prefix_write
  truncate memory length := by
    simp only [store, truncate]
    split
    · exact List.take_prefix _ _
    · split
      · exact List.take_prefix _ _
      · rw [Extent.toList_resize]
        exact List.prefix_append _ _
  sync memory := List.prefix_refl _

theorem tidy : store.Tidy fun memory => memory.contents.toList where
  toWrites := retains.writes
  write memory slices position answered := by
    simp only [Extent.length_toList]
    rcases answered with ⟨n, done⟩ | interrupted
    · exact (write_eq_done (Prod.ext done rfl)).2.2
    · exact absurd interrupted (not_interrupted_write memory slices position)
  truncate memory length after done inside := by
    rw [Extent.length_toList] at inside
    simp only [store, truncate] at done
    split at done
    · cases done
    · split at done
      · cases done
      · cases done
        have none : length - memory.contents.size = 0 := by omega
        simp [Extent.toList_resize, none]
  sync memory _ := rfl

theorem place_of_room (contents : Extent) {position : Nat} {slices : List Extent}
    (room : position + Extent.totalSize slices < Word.half) :
    ∃ after, place contents position slices =
      (some (position + Extent.totalSize slices), after) := by
  induction slices generalizing contents position with
  | nil => exact ⟨contents, rfl⟩
  | cons slice rest ih =>
    have total : Extent.totalSize (slice :: rest) = slice.size + Extent.totalSize rest := rfl
    rw [total, ← Nat.add_assoc] at room ⊢
    have inside : ¬ Word.half ≤ position + slice.size := by omega
    rw [place, if_neg inside]
    exact ih _ room

/-- A file in memory takes all it is offered, until a call crashes. -/
theorem takes : store.Takes (fun memory => memory.contents.toList)
    (fun memory => memory.broken = false) := by
  intro memory slices position healthy some room
  obtain ⟨after, placed⟩ := place_of_room memory.contents room
  have written : memory.write slices position =
      (.done (Extent.totalSize slices), ⟨after, false⟩) := by
    simp [write, healthy, placed]
  obtain ⟨-, there, size⟩ := write_eq_done written
  have kept := take_prefix_write memory slices position
  rw [written] at kept
  show Accepted _ _ _ _ _ (memory.write slices position)
  rw [written]
  refine ⟨rfl, .inr ⟨_, rfl, Nat.pos_of_ne_zero some, Nat.le_refl _, ?_⟩, kept, ?_⟩
  · exact (List.take_prefix _ _).trans there
  · simpa only [Extent.length_toList] using size

theorem syncs : store.Syncs (fun memory => memory.contents.toList)
    (fun memory => memory.broken = false) :=
  fun _ healthy => ⟨rfl, healthy, rfl⟩

end Memory

namespace Store.Takes

variable {store : Store σ} {bytes : σ → List UInt8} {sound : σ → Prop}

theorem accepted_writeAtMost (takes : store.Takes bytes sound) {bound : Option Nat}
    (some : bound ≠ some 0) {file : σ} {slices : List Extent} {position : Nat}
    (healthy : sound file) (offered : Extent.totalSize slices ≠ 0)
    (room : position + Extent.totalSize slices < Word.half) :
    Accepted bytes sound file slices position (store.writeAtMost bound file slices position) := by
  have whole := takes file slices position healthy offered room
  cases bound with
  | none => exact whole
  | some most =>
    rw [writeAtMost]
    split
    · rename_i short
      -- What is written is the first `most` bytes of the joined slices, in one slice.
      have flat : [(Extent.concat slices).take most].flatMap Extent.toList =
          (slices.flatMap Extent.toList).take most := by simp
      have size : Extent.totalSize [(Extent.concat slices).take most] = most := by
        rw [Extent.totalSize_eq, flat, List.length_take, ← Extent.totalSize_eq]
        omega
      obtain ⟨stays, answer, keeps, within⟩ := takes file [(Extent.concat slices).take most] position
        healthy (by rw [size]; simpa using some) (by omega)
      rw [size] at answer within
      refine ⟨stays, ?_, keeps, by omega⟩
      rcases answer with interrupted | ⟨n, done, positive, le, there⟩
      · exact .inl interrupted
      · refine .inr ⟨n, done, positive, by omega, ?_⟩
        rwa [flat, List.take_take, Nat.min_eq_left le] at there
    · exact whole

/-- A mild plan does not keep a file from taking what it is offered. -/
theorem planned (takes : store.Takes bytes sound) :
    store.planned.Takes (fun file => bytes file.inner)
      (fun file => sound file.inner ∧ file.plan.Mild) := by
  rintro ⟨file, ⟨script, limit, chunk, truncateCause, syncCause, lengthCause, length⟩⟩ slices position
    ⟨healthy, mild⟩ offered room
  cases script with
  | nil =>
    obtain rfl : limit = none := mild.limit
    obtain ⟨stays, answer, keeps, within⟩ :=
      takes.accepted_writeAtMost mild.chunk healthy offered room
    exact ⟨⟨stays, mild⟩, answer, keeps, within⟩
  | cons cue later =>
    have first : cue.Mild := mild.script cue List.mem_cons_self
    have rest : Plan.Mild ⟨later, limit, chunk, truncateCause, syncCause, lengthCause, length⟩ :=
      ⟨fun next member => mild.script next (List.mem_cons_of_mem _ member), mild.limit, mild.chunk,
        mild.sync⟩
    cases cue with
    | fail cause =>
      obtain rfl : cause = .interrupted := first
      exact ⟨⟨healthy, rest⟩, .inl ⟨_, rfl⟩, List.take_prefix _ _, Nat.le_max_left _ _⟩
    | atMost most =>
      have some : some most ≠ some 0 := by simpa using Nat.ne_of_gt first
      obtain ⟨stays, answer, keeps, within⟩ := takes.accepted_writeAtMost some healthy offered room
      exact ⟨⟨stays, rest⟩, answer, keeps, within⟩
    | claim claimed =>
      obtain rfl : claimed = 1 := first
      obtain ⟨stays, answer, keeps, within⟩ := takes file slices position healthy offered room
      refine ⟨⟨stays, rest⟩, ?_, keeps, within⟩
      simp only [Store.planned, writeUnder]
      rcases answer with ⟨text, failed⟩ | ⟨n, done, positive, le, there⟩
      · rw [failed]
        exact .inl ⟨text, rfl⟩
      · rw [done]
        refine .inr ⟨1, rfl, Nat.one_pos, Nat.pos_of_ne_zero offered, ?_⟩
        exact (List.take_prefix_take_left positive).trans there

end Store.Takes

theorem Store.Syncs.planned {store : Store σ} {bytes : σ → List UInt8} {sound : σ → Prop}
    (syncs : store.Syncs bytes sound) :
    store.planned.Syncs (fun file => bytes file.inner)
      (fun file => sound file.inner ∧ file.plan.Mild) := by
  rintro ⟨file, plan⟩ ⟨healthy, mild⟩
  obtain ⟨done, stays, same⟩ := syncs file healthy
  have none : plan.syncCause = .none := mild.sync
  simp only [Store.planned, none]
  exact ⟨done, ⟨stays, mild⟩, same⟩

end Spillway
