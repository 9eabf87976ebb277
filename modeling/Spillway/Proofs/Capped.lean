import Spillway.Proofs.Files
/-!
Files that fill up. A file fills up to a limit, so many bytes at a time, if a write at the limit or
behind it fails for want of space, and any other write at the end of the file takes what there is room
for. A file can be given a limit; one that was tidy stays so, and one in memory fills up then.
-/

namespace Spillway

variable {σ : Type}

/-- What a write at `position` takes of `offered` bytes when there are at most `limit` in the file and
at most `chunk` are taken at a time. -/
def accepts (limit chunk position offered : Nat) : Nat := min chunk (min (limit - position) offered)

/-- A file that, as long as it is sound, fills up to a limit. -/
structure Store.Fills (store : Store σ) (bytes : σ → List UInt8) (sound : σ → Prop)
    (limit chunk : Nat) : Prop where
  full : ∀ file slices position, sound file → Extent.totalSize slices ≠ 0 → limit ≤ position →
    ∃ text after, store.write file slices position = (.failed ⟨.storageFull, text⟩, after) ∧
      sound after ∧ bytes after = bytes file
  takes : ∀ file slices position, sound file → Extent.totalSize slices ≠ 0 →
    (bytes file).length = position → position < limit →
      position + Extent.totalSize slices < Word.half →
        ∃ after, store.write file slices position =
            (.done (accepts limit chunk position (Extent.totalSize slices)), after) ∧
          sound after ∧ bytes after = bytes file ++ (slices.flatMap Extent.toList).take
            (accepts limit chunk position (Extent.totalSize slices))
  cuts : ∀ file length, sound file → length ≤ (bytes file).length → length < Word.half →
    ∃ after, store.truncate file length = (.done (), after) ∧ sound after ∧
      bytes after = (bytes file).take length

/-- A store whose files have a limit, and take at most `chunk` bytes at a time. -/
def Store.capped (store : Store σ) (limit chunk : Nat) : Store σ :=
  { store with
    write := fun file slices position =>
      if limit ≤ position then (.failed (.ofCause .storageFull), file)
      else store.writeAtMost (some (min chunk (limit - position))) file slices position
    patience_lt := by
      intro file slices position interrupted
      split at interrupted
      · obtain ⟨text, same⟩ := interrupted
        cases same
      · rename_i inside
        rw [if_neg inside]
        exact store.patience_writeAtMost _ file slices position interrupted }

namespace Store

variable {store : Store σ} {bytes : σ → List UInt8}

theorem accepts_pos {limit chunk position offered : Nat} (some : 0 < chunk)
    (inside : position < limit) (more : offered ≠ 0) : 0 < accepts limit chunk position offered := by
  unfold accepts
  omega

theorem accepts_le (limit chunk position offered : Nat) :
    accepts limit chunk position offered ≤ min (limit - position) offered :=
  Nat.min_le_right _ _

/-- What is left of slices once they are joined and cut short. -/
theorem flatMap_cutShort (slices : List Extent) (n : Nat) :
    [(Extent.concat slices).take n].flatMap Extent.toList = (slices.flatMap Extent.toList).take n := by
  simp

theorem totalSize_cutShort (slices : List Extent) (n : Nat) :
    Extent.totalSize [(Extent.concat slices).take n] = min n (Extent.totalSize slices) := by
  rw [Extent.totalSize_eq, flatMap_cutShort, List.length_take, ← Extent.totalSize_eq]

theorem writeAtMost_eq (store : Store σ) (most : Nat) (file : σ) (slices : List Extent)
    (position : Nat) :
    ∃ first, store.writeAtMost (some most) file slices position =
        store.write file first position ∧
      Extent.totalSize first = min most (Extent.totalSize slices) ∧
      first.flatMap Extent.toList = (slices.flatMap Extent.toList).take most := by
  by_cases short : most < Extent.totalSize slices
  · refine ⟨[(Extent.concat slices).take most], ?_, totalSize_cutShort slices most,
      flatMap_cutShort slices most⟩
    simp only [writeAtMost, if_pos short]
  · refine ⟨slices, ?_, (Nat.min_eq_right (by omega)).symm, ?_⟩
    · simp only [writeAtMost, if_neg short]
    · rw [Extent.totalSize_eq] at short
      exact (List.take_of_length_le (by omega)).symm

theorem Tidy.capped (tidy : store.Tidy bytes) (limit chunk : Nat) :
    (store.capped limit chunk).Tidy bytes where
  done file slices position n after written := by
    simp only [Store.capped] at written
    by_cases behind : limit ≤ position
    · rw [if_pos behind] at written
      cases written
    · rw [if_neg behind] at written
      obtain ⟨first, same, size, flat⟩ := store.writeAtMost_eq (min chunk (limit - position)) file
        slices position
      obtain ⟨most, there⟩ := tidy.done file first position n after (same.symm.trans written)
      rw [flat, List.take_take, Nat.min_eq_left (by omega)] at there
      exact ⟨by omega, there⟩
  keeps file slices position calm := by
    simp only [Store.capped] at calm ⊢
    by_cases behind : limit ≤ position
    · rw [if_pos behind]
      exact List.take_prefix _ _
    · rw [if_neg behind] at calm ⊢
      obtain ⟨first, same, -, -⟩ := store.writeAtMost_eq (min chunk (limit - position)) file
        slices position
      rw [same] at calm ⊢
      exact tidy.keeps file first position calm
  write file slices position answered := by
    simp only [Store.capped] at answered ⊢
    by_cases behind : limit ≤ position
    · rw [if_pos behind]
      exact Nat.le_max_left _ _
    · rw [if_neg behind] at answered ⊢
      obtain ⟨first, same, size, -⟩ := store.writeAtMost_eq (min chunk (limit - position)) file
        slices position
      rw [same] at answered ⊢
      have within := tidy.write file first position answered
      omega
  truncate := tidy.truncate
  sync := tidy.sync

end Store

namespace Memory

/-- A file in memory that is written at its end goes on with what is written. -/
theorem write_at_end {memory : Memory} (healthy : memory.broken = false) {slices : List Extent}
    {position : Nat} (last : memory.contents.toList.length = position)
    (room : position + Extent.totalSize slices < Word.half) :
    ∃ after, memory.write slices position = (.done (Extent.totalSize slices), after) ∧
      after.broken = false ∧
      after.contents.toList = memory.contents.toList ++ slices.flatMap Extent.toList := by
  obtain ⟨contents, placed⟩ := place_of_room memory.contents room
  have written : memory.write slices position =
      (.done (Extent.totalSize slices), ⟨contents, false⟩) := by
    simp [write, healthy, placed]
  obtain ⟨-, there, size⟩ := write_eq_done written
  have kept := take_prefix_write memory slices position
  rw [written, ← last, List.take_length] at kept
  rw [← last] at there size
  obtain ⟨rest, joined⟩ := kept
  have behind : contents.toList.drop memory.contents.toList.length = rest := by
    rw [← joined, List.drop_left]
  rw [behind] at there
  refine ⟨⟨contents, false⟩, written, rfl, ?_⟩
  have whole := congrArg List.length joined
  rw [List.length_append, Extent.length_toList] at whole
  rw [← joined, there.eq_of_length_le]
  rw [← Extent.totalSize_eq]
  simp only [Extent.length_toList] at size whole ⊢
  omega

/-- A file in memory with a limit fills up. -/
theorem fills_capped (limit chunk : Nat) :
    (store.capped limit chunk).Fills (fun memory => memory.contents.toList)
      (fun memory => memory.broken = false) limit chunk where
  full memory slices position healthy some behind :=
    ⟨_, memory, by simp only [Store.capped, if_pos behind]; rfl, healthy, rfl⟩
  takes memory slices position healthy some last inside room := by
    have before : ¬ limit ≤ position := by omega
    obtain ⟨first, same, size, flat⟩ := store.writeAtMost_eq (min chunk (limit - position)) memory
      slices position
    have accepted : Extent.totalSize first =
        accepts limit chunk position (Extent.totalSize slices) := by
      unfold accepts
      omega
    obtain ⟨after, written, stays, joined⟩ := write_at_end healthy last
      (show position + Extent.totalSize first < Word.half by omega)
    refine ⟨after, ?_, stays, ?_⟩
    · simp only [Store.capped, if_neg before, same, ← accepted]
      exact written
    · rw [joined, flat, ← accepted, size, Extent.totalSize_eq, ← List.take_eq_take_min]
  cuts memory length healthy inside room := by
    rw [Extent.length_toList] at inside
    have none : length - memory.contents.size = 0 := by omega
    refine ⟨{ memory with contents := memory.contents.resize length }, ?_, healthy, ?_⟩
    · simp [Store.capped, store, truncate, healthy, Nat.not_le.mpr room]
    · simp [Extent.toList_resize, none]

end Memory
end Spillway
