import Spillway.Proofs.Interchange
/-!
Files in memory as byte strings. A write has the effect of one patch, made of all its slices, whether it
lies over bytes, goes beyond the end or begins behind it; a truncation cuts or fills up. A file may have
many handles. What is done through one of them is done to the file, so each handle shows the byte string
that comes of everything that was done through any of them, and of nothing else. No byte string is as
long as half of the machine's span; a call that would need one crashes, and nothing is seen of the file
afterwards.
-/

namespace Spillway

/-! ## Byte strings -/

/-- The bytes cut to a length, or filled up with zeros. -/
def fitted (length : Nat) (bytes : List UInt8) : List UInt8 :=
  bytes.take length ++ List.replicate (length - bytes.length) 0

/-- The bytes with a patch in place of those from a position on. Where the patch begins behind the end,
there are zeros before it. -/
def patched (position : Nat) (patch bytes : List UInt8) : List UInt8 :=
  fitted position bytes ++ patch ++ bytes.drop (position + patch.length)

@[simp] theorem length_fitted (length : Nat) (bytes : List UInt8) :
    (fitted length bytes).length = length := by
  simp only [fitted, List.length_append, List.length_take, List.length_replicate]
  omega

/-- Up to its end, a patch stands behind what was before it. -/
theorem fitted_patched (position : Nat) (patch bytes : List UInt8) :
    fitted (position + patch.length) (patched position patch bytes) =
      fitted position bytes ++ patch := by
  have front : (fitted position bytes ++ patch).length = position + patch.length := by simp
  have enough : position + patch.length ≤ (patched position patch bytes).length := by
    rw [patched, List.length_append, front]
    exact Nat.le_add_right _ _
  rw [fitted, Nat.sub_eq_zero_of_le enough, List.replicate_zero, List.append_nil, patched,
    List.take_left' front]

theorem drop_patched (position : Nat) (patch bytes : List UInt8) (n : Nat) :
    (patched position patch bytes).drop (position + patch.length + n) =
      bytes.drop (position + patch.length + n) := by
  have front : (fitted position bytes ++ patch).length = position + patch.length := by simp
  rw [patched, ← List.drop_drop, List.drop_left' front, List.drop_drop]

theorem patched_patched (position : Nat) (patch next bytes : List UInt8) :
    patched (position + patch.length) next (patched position patch bytes) =
      patched position (patch ++ next) bytes := by
  rw [patched, fitted_patched, drop_patched, patched, List.length_append, Nat.add_assoc,
    List.append_assoc (fitted position bytes)]

theorem Extent.toList_resize_eq (length : Nat) (e : Extent) :
    (e.resize length).toList = fitted length e.toList := by
  rw [toList_resize, fitted, length_toList]

theorem Extent.toList_overwrite_eq (e : Extent) (position : Nat) (patch : Extent) :
    (e.overwrite position patch).toList = patched position patch.toList e.toList := by
  rw [toList_overwrite, patched, fitted, length_toList, length_toList]

/-! ## Calls on a file -/

namespace Memory

/-- Slices that are placed one by one are one patch. -/
theorem toList_place {contents after : Extent} {position stop : Nat} {slices : List Extent}
    (some : slices ≠ []) (placed : place contents position slices = (.some stop, after)) :
    after.toList = patched position (slices.flatMap Extent.toList) contents.toList := by
  induction slices generalizing contents position with
  | nil => exact absurd rfl some
  | cons slice rest ih =>
    rw [place] at placed
    split at placed
    · cases placed
    · by_cases last : rest = []
      · subst last
        cases placed
        rw [Extent.toList_overwrite_eq, List.flatMap_singleton]
      · rw [ih last placed, Extent.toList_overwrite_eq, List.flatMap_cons, ← patched_patched,
          Extent.length_toList]

/-- Slices that go too far are not all placed. -/
theorem place_of_no_room (contents : Extent) {position : Nat} {slices : List Extent}
    (some : slices ≠ []) (far : Word.half ≤ position + Extent.totalSize slices) :
    (place contents position slices).1 = none := by
  induction slices generalizing contents position with
  | nil => exact absurd rfl some
  | cons slice rest ih =>
    have total : Extent.totalSize (slice :: rest) = slice.size + Extent.totalSize rest := rfl
    rw [place]
    split
    · rfl
    · rename_i inside
      -- The slices that are left are some, since this one ends before the limit.
      have more : rest ≠ [] := by
        rintro rfl
        rw [total, show Extent.totalSize [] = 0 from rfl] at far
        omega
      exact ih _ more (by omega)

theorem write_of_room (contents : Extent) {position : Nat} {slices : List Extent}
    (some : slices ≠ []) (room : position + Extent.totalSize slices < Word.half) :
    ∃ after, write ⟨contents, false⟩ slices position =
        (.done (Extent.totalSize slices), ⟨after, false⟩) ∧
      after.toList = patched position (slices.flatMap Extent.toList) contents.toList := by
  obtain ⟨after, placed⟩ := place_of_room contents room
  refine ⟨after, ?_, toList_place some placed⟩
  simp [write, placed]

theorem write_of_no_room (contents : Extent) {position : Nat} {slices : List Extent}
    (some : slices ≠ []) (far : Word.half ≤ position + Extent.totalSize slices) :
    (write ⟨contents, false⟩ slices position).2.broken = true := by
  have stuck := place_of_no_room contents some far
  simp only [write]
  split
  · contradiction
  · split
    · rename_i placed
      rw [placed] at stuck
      cases stuck
    · rfl

theorem truncate_of_room (contents : Extent) {length : Nat} (room : length < Word.half) :
    ∃ after, truncate ⟨contents, false⟩ length = (.done (), ⟨after, false⟩) ∧
      after.toList = fitted length contents.toList := by
  refine ⟨contents.resize length, ?_, contents.toList_resize_eq length⟩
  simp [truncate, Nat.not_le.mpr room]

end Memory

/-- A call on a file that changes it. -/
inductive Usage where
  | write (slices : List Extent) (position : Nat)
  | truncate (length : Nat)
  | sync

namespace Usage

def on (usage : Usage) (memory : Memory) : Memory :=
  match usage with
  | write slices position => (Memory.store.write memory slices position).2
  | truncate length => (Memory.store.truncate memory length).2
  | sync => (Memory.store.sync memory).2

/-- The byte string after a call, unless it would be too long. -/
def apply (usage : Usage) (bytes : List UInt8) : Option (List UInt8) :=
  match usage with
  | write slices position =>
    if slices = [] then some bytes
    else if position + Extent.totalSize slices < Word.half then
      some (patched position (slices.flatMap Extent.toList) bytes)
    else none
  | truncate length => if length < Word.half then some (fitted length bytes) else none
  | sync => some bytes

theorem on_of_broken {memory : Memory} (broken : memory.broken = true) (usage : Usage) :
    usage.on memory = memory := by
  cases usage with
  | write slices position => simp [on, Memory.store, Memory.write, broken]
  | truncate length => simp [on, Memory.store, Memory.truncate, broken]
  | sync => rfl

/-- A call makes of a file what it makes of the byte string. -/
theorem view_on (usage : Usage) (memory : Memory) :
    (usage.on memory).view = memory.view.bind usage.apply := by
  obtain ⟨contents, broken⟩ := memory
  cases broken with
  | true =>
    rw [on_of_broken rfl]
    rfl
  | false =>
    show (usage.on ⟨contents, false⟩).view = usage.apply contents.toList
    cases usage with
    | write slices position =>
      show (Memory.write ⟨contents, false⟩ slices position).2.view = _
      by_cases none : slices = []
      · subst none
        rfl
      · by_cases room : position + Extent.totalSize slices < Word.half
        · obtain ⟨after, written, joined⟩ := Memory.write_of_room contents none room
          rw [written, apply, if_neg none, if_pos room, ← joined]
          rfl
        · have broken := Memory.write_of_no_room contents none (Nat.not_lt.mp room)
          rw [apply, if_neg none, if_neg room, Memory.view, if_pos broken]
    | truncate length =>
      show (Memory.truncate ⟨contents, false⟩ length).2.view = _
      by_cases room : length < Word.half
      · obtain ⟨after, cut, fit⟩ := Memory.truncate_of_room contents room
        rw [cut, apply, if_pos room, ← fit]
        rfl
      · simp [apply, Memory.truncate, Memory.view, room, Nat.not_lt.mp room]
    | sync => rfl

end Usage

/-! ## Handles -/

/-- Files in memory and the handles that lead to them. -/
structure Handles where
  files : List Memory
  /-- The place of the file that each handle leads to. -/
  targets : List Nat

/-- What is done with a handle, which is given by its number. -/
inductive Move where
  /-- It is cloned. The clone leads to the same file. -/
  | clone (handle : Nat)
  /-- A call is made through it. -/
  | use (handle : Nat) (usage : Usage)

namespace Handles

/-- The file that a handle leads to. -/
def file? (s : Handles) (handle : Nat) : Option Memory :=
  s.targets[handle]?.bind fun place => s.files[place]?

/-- One move. Nothing comes of one with a handle that there is not. -/
def make (s : Handles) : Move → Handles
  | .clone handle => { s with targets := s.targets ++ s.targets[handle]?.toList }
  | .use handle usage =>
    match s.targets[handle]? with
    | none => s
    | some place => { s with files := s.files.modify place usage.on }

def run (s : Handles) (moves : List Move) : Handles := moves.foldl make s

/-- The calls that are made on the file at a place, through any of its handles. -/
def usagesOf (place : Nat) : (targets : List Nat) → List Move → List Usage
  | _, [] => []
  | targets, .clone handle :: later => usagesOf place (targets ++ targets[handle]?.toList) later
  | targets, .use handle usage :: later =>
    if targets[handle]? = some place then usage :: usagesOf place targets later
    else usagesOf place targets later

/-- A call through a handle reaches its file and no other. -/
theorem files_use (s : Handles) (handle : Nat) (usage : Usage) (place : Nat) :
    (s.make (.use handle usage)).files[place]? =
      if s.targets[handle]? = some place then s.files[place]?.map usage.on else s.files[place]? := by
  simp only [make]
  cases found : s.targets[handle]? with
  | none => simp
  | some target =>
    simp only [List.getElem?_modify, Option.some.injEq]
    by_cases same : target = place
    · simp [same]
    · simp [same]

theorem targets_use (s : Handles) (handle : Nat) (usage : Usage) :
    (s.make (.use handle usage)).targets = s.targets := by
  simp only [make]
  split <;> rfl

/-- The file at a place is, after some moves, what comes of the calls that were made on it. -/
theorem view_run (s : Handles) (moves : List Move) (place : Nat) :
    (s.run moves).files[place]?.bind Memory.view =
      (s.files[place]?.bind Memory.view).bind fun bytes =>
        (usagesOf place s.targets moves).foldlM (fun bytes usage => usage.apply bytes) bytes := by
  induction moves generalizing s with
  | nil => simp [run, usagesOf]
  | cons move later ih =>
    have next : s.run (move :: later) = (s.make move).run later := rfl
    rw [next, ih]
    cases move with
    | clone handle => rfl
    | use handle usage =>
      rw [files_use, targets_use, usagesOf]
      split
      · -- The call is the first of those on this file.
        cases s.files[place]? with
        | none => rfl
        | some memory =>
          simp only [Option.map_some, Option.bind_some, Usage.view_on, List.foldlM_cons]
          cases memory.view <;> rfl
      · rfl

theorem length_files_run (s : Handles) (moves : List Move) :
    (s.run moves).files.length = s.files.length := by
  induction moves generalizing s with
  | nil => rfl
  | cons move later ih =>
    have one : (s.make move).files.length = s.files.length := by
      cases move with
      | clone handle => rfl
      | use handle usage =>
        simp only [make]
        split
        · rfl
        · exact List.length_modify ..
    exact (ih (s.make move)).trans one

/-- A handle leads to its file for ever. -/
theorem targets_prefix_run (s : Handles) (moves : List Move) :
    s.targets <+: (s.run moves).targets := by
  induction moves generalizing s with
  | nil => exact List.prefix_refl _
  | cons move later ih =>
    have one : s.targets <+: (s.make move).targets := by
      cases move with
      | clone handle => exact List.prefix_append _ _
      | use handle usage => simp only [targets_use, List.prefix_refl]
    exact one.trans (ih (s.make move))

end Handles

/-- A write of slices to a file in memory takes all of them, and has the effect of one patch, the same as
that of one slice with all their bytes; a write of no slices has none. A truncation cuts the file or
fills it up with zeros. So whatever is done through handles, to however many files: every handle that
leads to a file shows the contents and the length of the byte string that comes of what was done
through these handles, as long as no call makes that too long, and none afterwards; and handles lead
to their files for ever. -/
theorem handles_show_one_byte_string :
    (∀ (contents : Extent) (position : Nat) (slices : List Extent), slices ≠ [] →
      position + Extent.totalSize slices < Word.half → ∃ after single,
        Memory.store.write ⟨contents, false⟩ slices position =
            (.done (Extent.totalSize slices), ⟨after, false⟩) ∧
          after.toList = patched position (slices.flatMap Extent.toList) contents.toList ∧
        Memory.store.write ⟨contents, false⟩ [Extent.concat slices] position =
            (.done (Extent.totalSize slices), ⟨single, false⟩) ∧
          single.toList = after.toList) ∧
    (∀ (contents : Extent) (position : Nat),
      Memory.store.write ⟨contents, false⟩ [] position = (.done 0, ⟨contents, false⟩)) ∧
    (∀ (contents : Extent) (length : Nat), length < Word.half → ∃ after,
      Memory.store.truncate ⟨contents, false⟩ length = (.done (), ⟨after, false⟩) ∧
        after.toList = fitted length contents.toList) ∧
    ∀ (s : Handles) (moves : List Move) (place : Nat) (memory : Memory) (bytes : List UInt8),
      s.files[place]? = some memory → memory.view = some bytes →
      let reference := (Handles.usagesOf place s.targets moves).foldlM
        (fun bytes usage => usage.apply bytes) bytes
      s.targets <+: (s.run moves).targets ∧
      ∀ handle, (s.run moves).targets[handle]? = some place → ∃ file,
        (s.run moves).file? handle = some file ∧ file.view = reference ∧
          Memory.store.length file = reference.elim .crashed fun bytes => .done bytes.length := by
  refine ⟨?_, ?_, fun contents length room => Memory.truncate_of_room contents room, ?_⟩
  · intro contents position slices some room
    obtain ⟨after, written, joined⟩ := Memory.write_of_room contents some room
    have size : Extent.totalSize [Extent.concat slices] = Extent.totalSize slices := by
      simp [Extent.totalSize_eq]
    obtain ⟨single, written', joined'⟩ :=
      Memory.write_of_room contents (List.cons_ne_nil (Extent.concat slices) []) (size ▸ room)
    rw [size] at written'
    refine ⟨after, single, written, joined, written', ?_⟩
    rw [joined', joined, List.flatMap_singleton, Extent.toList_concat]
  · intro contents position
    simp [Memory.store, Memory.write, Memory.place]
  · intro s moves place memory bytes found shown reference
    refine ⟨s.targets_prefix_run moves, fun handle leads => ?_⟩
    have inside : place < (s.run moves).files.length := by
      rw [s.length_files_run moves]
      exact (List.getElem?_eq_some_iff.mp found).1
    obtain ⟨file, there⟩ : ∃ file, (s.run moves).files[place]? = some file :=
      ⟨_, List.getElem?_eq_getElem inside⟩
    have view : file.view = reference := by
      have all := s.view_run moves place
      rwa [there, found, Option.bind_some, Option.bind_some, shown, Option.bind_some] at all
    refine ⟨file, by rw [Handles.file?, leads, Option.bind_some, there], view, ?_⟩
    rw [← view]
    obtain ⟨contents, broken⟩ := file
    cases broken with
    | true => rfl
    | false => exact congrArg Answer.done contents.size_eq

/-- A file of two bytes with a clone beside another file. Through the clone, slices are written two bytes
behind the end, some of them empty; through the first handle the file is cut, and the other file is not
touched. -/
theorem clone_shows_what_was_cut :
    let slices : List Extent := [.empty, .ofList [7], .empty, .ofList [8, 9]]
    let s : Handles := ⟨[⟨.ofList [1, 2], false⟩, ⟨.ofList [5], false⟩], [0, 1]⟩
    let moves : List Move :=
      [.clone 0, .use 2 (.write slices 4), .use 1 (.truncate 0), .use 0 (.truncate 5)]
    slices ≠ [] ∧ 4 + Extent.totalSize slices < Word.half ∧
      (∃ after,
        Memory.store.write ⟨.ofList [1, 2], false⟩ slices 4 = (.done 3, ⟨after, false⟩) ∧
          after.toList = [1, 2, 0, 0, 7, 8, 9]) ∧
      (s.run moves).targets = [0, 1, 0] ∧
      ∀ handle ∈ [0, 2], ∃ file, (s.run moves).file? handle = some file ∧
        file.view = some [1, 2, 0, 0, 7] ∧ Memory.store.length file = .done 5 := by
  intro slices s moves
  have some : slices ≠ [] := List.cons_ne_nil _ _
  have room : 4 + Extent.totalSize slices < Word.half := by decide
  obtain ⟨writes, -, -, shows⟩ := handles_show_one_byte_string
  obtain ⟨after, -, written, joined, -, -⟩ := writes (.ofList [1, 2]) 4 slices some room
  obtain ⟨-, each⟩ := shows s moves 0 ⟨.ofList [1, 2], false⟩ [1, 2] rfl rfl
  refine ⟨some, room, ⟨after, written, joined⟩, rfl, fun handle member => each handle ?_⟩
  rcases List.mem_cons.mp member with rfl | member
  · rfl
  · obtain rfl := List.mem_singleton.mp member
    rfl

end Spillway
