import Spillway.Word
/-!
Byte strings whose stretches of zeros are only counted, so that a fresh segment of two gigabytes
costs nothing. `Extent.toList` is the byte string that an extent stands for; every operation here is
the list operation of that name on it, and two extents with one `toList` hold the same bytes.
-/

namespace Spillway

/-- A stretch of an extent: stored bytes with their number at hand, or a count of zero bytes. -/
inductive Stretch where
  | stored (bytes : List UInt8) (count : Nat) (count_eq : count = bytes.length)
  | zeros (count : Nat)
  deriving Repr, DecidableEq

namespace Stretch

def toList : Stretch → List UInt8
  | stored bytes _ _ => bytes
  | zeros count => List.replicate count 0

def size : Stretch → Nat
  | stored _ count _ => count
  | zeros count => count

def take (n : Nat) : Stretch → Stretch
  | stored bytes count counted =>
    stored (bytes.take n) (min n count) (by rw [List.length_take, counted])
  | zeros count => zeros (min n count)

def drop (n : Nat) : Stretch → Stretch
  | stored bytes count counted =>
    stored (bytes.drop n) (count - n) (by rw [List.length_drop, counted])
  | zeros count => zeros (count - n)

@[simp] theorem length_toList (s : Stretch) : s.toList.length = s.size := by
  cases s with
  | stored bytes count counted => exact counted.symm
  | zeros count => exact List.length_replicate

@[simp] theorem size_take (n : Nat) (s : Stretch) : (s.take n).size = min n s.size := by
  cases s <;> rfl

@[simp] theorem size_drop (n : Nat) (s : Stretch) : (s.drop n).size = s.size - n := by
  cases s <;> rfl

@[simp] theorem toList_take (n : Nat) (s : Stretch) : (s.take n).toList = s.toList.take n := by
  cases s with
  | stored bytes count counted => rfl
  | zeros count => exact List.take_replicate.symm

@[simp] theorem toList_drop (n : Nat) (s : Stretch) : (s.drop n).toList = s.toList.drop n := by
  cases s with
  | stored bytes count counted => rfl
  | zeros count => exact List.drop_replicate.symm

end Stretch

/-- A byte string, cut into stretches, with its size at hand. -/
structure Extent where
  /-- The stretches, the last one first: more bytes go behind them without a walk to the end. -/
  stretches : List Stretch
  /-- The number of bytes. -/
  size : Nat
  size_eq_total : size = Word.total (stretches.map Stretch.size)
  deriving Repr, DecidableEq

namespace Extent

def empty : Extent := ⟨[], 0, rfl⟩

instance : Inhabited Extent := ⟨empty⟩

/-- The extent that stores the given bytes. -/
def ofList (bytes : List UInt8) : Extent := ⟨[.stored bytes bytes.length rfl], bytes.length, rfl⟩

/-- The extent of `count` zero bytes. -/
def zeros (count : Nat) : Extent := ⟨[.zeros count], count, rfl⟩

/-- The byte string that an extent stands for. -/
def toList (e : Extent) : List UInt8 := e.stretches.reverse.flatMap Stretch.toList

/-- One byte string after the other. -/
def append (e f : Extent) : Extent where
  stretches := f.stretches ++ e.stretches
  size := e.size + f.size
  size_eq_total := by
    simp [e.size_eq_total, f.size_eq_total, Nat.add_comm]

instance : Append Extent := ⟨append⟩

/-- Moves the last `n` bytes from the stretches before a cut, the last one first, to those behind
it, the first one first. -/
def moveCut : (n : Nat) → (before behind : List Stretch) → List Stretch × List Stretch
  | _, [], behind => ([], behind)
  | n, s :: before, behind =>
    if n = 0 then (s :: before, behind)
    else if s.size ≤ n then moveCut (n - s.size) before (s :: behind)
    else (s.take (s.size - n) :: before, s.drop (s.size - n) :: behind)

/-- Moving a cut leaves the bytes where they are. -/
theorem toList_moveCut (n : Nat) (before behind : List Stretch) :
    (moveCut n before behind).1.reverse.flatMap Stretch.toList ++
        (moveCut n before behind).2.flatMap Stretch.toList =
      before.reverse.flatMap Stretch.toList ++ behind.flatMap Stretch.toList := by
  induction before generalizing n behind with
  | nil => rfl
  | cons s before ih =>
    rw [moveCut]
    split
    · rfl
    · split
      · rw [ih]
        simp
      · simp only [List.reverse_cons, List.flatMap_append, List.flatMap_cons, List.flatMap_nil,
          List.append_nil, List.append_assoc, Stretch.toList_take, Stretch.toList_drop,
          ← List.append_assoc (List.take _ _), List.take_append_drop]

/-- A moved cut has as many bytes less before it as it is moved by. -/
theorem total_moveCut (n : Nat) (before behind : List Stretch) :
    Word.total ((moveCut n before behind).1.map Stretch.size) =
      Word.total (before.map Stretch.size) - n := by
  induction before generalizing n behind with
  | nil => simp [moveCut]
  | cons s before ih =>
    rw [moveCut]
    split
    · simp_all
    · split
      · rw [ih, List.map_cons, Word.total_cons]
        omega
      · rw [List.map_cons, List.map_cons, Word.total_cons, Word.total_cons, Stretch.size_take]
        omega

/-- A moved cut has as many bytes more behind it, as far as there were any before it. -/
theorem total_moveCut_behind (n : Nat) (before behind : List Stretch) :
    Word.total ((moveCut n before behind).2.map Stretch.size) =
      min n (Word.total (before.map Stretch.size)) + Word.total (behind.map Stretch.size) := by
  induction before generalizing n behind with
  | nil => simp [moveCut]
  | cons s before ih =>
    rw [moveCut]
    split
    · simp_all
    · split
      · rw [ih, List.map_cons, List.map_cons, Word.total_cons, Word.total_cons]
        omega
      · rw [List.map_cons, List.map_cons, Word.total_cons, Word.total_cons, Stretch.size_drop]
        omega

def take (n : Nat) (e : Extent) : Extent where
  stretches := (moveCut (e.size - n) e.stretches []).1
  size := min n e.size
  size_eq_total := by
    rw [total_moveCut, ← e.size_eq_total]
    omega

def drop (n : Nat) (e : Extent) : Extent where
  stretches := (moveCut (e.size - n) e.stretches []).2.reverse
  size := e.size - n
  size_eq_total := by
    rw [List.map_reverse, Word.total_reverse, total_moveCut_behind, ← e.size_eq_total,
      List.map_nil, Word.total_nil]
    omega

/-- The extent cut or filled up with zeros to `n` bytes. -/
def resize (n : Nat) (e : Extent) : Extent :=
  if e.size < n then e ++ zeros (n - e.size) else e.take n

/-- The extent with `patch` in place of its bytes from `offset` on, filled up with zeros where the
patch starts behind the end. -/
def overwrite (e : Extent) (offset : Nat) (patch : Extent) : Extent :=
  e.resize offset ++ patch ++ e.drop (offset + patch.size)

/-- The byte strings of a list, joined. -/
def concat (parts : List Extent) : Extent := parts.foldl append empty

/-- The number of bytes of all the parts. -/
def totalSize (parts : List Extent) : Nat := Word.total (parts.map size)

/-- The parts that are left when the first `n` bytes are done: parts that are used up go, among them
the empty ones right behind. -/
def advance : Nat → List Extent → List Extent
  | _, [] => []
  | n, part :: rest =>
    if part.size ≤ n then advance (n - part.size) rest else part.drop n :: rest

@[simp] theorem toList_empty : empty.toList = [] := rfl

@[simp] theorem toList_ofList (bytes : List UInt8) : (ofList bytes).toList = bytes := by
  simp [toList, ofList, Stretch.toList]

@[simp] theorem toList_zeros (count : Nat) : (zeros count).toList = List.replicate count 0 := by
  simp [toList, zeros, Stretch.toList]

@[simp] theorem toList_append (e f : Extent) : (e ++ f).toList = e.toList ++ f.toList := by
  show (append e f).toList = _
  simp only [toList, append, List.reverse_append, List.flatMap_append]

@[simp] theorem length_toList (e : Extent) : e.toList.length = e.size := by
  simp only [toList, Word.length_flatMap, Stretch.length_toList, List.map_reverse,
    Word.total_reverse, e.size_eq_total]

theorem size_eq (e : Extent) : e.size = e.toList.length := e.length_toList.symm

@[simp] theorem size_append (e f : Extent) : (e ++ f).size = e.size + f.size := rfl

@[simp] theorem size_zeros (count : Nat) : (zeros count).size = count := rfl

@[simp] theorem size_ofList (bytes : List UInt8) : (ofList bytes).size = bytes.length := rfl

@[simp] theorem size_take (n : Nat) (e : Extent) : (e.take n).size = min n e.size := rfl

@[simp] theorem size_drop (n : Nat) (e : Extent) : (e.drop n).size = e.size - n := rfl

theorem toList_take_append_toList_drop (n : Nat) (e : Extent) :
    (e.take n).toList ++ (e.drop n).toList = e.toList := by
  have cut := toList_moveCut (e.size - n) e.stretches []
  simp only [List.flatMap_nil, List.append_nil] at cut
  simp only [toList, take, drop, List.reverse_reverse, cut]

@[simp] theorem toList_take (n : Nat) (e : Extent) : (e.take n).toList = e.toList.take n := by
  rw [← e.toList_take_append_toList_drop n]
  by_cases long : n ≤ e.size
  · rw [List.take_left' (by rw [length_toList, size_take]; omega)]
  · have none : (e.drop n).toList = [] := by
      rw [← List.length_eq_zero_iff, length_toList, size_drop]
      omega
    rw [none, List.append_nil, List.take_of_length_le (by rw [length_toList, size_take]; omega)]

@[simp] theorem toList_drop (n : Nat) (e : Extent) : (e.drop n).toList = e.toList.drop n := by
  have cut := e.toList_take_append_toList_drop n
  rw [toList_take] at cut
  exact List.append_cancel_left (cut.trans (List.take_append_drop n e.toList).symm)

/-- Resizing keeps the first bytes and fills up with zeros. -/
theorem toList_resize (n : Nat) (e : Extent) :
    (e.resize n).toList = e.toList.take n ++ List.replicate (n - e.size) 0 := by
  rw [resize]
  split
  · rw [List.take_of_length_le (by simp; omega)]
    simp
  · have none : n - e.size = 0 := by omega
    simp [none]

@[simp] theorem size_resize (n : Nat) (e : Extent) : (e.resize n).size = n := by
  rw [size_eq, toList_resize]
  simp
  omega

theorem toList_overwrite (e : Extent) (offset : Nat) (patch : Extent) :
    (e.overwrite offset patch).toList =
      e.toList.take offset ++ List.replicate (offset - e.size) 0 ++ patch.toList ++
        e.toList.drop (offset + patch.size) := by
  simp [overwrite, toList_resize]

private theorem toList_foldl_append (parts : List Extent) (e : Extent) :
    (parts.foldl append e).toList = e.toList ++ parts.flatMap toList := by
  induction parts generalizing e with
  | nil => simp
  | cons part rest ih =>
    have first : (append e part).toList = e.toList ++ part.toList := toList_append e part
    rw [List.foldl_cons, ih, first, List.flatMap_cons, List.append_assoc]

@[simp] theorem toList_concat (parts : List Extent) :
    (concat parts).toList = parts.flatMap toList := by
  rw [concat, toList_foldl_append, toList_empty, List.nil_append]

@[simp] theorem size_concat (parts : List Extent) : (concat parts).size = totalSize parts := by
  rw [size_eq, toList_concat, Word.length_flatMap]
  simp [totalSize]

/-- What is left after an advance is what is left of the joined bytes. -/
theorem flatMap_advance (n : Nat) (parts : List Extent) :
    (advance n parts).flatMap toList = (parts.flatMap toList).drop n := by
  induction parts generalizing n with
  | nil => simp [advance]
  | cons part rest ih =>
    rw [advance]
    split
    · rename_i fits
      simp [ih, List.drop_append, List.drop_of_length_le, fits]
    · have none : n - part.size = 0 := by omega
      simp [List.drop_append, none]

theorem totalSize_eq (parts : List Extent) : totalSize parts = (parts.flatMap toList).length := by
  simp only [totalSize, Word.length_flatMap, length_toList]

@[simp] theorem totalSize_advance (n : Nat) (parts : List Extent) :
    totalSize (advance n parts) = totalSize parts - n := by
  simp only [totalSize_eq, flatMap_advance, List.length_drop]

end Extent
end Spillway
