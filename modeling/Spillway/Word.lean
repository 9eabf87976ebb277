/-!
Machine words. Lengths and offsets are natural numbers that must stay inside 64 bits, so a sum is
checked where it could leave them. Numbers are stored with the least significant byte first:
reading gives back what was written, up to the digits that the width cuts off.
-/

namespace Spillway.Word

/-- The number of values of a 64-bit word: offsets and lengths stay below it. -/
def span : Nat := 0x10000000000000000

/-- Half of `span`: no byte string in memory is that long, and no file offset reaches it. -/
def half : Nat := 0x8000000000000000

/-- The sum of two words, unless it leaves 64 bits. Sums are taken with overflow checks on: whoever
takes one that leaves 64 bits crashes. With the checks off the sum would wrap around. -/
def add? (a b : Nat) : Option Nat :=
  if a + b < span then some (a + b) else none

def total (ns : List Nat) : Nat := ns.foldr (fun n sum => n + sum) 0

/-- The number of values that so many bytes have. -/
def values : (width : Nat) → Nat
  | 0 => 1
  | width + 1 => 256 * values width

/-- The lowest `width` bytes of `n`, least significant first. -/
def toBytes : (width : Nat) → Nat → List UInt8
  | 0, _ => []
  | width + 1, n => UInt8.ofNat n :: toBytes width (n / 256)

/-- The number whose bytes are given, least significant first. -/
def ofBytes : List UInt8 → Nat
  | [] => 0
  | byte :: rest => byte.toNat + 256 * ofBytes rest

/-- The low `width` bytes of an integer, read as a number. -/
def ofSigned (width : Nat) (value : Int) : Nat :=
  (value % (values width : Int)).toNat

/-- A number of `width` bytes read with its highest bit as the sign. -/
def toSigned (width : Nat) (n : Nat) : Int :=
  if 2 * n < values width then (n : Int) else (n : Int) - (values width : Int)

theorem add?_eq_some_iff {a b c : Nat} : add? a b = some c ↔ a + b = c ∧ c < span := by
  unfold add?
  split <;> simp <;> omega

theorem add?_eq_none_iff {a b : Nat} : add? a b = none ↔ span ≤ a + b := by
  unfold add?
  split <;> simp <;> omega

@[simp] theorem total_nil : total [] = 0 := rfl

@[simp] theorem total_cons (n : Nat) (ns : List Nat) : total (n :: ns) = n + total ns := rfl

@[simp] theorem total_append (ms ns : List Nat) : total (ms ++ ns) = total ms + total ns := by
  induction ms with
  | nil => simp
  | cons m ms ih => simp [ih, Nat.add_assoc]

@[simp] theorem total_reverse (ns : List Nat) : total ns.reverse = total ns := by
  induction ns with
  | nil => rfl
  | cons n ns ih => rw [List.reverse_cons, total_append, ih, total_cons, total_cons, total_nil,
      Nat.add_zero, Nat.add_comm]

theorem length_flatMap {α β : Type} (f : α → List β) (xs : List α) :
    (xs.flatMap f).length = total (xs.map fun x => (f x).length) := by
  induction xs with
  | nil => rfl
  | cons x xs ih => simp [ih]

@[simp] theorem length_toBytes (width n : Nat) : (toBytes width n).length = width := by
  induction width generalizing n with
  | zero => rfl
  | succ width ih => simp [toBytes, ih]

theorem ofBytes_toBytes (width n : Nat) : ofBytes (toBytes width n) = n % values width := by
  induction width generalizing n with
  | zero => simp [toBytes, ofBytes, values, Nat.mod_one]
  | succ width ih =>
    rw [toBytes, ofBytes, ih, values, Nat.mod_mul]
    simp

theorem toBytes_ofBytes (bytes : List UInt8) : toBytes bytes.length (ofBytes bytes) = bytes := by
  induction bytes with
  | nil => rfl
  | cons byte rest ih =>
    have small := byte.toNat_lt
    have high : (byte.toNat + 256 * ofBytes rest) / 256 = ofBytes rest := by omega
    have low : UInt8.ofNat (byte.toNat + 256 * ofBytes rest) = byte := by
      apply UInt8.toNat_inj.mp
      simp
    simp [toBytes, ofBytes, high, low, ih]

end Spillway.Word
