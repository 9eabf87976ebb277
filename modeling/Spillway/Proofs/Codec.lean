import Mathlib.Data.Nat.Bitwise
import Mathlib.Data.Nat.Digits.Defs
import Spillway.Proofs.RoundTrip
/-!
Headers and their eight bytes. Between headers whose payload is not too long and the byte strings that
are accepted, writing and reading lead back and forth. What is asked of a byte string is told by the
numbers in its fields, and the first demand that is not met is the error. Nothing is asked of a header
that is written: of a length that does not fit into four bytes, the upper part is lost, and what is
read then is another header, or none.
-/

namespace Spillway

theorem Kind.tag_injective : Function.Injective Kind.tag := by
  intro kind other same
  have found := Kind.ofTag?_tag kind
  rw [same, Kind.ofTag?_tag] at found
  exact (Option.some.inj found).symm

namespace Header

/-! ## Demands on the fields -/

/-- The number whose bytes are given, least significant first. -/
def little (bytes : List UInt8) : Nat := Nat.ofDigits 256 (bytes.map UInt8.toNat)

/-- The numbers in the fields of a header. -/
structure Fields where
  tag : Nat
  flags : Nat
  length : Nat

/-- The numbers in the fields of eight bytes. -/
def fields (bytes : List UInt8) : Fields where
  tag := little (bytes.take 2)
  flags := little ((bytes.drop 2).take 2)
  length := little (bytes.drop 4)

/-- What must be true, and the error if it is not. -/
structure Demand where
  met : Prop
  error : FrameError

/-- What is asked of the fields of a header, in the order in which it is asked: the tag is that of a
kind, no flags are set but the lowest two, the upper one of these is set for events, and the length is
not too long. -/
def Fields.demands (fields : Fields) : List Demand :=
  [⟨fields.tag ≤ 8, .unknownKind fields.tag⟩,
   ⟨∀ bit, 2 ≤ bit → fields.flags.testBit bit = false, .invalidFlags fields.flags⟩,
   ⟨∀ kind : Kind, kind.tag = fields.tag → fields.flags.testBit 1 = kind.isEvent,
    .eventFlagMismatch⟩,
   ⟨fields.length ≤ maxLength, .lengthOverflow fields.length⟩]

/-- An error is that of the first demand that is not met. -/
def FirstUnmet (error : FrameError) : List Demand → Prop
  | [] => False
  | demand :: rest => (¬ demand.met ∧ demand.error = error) ∨ (demand.met ∧ FirstUnmet error rest)

theorem exists_firstUnmet_iff {demands : List Demand} :
    (∃ error, FirstUnmet error demands) ↔ ¬ ∀ demand ∈ demands, demand.met := by
  induction demands with
  | nil => simp [FirstUnmet]
  | cons demand rest ih =>
    by_cases met : demand.met
    · simp only [FirstUnmet, met, not_true, false_and, true_and, false_or, ih, List.forall_mem_cons]
    · simp [FirstUnmet, met]

theorem little_eq (bytes : List UInt8) : little bytes = Word.ofBytes bytes := by
  induction bytes with
  | nil => rfl
  | cons byte rest ih =>
    rw [Word.ofBytes, ← ih, little, List.map_cons, Nat.ofDigits_cons]
    rfl

theorem ofBytes_eq {bytes : List UInt8} (eight : bytes.length = width) :
    ofBytes bytes = ofFields (fields bytes).tag (fields bytes).flags (fields bytes).length := by
  have eight' : bytes.length = 8 := eight
  have last : (bytes.drop 4).take 4 = bytes.drop 4 := List.take_of_length_le (by simp; omega)
  rw [ofBytes, if_neg (by omega), last]
  simp only [fields, little_eq]

theorem lt_four_iff {flags : Nat} : flags < 4 ↔ ∀ bit, 2 ≤ bit → flags.testBit bit = false := by
  constructor
  · intro small bit above
    have le : 2 ^ 2 ≤ 2 ^ bit := Nat.pow_le_pow_right (by decide) above
    exact Nat.testBit_lt_two_pow (Nat.lt_of_lt_of_le small le)
  · intro clear
    exact Nat.lt_pow_two_of_testBit (n := 2) flags fun bit above => clear bit above

theorem testBit_one {flags : Nat} (small : flags < 4) :
    flags.testBit 1 = decide (2 ≤ flags) := by
  rw [Nat.testBit_eq_decide_div_mod_eq, decide_eq_decide]
  omega

/-- What is wrong with the fields is the first demand that they do not meet. -/
theorem ofFields_eq_error_iff {fields : Fields} {error : FrameError} :
    ofFields fields.tag fields.flags fields.length = .error error ↔
      FirstUnmet error fields.demands := by
  obtain ⟨tag, flags, length⟩ := fields
  simp only [Fields.demands, FirstUnmet, ← lt_four_iff]
  unfold ofFields
  split
  · rename_i unknown
    have above := Kind.ofTag?_eq_none_iff.mp unknown
    simp [show ¬ tag ≤ 8 by omega]
  · rename_i kind found
    obtain rfl := Kind.ofTag?_eq_some_iff.mp found
    have only : (∀ other : Kind, other.tag = kind.tag → flags.testBit 1 = other.isEvent) ↔
        flags.testBit 1 = kind.isEvent := by
      constructor
      · exact fun all => all kind rfl
      · intro same other tag
        rw [same, Kind.tag_injective tag]
    simp only [kind.tag_le, only, not_true, false_and, true_and, false_or, or_false, and_false]
    by_cases small : flags < 4
    · rw [if_neg (Nat.not_le.mpr small), testBit_one small]
      by_cases agrees : decide (2 ≤ flags) = kind.isEvent
      · by_cases short : length ≤ maxLength
        · simp [small, agrees, short, Nat.not_lt.mpr short]
        · simp [small, agrees, short, Nat.lt_of_not_le short]
      · simp [small, agrees]
    · simp [small, Nat.not_lt.mp small]

/-- Eight bytes are accepted exactly if all demands are met. -/
theorem accepted_iff {bytes : List UInt8} (eight : bytes.length = width) :
    (∃ header, ofBytes bytes = .ok header) ↔ ∀ demand ∈ (fields bytes).demands, demand.met := by
  rw [← not_iff_not, ← exists_firstUnmet_iff, ofBytes_eq eight]
  simp only [← ofFields_eq_error_iff]
  cases ofFields (fields bytes).tag (fields bytes).flags (fields bytes).length with
  | error error => simp
  | ok header => simp

end Header

/-- A header whose payload is not too long is written to eight bytes, from which it is read. Eight bytes
from which a header is read are those to which it is written, and its payload is not too long. They are
accepted exactly if their fields meet all demands, and otherwise the error is that of the first demand
that they do not meet. -/
theorem headers_correspond_to_accepted_bytes :
    (∀ header : Header, header.length ≤ Header.maxLength →
      header.toBytes.length = Header.width ∧ Header.ofBytes header.toBytes = .ok header) ∧
    ∀ bytes : List UInt8, bytes.length = Header.width →
      (∀ header, Header.ofBytes bytes = .ok header →
        header.length ≤ Header.maxLength ∧ header.toBytes = bytes) ∧
      ((∃ header, Header.ofBytes bytes = .ok header) ↔
        ∀ demand ∈ (Header.fields bytes).demands, demand.met) ∧
      ∀ error, Header.ofBytes bytes = .error error ↔
        Header.FirstUnmet error (Header.fields bytes).demands := by
  refine ⟨fun header short => ⟨header.length_toBytes, Header.ofBytes_toBytes short⟩, ?_⟩
  intro bytes eight
  refine ⟨fun header accepted => ?_, Header.accepted_iff eight, fun error => ?_⟩
  · exact (Header.toBytes_of_ofBytes eight accepted).symm
  · rw [Header.ofBytes_eq eight]
    exact Header.ofFields_eq_error_iff

/-- The header of three bytes that are an event is written and read. Of eight bytes with an unknown flag
and too great a length, the flags are what is wrong. -/
theorem an_event_and_an_unknown_flag :
    Header.ofBytes (Header.toBytes ⟨.event, true, 3⟩) = .ok ⟨.event, true, 3⟩ ∧
      Header.toBytes ⟨.event, true, 3⟩ = [2, 0, 3, 0, 3, 0, 0, 0] ∧
      Header.ofBytes [1, 0, 2, 1, 0, 0, 0, 0x80] = .error (.invalidFlags 0x102) := by
  obtain ⟨written, read⟩ := headers_correspond_to_accepted_bytes
  obtain ⟨back, -, -⟩ := read [2, 0, 3, 0, 3, 0, 0, 0] rfl
  obtain ⟨-, -, wrong⟩ := read [1, 0, 2, 1, 0, 0, 0, 0x80] rfl
  refine ⟨(written _ (by decide)).2, (back ⟨.event, true, 3⟩ rfl).2, (wrong _).mpr ?_⟩
  -- The tag is known, and bit eight is set.
  refine .inr ⟨by decide, .inl ⟨fun clear => ?_, by decide⟩⟩
  exact absurd (clear 8 (by decide)) (by decide)

/-! ## Lengths that do not fit -/

namespace Word

theorem toBytes_eq_iff {width m n : Nat} :
    toBytes width m = toBytes width n ↔ m % values width = n % values width := by
  have cut : ∀ k, toBytes width (k % values width) = toBytes width k := by
    intro k
    have back := toBytes_ofBytes (toBytes width k)
    rwa [length_toBytes, ofBytes_toBytes] at back
  constructor
  · intro same
    rw [← ofBytes_toBytes, same, ofBytes_toBytes]
  · intro same
    rw [← cut m, same, cut n]

end Word

namespace Header

/-- Headers have the same bytes exactly if they differ in the upper part of the length at most. -/
theorem toBytes_eq_iff {header other : Header} :
    other.toBytes = header.toBytes ↔ other.kind = header.kind ∧
      other.compressed = header.compressed ∧ other.length % 2 ^ 32 = header.length % 2 ^ 32 := by
  have values : Word.values 4 = 2 ^ 32 := rfl
  unfold toBytes
  constructor
  · intro same
    obtain ⟨front, length⟩ := List.append_inj same (by simp)
    obtain ⟨tag, flags⟩ := List.append_inj front (by simp)
    rw [Word.toBytes_eq_iff, tag_mod, tag_mod] at tag
    rw [Word.toBytes_eq_iff, flags_mod, flags_mod] at flags
    rw [Word.toBytes_eq_iff, values] at length
    refine ⟨Kind.tag_injective tag, ?_, length⟩
    rw [← flags_mod_two, flags, flags_mod_two]
  · rintro ⟨kind, compressed, length⟩
    have flags : other.flags = header.flags := by rw [Header.flags, Header.flags, kind, compressed]
    have low : Word.toBytes 4 other.length = Word.toBytes 4 header.length := by
      rwa [Word.toBytes_eq_iff, values]
    rw [kind, flags, low]

end Header

/-- Whatever its length, a header is written to eight bytes, but they say no more of the length than
fits into four. So what is read from them is the header itself exactly if its payload is not too long,
and otherwise one with a shorter payload, or none. Headers with the same bytes differ in the rest of the
length at most. -/
theorem headers_are_written_up_to_their_upper_length (header : Header) :
    header.toBytes.length = Header.width ∧
    (Header.ofBytes header.toBytes = .ok header ↔ header.length ≤ Header.maxLength) ∧
    Header.ofBytes header.toBytes =
      (if Header.maxLength < header.length % 2 ^ 32 then
        .error (.lengthOverflow (header.length % 2 ^ 32))
      else .ok { header with length := header.length % 2 ^ 32 }) ∧
    ∀ other : Header, other.toBytes = header.toBytes ↔ other.kind = header.kind ∧
      other.compressed = header.compressed ∧ other.length % 2 ^ 32 = header.length % 2 ^ 32 := by
  have read := header.ofBytes_toBytes_eq
  rw [Header.ofFields_fields] at read
  refine ⟨header.length_toBytes, ⟨fun same => ?_, Header.ofBytes_toBytes⟩, read,
    fun other => Header.toBytes_eq_iff⟩
  exact (Header.toBytes_of_ofBytes header.length_toBytes same).2

/-- The header of a payload of more than four gigabytes has the bytes of one that is five bytes long, and
that of two gigabytes has bytes that are refused. Neither is refused when it is written. -/
theorem great_lengths_are_written_wrong :
    let great : Header := ⟨.data, false, 0x100000005⟩
    let refused : Header := ⟨.data, false, 0x80000000⟩
    great.length < Word.span ∧ refused.length < Word.span ∧
      great.toBytes = [1, 0, 0, 0, 5, 0, 0, 0] ∧
      Header.ofBytes great.toBytes = .ok ⟨.data, false, 5⟩ ∧
      Header.ofBytes great.toBytes ≠ .ok great ∧
      Header.ofBytes refused.toBytes = .error (.lengthOverflow 0x80000000) := by
  decide

end Spillway
