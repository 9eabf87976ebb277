import Spillway.Proofs.Reading
/-!
What becomes of a segment that is lent for reading. Whatever the input does, the segment is in one
place afterwards: it holds the buffer that was read, or it has gone back. It is touched only once a
header was read that leaves room in it for the payload, and then only where the payload goes; so no
read runs out of the segment, and a payload that is there always becomes a buffer.
-/

namespace Spillway

variable {ρ : Type}

/-- The header of the next frame, if a valid one is read. -/
def Source.head? (source : Source ρ) (state : ρ) : Option Header :=
  match (source.header state).1 with
  | .ok head => head
  | .error _ => none

/-- The header of the frame at an offset, if the offset is found and a valid header is read there. -/
def Source.headAt? (source : Source ρ) (offset : Nat) (state : ρ) : Option Header :=
  match source.seek state offset with
  | (.error _, _) => none
  | (.ok (), found) => source.head? found

theorem Source.headAt?_of_found {source : Source ρ} {offset : Nat} {state : ρ}
    (found : (source.seek state offset).1 = .ok ()) :
    source.headAt? offset state = source.head? (source.seek state offset).2 := by
  rw [headAt?, show source.seek state offset = (.ok (), (source.seek state offset).2) from
    Prod.ext found rfl]

/-- A segment is what it was, except for its first `limit` bytes. -/
structure Segment.SameBehind (before after : Segment) (limit : Nat) : Prop where
  capacity : after.capacity = before.capacity
  bytes : after.bytes.toList.drop limit = before.bytes.toList.drop limit

/-- Where a segment is once reading has ended: it is that of the buffer which is the answer, and will
go back to `owner`, or there is no buffer and it has gone back. -/
inductive Loan.Leaves (owner : Owner) : Loan → Segment → Prop
  | kept (buffer : Buffer) (owned : buffer.owner = owner) :
    Leaves owner ⟨.ok (some buffer), none⟩ buffer.segment
  | back {answer : Except FrameError (Option Buffer)} (after : Segment)
      (without : ∀ buffer, answer ≠ .ok (some buffer)) : Leaves owner ⟨answer, some after⟩ after

/-- What is true of a loan once reading has ended, where `head` is the header that was read, if a valid
one was. -/
structure Loan.Accounted (loan : Loan) (segment : Segment) (owner : Owner) (head : Option Header) :
    Prop where
  /-- Behind the payload the segment is unchanged, and without a payload that fits, all of it. -/
  place : ∃ after, loan.Leaves owner after ∧
    (∀ header ∈ head, segment.SameBehind after header.length) ∧
    ((∀ header ∈ head, segment.capacity < header.length) → after = segment)
  /-- The segment is called too small if and only if it is. -/
  mismatch : ∀ length capacity, loan.answer = .error (.sizeMismatch length capacity) ↔
    capacity = segment.capacity ∧ capacity < length ∧ ∃ header ∈ head, header.length = length

namespace Segment

theorem SameBehind.refl (segment : Segment) (limit : Nat) : segment.SameBehind segment limit :=
  ⟨rfl, rfl⟩

/-- A payload changes nothing behind it. -/
theorem sameBehind_load {segment : Segment} {bytes : Extent} {limit : Nat}
    (few : bytes.size ≤ limit) (room : limit ≤ segment.capacity) :
    segment.SameBehind (segment.load bytes) limit := by
  obtain ⟨behind, rfl⟩ := Nat.exists_eq_add_of_le few
  refine ⟨capacity_load segment bytes, ?_⟩
  have within : bytes.toList.length ≤ segment.capacity := by
    rw [Extent.length_toList]
    omega
  rw [load, Extent.toList_append, Extent.toList_take, Extent.toList_drop,
    List.take_of_length_le within, ← List.drop_drop, List.drop_left' bytes.length_toList,
    List.drop_drop]

theorem overwrite_of_fits {segment : Segment} {bytes : Extent}
    (fits : bytes.size ≤ segment.capacity) :
    ∃ after, segment.overwrite? 0 bytes = some after ∧
      after.bytes.toList = (segment.load bytes).bytes.toList := by
  have small := segment.size_lt
  have same : (segment.bytes.overwrite 0 bytes).toList = (segment.load bytes).bytes.toList := by
    have all : bytes.toList.length ≤ segment.capacity := by rwa [Extent.length_toList]
    rw [load, Extent.toList_append, Extent.toList_take, List.take_of_length_le all,
      Extent.toList_overwrite]
    simp
  have size : (segment.bytes.overwrite 0 bytes).size < Word.half := by
    rw [Extent.size_eq, same, Extent.length_toList]
    exact (segment.load bytes).size_lt
  refine ⟨⟨_, size⟩, ?_, same⟩
  rw [overwrite?, if_pos (by omega), ofExtent?, dif_pos size]

end Segment

theorem Source.gather_le (source : Source ρ) (wanted : Nat) (state : ρ) :
    (source.gather wanted state).1.size ≤ wanted := by
  fun_induction source.gather wanted state with
  | case1 state => exact Nat.le_refl 0
  | case2 wanted state some after call ih => exact ih
  | case3 wanted state some cause after call fatal => exact Nat.zero_le _
  | case4 wanted state some found after call none => exact Nat.zero_le _
  | case5 wanted state some found after call nonzero rest ih =>
    have few := source.read_le state wanted found (by rw [call])
    have less : rest.1.size ≤ wanted - found.size := ih
    rw [Extent.size_append]
    omega

/-- What is wrong with a header is not that a segment is too small. -/
theorem Header.ofBytes_ne_sizeMismatch (bytes : List UInt8) (length capacity : Nat) :
    ofBytes bytes ≠ .error (.sizeMismatch length capacity) := by
  unfold ofBytes ofFields
  split
  · simp
  · split
    · simp
    · split
      · simp
      · split
        · simp
        · split <;> simp

theorem Source.header_ne_sizeMismatch (source : Source ρ) (state : ρ) (length capacity : Nat) :
    (source.header state).1 ≠ .error (.sizeMismatch length capacity) := by
  unfold header
  split
  · rename_i bytes after gathered
    have valid := Header.ofBytes_ne_sizeMismatch bytes.toList length capacity
    cases accepted : Header.ofBytes bytes.toList with
    | error error => simpa [Except.map, accepted] using valid
    | ok header => simp [Except.map]
  · dsimp only
    split <;> simp
  · simp

theorem Loan.Leaves.returned_eq {owner : Owner} {loan : Loan} {after : Segment}
    (leaves : loan.Leaves owner after) (without : ∀ buffer, loan.answer ≠ .ok (some buffer)) :
    loan.returned = some after := by
  cases leaves with
  | kept buffer owned => exact absurd rfl (without buffer)
  | back after none => rfl

namespace Loan.Accounted

variable {segment : Segment} {owner : Owner} {head : Option Header}

/-- A segment that went back as it was, without a header that leaves room. -/
theorem untouched {answer : Except FrameError (Option Buffer)}
    (without : ∀ buffer, answer ≠ .ok (some buffer))
    (mismatch : ∀ length capacity, answer = .error (.sizeMismatch length capacity) ↔
      capacity = segment.capacity ∧ capacity < length ∧ ∃ header ∈ head, header.length = length) :
    Accounted ⟨answer, some segment⟩ segment owner head :=
  ⟨⟨segment, .back segment without, fun header _ => .refl segment header.length, fun _ => rfl⟩,
    mismatch⟩

/-- A segment whose first bytes may have been written, for a header that leaves room. -/
theorem filled {loan : Loan} {after : Segment} {header : Header} (leaves : loan.Leaves owner after)
    (room : header.length ≤ segment.capacity) (same : segment.SameBehind after header.length)
    (fine : ∀ length capacity, loan.answer ≠ .error (.sizeMismatch length capacity)) :
    loan.Accounted segment owner (some header) := by
  refine ⟨⟨after, leaves, ?_, fun less => ?_⟩, fun length capacity => ?_⟩
  · rintro _ ⟨rfl⟩
    exact same
  · exact absurd (less header rfl) (Nat.not_lt.mpr room)
  · refine iff_of_false (fine length capacity) ?_
    rintro ⟨rfl, less, _, ⟨rfl⟩, rfl⟩
    exact absurd less (Nat.not_lt.mpr room)

/-- It makes no difference to the segment whether a frame was due. -/
theorem demanded {loan : Loan} (accounted : loan.Accounted segment owner head) :
    Accounted ⟨Spillway.demanded loan.answer, loan.returned⟩ segment owner head := by
  obtain ⟨⟨after, leaves, same, whole⟩, mismatch⟩ := accounted
  refine ⟨⟨after, ?_, same, whole⟩, fun length capacity => ?_⟩
  · cases leaves with
    | kept buffer owned => exact .kept buffer owned
    | @back answer after without =>
      refine .back after ?_
      rcases answer with error | _ | buffer
      · exact without
      · simp [Spillway.demanded]
      · exact absurd rfl (without buffer)
  · rw [← mismatch]
    rcases loan.answer with error | _ | buffer <;> simp [Spillway.demanded]

end Loan.Accounted

theorem Source.sameBehind_torn (source : Source ρ) {segment : Segment} {bytes : Extent}
    {limit : Nat} (few : bytes.size ≤ limit) (room : limit ≤ segment.capacity) :
    segment.SameBehind (source.torn segment bytes) limit := by
  unfold torn
  split
  · exact Segment.sameBehind_load few room
  · exact .refl segment limit

theorem Source.accounted_frame (source : Source ρ) (segment : Segment) (owner : Owner)
    (state : ρ) :
    (source.frame segment owner state).1.Accounted segment owner (source.head? state) := by
  have valid := source.header_ne_sizeMismatch state
  unfold frame head?
  split
  · rename_i error after head
    rw [head] at valid ⊢
    exact .untouched (by simp) (by simpa using valid)
  · rename_i after head
    rw [head]
    exact .untouched (by simp) (by simp)
  · rename_i header headed head
    rw [head]
    split
    · rename_i less
      refine .untouched (by simp) fun length capacity => ?_
      constructor
      · rintro ⟨rfl⟩
        exact ⟨rfl, less, header, rfl, rfl⟩
      · rintro ⟨rfl, -, _, ⟨rfl⟩, rfl⟩
        rfl
    · rename_i fits
      have room : header.length ≤ segment.capacity := Nat.not_lt.mp fits
      have few := source.gather_le header.length headed
      split
      · rename_i bytes cause after gathered
        rw [gathered] at few
        exact .filled (.back _ (by simp)) room (source.sameBehind_torn few room) (by simp)
      · rename_i bytes after gathered
        rw [gathered] at few
        exact .filled (.back _ (by simp)) room (source.sameBehind_torn few room) (by simp)
      · rename_i bytes after gathered
        rw [gathered] at few
        have loaded : header.length ≤ (segment.load bytes).capacity := by
          rwa [Segment.capacity_load]
        have same := Segment.sameBehind_load few room
        rw [Buffer.ofSegment, dif_pos loaded]
        exact .filled (.kept _ rfl) room same (by simp)

theorem Source.accounted_frameAt (source : Source ρ) (offset : Nat) (segment : Segment)
    (owner : Owner) (state : ρ) :
    (source.frameAt offset segment owner state).1.Accounted segment owner
      (source.headAt? offset state) := by
  cases sought : (source.seek state offset).1 with
  | error cause =>
    have failed : source.seek state offset = (.error cause, (source.seek state offset).2) :=
      Prod.ext sought rfl
    rw [headAt?, frameAt, failed]
    exact .untouched (by simp) (by simp)
  | ok =>
    rw [headAt?_of_found sought, frameAt_of_found sought]
    exact (source.accounted_frame segment owner _).demanded

/-- However an input behaves, a segment that is lent to it for the next frame, or for the frame at an
offset, is accounted for. What a read brings is never more than was asked for. So where a header leaves
room for its payload, the bytes that come are stored inside of the segment, and the buffer that is to
hold them can be made. -/
theorem lent_segments_are_accounted_for (source : Source ρ) (segment : Segment) (owner : Owner) :
    (∀ state, (source.frame segment owner state).1.Accounted segment owner (source.head? state)) ∧
    (∀ offset state, (source.frameAt offset segment owner state).1.Accounted segment owner
      (source.headAt? offset state)) ∧
    (∀ wanted state, (source.gather wanted state).1.size ≤ wanted) ∧
    ∀ header : Header, header.length ≤ segment.capacity → ∀ state,
      (∃ after, segment.overwrite? 0 (source.gather header.length state).1 = some after ∧
        after.bytes.toList = (segment.load (source.gather header.length state).1).bytes.toList) ∧
      ∃ buffer, Buffer.ofSegment (segment.load (source.gather header.length state).1) owner
        header.kind header.length = .ok buffer := by
  refine ⟨source.accounted_frame segment owner,
    fun offset => source.accounted_frameAt offset segment owner, source.gather_le, ?_⟩
  intro header room state
  have few := source.gather_le header.length state
  refine ⟨Segment.overwrite_of_fits (Nat.le_trans few room), ?_⟩
  rw [Buffer.ofSegment, dif_pos (by rwa [Segment.capacity_load])]
  exact ⟨_, rfl⟩

/-- A segment of two bytes goes back as it is when a payload of three bytes is to be read into it, from
where the input stands or from the offset where the frame begins. Two bytes would have become a buffer. -/
theorem two_bytes_go_back :
    let tape := Tape.ofExtent (.ofList [1, 0, 0, 0, 3, 0, 0, 0, 1, 2, 3]) Word.span
    let segment : Segment := ⟨.ofList [7, 7], by decide⟩
    (Tape.source.frame segment .pool tape).1 = ⟨.error (.sizeMismatch 3 2), some segment⟩ ∧
      (Tape.source.frameAt 0 segment .pool tape).1 = ⟨.error (.sizeMismatch 3 2), some segment⟩ ∧
      ∃ buffer, Buffer.ofSegment (segment.load (Tape.source.gather 2 tape).1) .pool .data 2 =
        .ok buffer := by
  intro tape segment
  let three : Header := ⟨.data, false, 3⟩
  let bytes : List UInt8 := [1, 0, 0, 0, 3, 0, 0, 0, 1, 2, 3]
  have reach : (Extent.ofList bytes).size < Word.span := by decide
  have here : Tape.Carries bytes tape 0 := Tape.carries_ofExtent reach
  have plays : Tape.source.Plays bytes (Tape.Carries bytes) := Tape.plays_carries true bytes
  have headed : ∀ state, Tape.Carries bytes state 0 → Tape.source.head? state = some three := by
    intro state stands
    obtain ⟨after, head, -⟩ := plays.header_full three (by decide) stands (by decide)
    rw [Source.head?, head]
  have returned : ∀ loan : Loan, loan.Accounted segment .pool (some three) →
      loan = ⟨.error (.sizeMismatch 3 2), some segment⟩ := by
    rintro ⟨answer, returned⟩ ⟨⟨after, leaves, -, whole⟩, mismatch⟩
    have answered := (mismatch 3 2).mpr ⟨rfl, by decide, three, rfl, rfl⟩
    have back := leaves.returned_eq fun buffer found => by cases answered.symm.trans found
    rw [whole (by rintro _ ⟨rfl⟩; decide)] at back
    exact congr (congrArg Loan.mk answered) back
  obtain ⟨next, sought, -, stores⟩ := lent_segments_are_accounted_for Tape.source segment .pool
  obtain ⟨moved, there⟩ := plays.seek tape 0 0 here (Nat.zero_le _)
  refine ⟨returned _ (headed tape here ▸ next tape), returned _ ?_,
    (stores ⟨.data, false, 2⟩ (by decide) tape).2⟩
  have found := sought 0 tape
  rwa [Source.headAt?_of_found moved, headed _ there] at found

end Spillway
