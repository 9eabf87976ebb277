import Mathlib.Data.List.Forall2
import Spillway.Proofs.Reading
/-!
Reading undoes framing, and framing undoes reading. The frames of any buffers are read back as these
buffers and nothing after them. The other way round, whatever byte string is read to its end without an
error is the frames of the buffers that were read: a header that is accepted is the only one with its
eight bytes, and a payload is as long as its header says. So a readable file has one reading, and it is
one that could have been written.
-/

namespace Spillway

variable {ρ : Type}

/-- From a state on, buffers are read one after the other, each into some segment, until the input has
no more. -/
inductive Source.Reads (source : Source ρ) : ρ → List Buffer → Prop
  | stop {state : ρ} (segment : Segment) (owner : Owner)
      (ended : (source.frame segment owner state).1.answer = .ok none) : source.Reads state []
  | next {state after : ρ} {read : Buffer} {rest : List Buffer} {returned : Option Segment}
      (segment : Segment) (owner : Owner)
      (found : source.frame segment owner state = (⟨.ok (some read), returned⟩, after))
      (later : source.Reads after rest) : source.Reads state (read :: rest)

/-! ## Headers -/

namespace Header

theorem ofFields_eq_ok {tag flags length : Nat} {header : Header}
    (accepted : ofFields tag flags length = .ok header) :
    header.kind.tag = tag ∧ header.flags = flags ∧ header.length = length ∧
      header.length ≤ maxLength := by
  unfold ofFields at accepted
  split at accepted
  · cases accepted
  · rename_i kind found
    split at accepted
    · cases accepted
    · rename_i known
      split at accepted
      · cases accepted
      · rename_i agrees
        split at accepted
        · cases accepted
        · rename_i short
          cases accepted
          have event : decide (2 ≤ flags) = kind.isEvent := by simpa using agrees
          refine ⟨Kind.ofTag?_eq_some_iff.mp found, ?_, rfl, Nat.le_of_not_lt short⟩
          -- Two bits are left: the upper one is the event flag, the lower one is read off.
          simp only [Header.flags, ← event, decide_eq_true_eq, beq_iff_eq]
          split <;> split <;> omega

theorem toBytes_of_ofBytes {bytes : List UInt8} {header : Header} (eight : bytes.length = width)
    (accepted : ofBytes bytes = .ok header) :
    header.toBytes = bytes ∧ header.length ≤ maxLength := by
  have eight' : bytes.length = 8 := eight
  rw [ofBytes, if_neg (by omega)] at accepted
  obtain ⟨tag, flags, length, short⟩ := ofFields_eq_ok accepted
  have back : ∀ part : List UInt8, ∀ n, part.length = n →
      Word.toBytes n (Word.ofBytes part) = part := by
    rintro part n rfl
    exact Word.toBytes_ofBytes part
  have last : (bytes.drop 4).take 4 = bytes.drop 4 := List.take_of_length_le (by simp; omega)
  refine ⟨?_, short⟩
  rw [toBytes, tag, flags, length, back _ 2 (by simp; omega), back _ 2 (by simp; omega),
    back _ 4 (by simp; omega), ← List.take_add, last]
  exact List.take_append_drop 4 bytes

end Header

/-- No header and no error is where nothing is left. -/
theorem headerAt_eq_none_iff {bytes : List UInt8} {position : Nat} :
    headerAt bytes position = .ok none ↔ bytes.length ≤ position := by
  unfold headerAt
  split
  · rename_i ended
    exact iff_of_true rfl ended
  · rename_i more
    refine iff_of_false ?_ more
    split
    · simp
    · cases Header.ofBytes ((bytes.drop position).take Header.width) <;> simp [Except.map]

/-- A header is where its bytes are, unless it is too long. -/
theorem headerAt_eq_some_iff {bytes : List UInt8} {position : Nat} {header : Header} :
    headerAt bytes position = .ok (some header) ↔
      header.toBytes <+: bytes.drop position ∧ header.length ≤ Header.maxLength := by
  constructor
  · unfold headerAt
    split
    · simp
    · split
      · simp
      · rename_i enough
        intro found
        cases accepted : Header.ofBytes ((bytes.drop position).take Header.width) with
        | error error => simp [accepted, Except.map] at found
        | ok other =>
          simp only [accepted, Except.map, Except.ok.injEq, Option.some.injEq] at found
          subst found
          obtain ⟨same, short⟩ := Header.toBytes_of_ofBytes (by simp; omega) accepted
          exact ⟨same ▸ List.take_prefix _ _, short⟩
  · rintro ⟨there, short⟩
    exact headerAt_eq_some short there

/-! ## What a source that plays a byte string has read -/

namespace Source.Plays

variable {source : Source ρ} {bytes : List UInt8} {stands : ρ → Nat → Prop}

/-- A frame cannot be read where fewer bytes are left than a header has. -/
theorem frame_short (plays : source.Plays bytes stands) {position : Nat} {state : ρ}
    (here : stands state position) (inside : position < bytes.length)
    (few : bytes.length < position + Header.width) (segment : Segment) (owner : Owner) :
    (source.frame segment owner state).1.answer = .error .truncatedHeader := by
  obtain ⟨after, short, -⟩ := plays.header_eq here
  rw [headerAt, if_neg (by omega), if_pos few] at short
  rw [Source.frame, short]

theorem ended_of_header (plays : source.Plays bytes stands) {position : Nat} {state after : ρ}
    (here : stands state position) (inside : position ≤ bytes.length)
    (none : source.header state = (.ok none, after)) : position = bytes.length := by
  obtain ⟨after', read, -⟩ := plays.header_eq here
  have ended := headerAt_eq_none_iff.mp (congrArg Prod.fst (read.symm.trans none))
  exact Nat.le_antisymm inside ended

theorem ended_of_frame (plays : source.Plays bytes stands) {position : Nat} {state : ρ}
    (here : stands state position) (inside : position ≤ bytes.length) {segment : Segment}
    {owner : Owner} (ended : (source.frame segment owner state).1.answer = .ok none) :
    position = bytes.length := by
  unfold Source.frame at ended
  split at ended
  · cases ended
  · rename_i after none
    exact plays.ended_of_header here inside none
  · split at ended
    · cases ended
    · split at ended
      · cases ended
      · cases ended
      · split at ended <;> cases ended

/-- A buffer that is read has its frame where reading began, and reading goes on behind it. -/
theorem framed_of_frame (plays : source.Plays bytes stands) {position : Nat} {state after : ρ}
    (here : stands state position) {segment : Segment} {owner : Owner} {read : Buffer}
    {returned : Option Segment}
    (found : source.frame segment owner state = (⟨.ok (some read), returned⟩, after)) :
    read.size ≤ Header.maxLength ∧ read.framed <+: bytes.drop position ∧
      stands after (position + read.frameSize) := by
  obtain ⟨behind, head, -⟩ := plays.header_eq here
  rcases headed : headerAt bytes position with error | _ | header
  · rw [headed] at head
    rw [Source.frame_of_header head (by simp)] at found
    cases found
  · rw [headed] at head
    rw [Source.frame_of_header head (by simp)] at found
    cases found
  · rw [headed] at head
    obtain ⟨front, short⟩ := headerAt_eq_some_iff.mp headed
    rcases Nat.lt_or_ge segment.capacity header.length with small | fits
    · rw [Source.frame_of_small head small] at found
      cases found
    · obtain ⟨payload, last, content, moved, framed⟩ := plays.frame_headed here headed fits owner
      rw [found] at framed
      split at framed
      · cases framed
        have size : payload.size = header.length := by
          rw [Extent.size_eq, content, List.length_take, List.length_drop]
          omega
        refine ⟨short, ?_, by rwa [size, Nat.add_assoc] at moved⟩
        rw [Buffer.framed_eq short, append_prefix_drop_iff, Header.length_toBytes,
          Header.readable_buffer fits size, content]
        exact ⟨front, List.take_prefix _ _⟩
      · cases framed

/-- What is read to the end of a byte string without an error is what is framed there. -/
theorem framed_of_reads (plays : source.Plays bytes stands) {state : ρ} {read : List Buffer}
    (reads : source.Reads state read) {position : Nat} (here : stands state position)
    (inside : position ≤ bytes.length) :
    Framable read ∧ read.flatMap Buffer.framed = bytes.drop position := by
  induction reads generalizing position with
  | stop segment owner ended =>
    have last := plays.ended_of_frame here inside ended
    refine ⟨by simp [Framable], ?_⟩
    rw [List.flatMap_nil, last, List.drop_length]
  | @next state after buffer rest returned segment owner found later ih =>
    obtain ⟨short, ⟨behind, split⟩, moved⟩ := plays.framed_of_frame here found
    have length := congrArg List.length split
    rw [List.length_append, Buffer.length_framed short, List.length_drop] at length
    have pos := buffer.frameSize_pos
    obtain ⟨framable, joined⟩ := ih moved (by omega)
    have left : bytes.drop (position + buffer.frameSize) = behind := by
      rw [← List.drop_drop, ← split, List.drop_left' (Buffer.length_framed short)]
    refine ⟨?_, by rw [List.flatMap_cons, joined, left, split]⟩
    intro other member
    rcases List.mem_cons.mp member with rfl | member
    · exact short
    · exact framable other member

end Source.Plays

/-! ## Round trips -/

theorem Buffer.Matches.of_common {read buffer other : Buffer} (first : read.Matches buffer)
    (second : read.Matches other) : buffer.Matches other :=
  ⟨first.kind.symm.trans second.kind, first.compressed.symm.trans second.compressed,
    first.payload.symm.trans second.payload⟩

/-- From one state, only one list of buffers is read. -/
theorem Source.Scans.unique {source : Source ρ} {state : ρ} {buffers others : List Buffer}
    (framable : Framable buffers) (framable' : Framable others)
    (scans : source.Scans state buffers) (scans' : source.Scans state others) :
    List.Forall₂ Buffer.Matches buffers others := by
  -- A segment of this size holds every payload that can be framed.
  have largest : (Extent.zeros Header.maxLength).size < Word.half := by decide
  induction buffers generalizing state others with
  | nil =>
    cases others with
    | nil => exact .nil
    | cons other rest =>
      have none := scans ⟨_, largest⟩ .nobody
      obtain ⟨read, after, found, -⟩ :=
        scans' ⟨_, largest⟩ .nobody (framable' other List.mem_cons_self)
      rw [found] at none
      cases none
  | cons buffer rest ih =>
    obtain ⟨read, after, found, same, later⟩ :=
      scans ⟨_, largest⟩ .nobody (framable buffer List.mem_cons_self)
    cases others with
    | nil =>
      have none := scans' ⟨_, largest⟩ .nobody
      rw [found] at none
      cases none
    | cons other rest' =>
      obtain ⟨read', after', found', same', later'⟩ :=
        scans' ⟨_, largest⟩ .nobody (framable' other List.mem_cons_self)
      rw [found] at found'
      cases found'
      refine .cons (same.of_common same') (ih ?_ ?_ later later')
      · exact fun buffer member => framable buffer (List.mem_cons_of_mem _ member)
      · exact fun other member => framable' other (List.mem_cons_of_mem _ member)

/-- Buffers that have the same frames are the same, up to what a frame does not say. -/
theorem matches_of_framed_eq {buffers others : List Buffer} (framable : Framable buffers)
    (framable' : Framable others)
    (same : buffers.flatMap Buffer.framed = others.flatMap Buffer.framed) :
    List.Forall₂ Buffer.Matches buffers others := by
  let bytes := Extent.ofList (buffers.flatMap Buffer.framed)
  let tape := Tape.ofExtent bytes (bytes.size + 1)
  have carries : Tape.Carries bytes.toList tape 0 := Tape.carries_ofExtent (Nat.lt_succ_self _)
  have plays := Tape.plays_carries true (buffers.flatMap Buffer.framed)
  rw [Extent.toList_ofList] at carries
  have first : (Tape.sourceKeeping true).Scans tape buffers :=
    plays.scans_framed framable carries (Nat.zero_le _) rfl
  have second : (Tape.sourceKeeping true).Scans tape others :=
    plays.scans_framed framable' carries (Nat.zero_le _) same
  exact first.unique framable framable' second

/-- The frames of any buffers that can be framed are read back, each into any segment that is large
enough, as these buffers and no more. Whatever is read to its end without an error is the frames of the
buffers that were read, which can all be framed. And buffers that differ in kind, compression or
payload have different frames. -/
theorem reading_inverts_framing :
    (∀ buffers, Framable buffers → ∀ (ρ : Type) (source : Source ρ) (stands : ρ → Nat → Prop),
      source.Plays (buffers.flatMap Buffer.framed) stands →
        ∀ state, stands state 0 → source.Scans state buffers) ∧
    (∀ (bytes : List UInt8) (ρ : Type) (source : Source ρ) (stands : ρ → Nat → Prop),
      source.Plays bytes stands → ∀ state, stands state 0 →
        ∀ read, source.Reads state read →
          Framable read ∧ read.flatMap Buffer.framed = bytes) ∧
    ∀ buffers others, Framable buffers → Framable others →
      buffers.flatMap Buffer.framed = others.flatMap Buffer.framed →
        List.Forall₂ Buffer.Matches buffers others := by
  refine ⟨?_, ?_, fun buffers others framable framable' same => ?_⟩
  · intro buffers framable ρ source stands plays state here
    exact plays.scans_framed framable here (Nat.zero_le _) rfl
  · intro bytes ρ source stands plays state here read reads
    exact plays.framed_of_reads reads here (Nat.zero_le _)
  · exact matches_of_framed_eq framable framable' same

/-- Two buffers, one without a payload, are read back from their nineteen bytes, and what was read has
these bytes. -/
theorem two_buffers_read_back :
    let empty : Buffer := ⟨⟨.ofList [7], by decide⟩, .nobody, .endOfSegment, 0, true, by decide⟩
    let three : Buffer := ⟨⟨.ofList [1, 2, 3, 9], by decide⟩, .pool, .data, 3, false, by decide⟩
    let bytes : List UInt8 := [8, 0, 3, 0, 0, 0, 0, 0, 1, 0, 0, 0, 3, 0, 0, 0, 1, 2, 3]
    let tape := Tape.ofExtent (.ofList bytes) Word.span
    (Tape.sourceKeeping false).Scans tape [empty, three] ∧
      ∃ read, (Tape.sourceKeeping false).Reads tape read ∧ read.flatMap Buffer.framed = bytes := by
  intro empty three bytes tape
  have framable : Framable [empty, three] := by simp [Framable, empty, three, Header.maxLength]
  have joined : [empty, three].flatMap Buffer.framed = bytes := by decide
  have plays := Tape.plays_carries false bytes
  have inside : (Extent.ofList bytes).size < Word.span := by decide
  have here : Tape.Carries bytes tape 0 := Tape.carries_ofExtent inside
  have framed : Tape.Carries ([empty, three].flatMap Buffer.framed) tape 0 := by rwa [joined]
  obtain ⟨scanned, written, -⟩ := reading_inverts_framing
  have scans := scanned _ framable Tape _ _ (Tape.plays_carries false _) tape framed
  refine ⟨scans, ?_⟩
  obtain ⟨first, after, found, -, rest⟩ := scans ⟨.zeros 3, by decide⟩ .nobody (by decide)
  obtain ⟨second, last, found', -, ended⟩ := rest ⟨.zeros 3, by decide⟩ .nobody (by decide)
  have reads : (Tape.sourceKeeping false).Reads tape [first, second] :=
    .next _ _ found (.next _ _ found' (.stop ⟨.zeros 3, by decide⟩ .nobody (ended _ _)))
  exact ⟨_, reads, (written bytes Tape _ _ plays tape here _ reads).2⟩

end Spillway
