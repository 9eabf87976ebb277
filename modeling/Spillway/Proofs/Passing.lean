import Spillway.Proofs.RoundTrip
/-!
Passing over frames. Whatever bytes there are and wherever a source stands, passing over a frame agrees
with reading it: both find that there is no frame, or that the header is wrong, and stand at the same
place then; and where a frame is read, its header is the one that is passed over, and both stand behind
it. They part only where a payload is cut off by the end, which passing does not notice. So passing
over the frames of some buffers goes from one of them to the next.
-/

namespace Spillway

variable {ρ : Type}

/-- A move from a position ends at the target if that is below `reach`, and is refused otherwise. -/
def Lands (stands : ρ → Nat → Prop) (reach position target : Nat)
    (moved : Except Cause Unit × ρ) : Prop :=
  if target < reach then moved.1 = .ok () ∧ stands moved.2 target
  else moved.1 = .error .invalidInput ∧ stands moved.2 position

/-- A source plays a byte string, and can be moved to every position below `reach`, also behind the end,
and to no other one. -/
structure Source.Ranges (source : Source ρ) (bytes : List UInt8) (reach : Nat)
    (stands : ρ → Nat → Prop) : Prop extends source.Plays bytes stands where
  seeks : ∀ state position offset, stands state position →
    Lands stands reach position offset (source.seek state offset)
  skips : ∀ state position distance, stands state position →
    Lands stands reach position (position + distance) (source.skip state distance)

/-- The state after so many calls that pass over a frame. -/
def Source.passing (source : Source ρ) : Nat → ρ → ρ
  | 0, state => state
  | n + 1, state => source.passing n (source.pass state).2

/-- How passing over a frame and reading it end, both begun at `position`: first the answer and the
state of the one, then those of the other. -/
inductive Source.Agrees (source : Source ρ) (bytes : List UInt8) (stands : ρ → Nat → Prop)
    (position : Nat) : Except FrameError (Option Header) × ρ → Loan × ρ → Prop
  /-- There is nothing left. -/
  | ended {passed read : ρ} (segment : Segment) (gone : bytes.length ≤ position)
      (first : stands passed position) (second : stands read position) :
      Agrees source bytes stands position (.ok none, passed) (⟨.ok none, some segment⟩, read)
  /-- Of the header, a part is left. -/
  | truncated {passed read : ρ} (segment : Segment) (left : position < bytes.length)
      (few : bytes.length < position + Header.width)
      (first : stands passed bytes.length) (second : stands read bytes.length) :
      Agrees source bytes stands position (.error .truncatedHeader, passed)
        (⟨.error .truncatedHeader, some segment⟩, read)
  /-- The bytes of the header are refused. -/
  | refused {passed read : ρ} {error : FrameError} (segment : Segment)
      (enough : position + Header.width ≤ bytes.length)
      (wrong : Header.ofBytes ((bytes.drop position).take Header.width) = .error error)
      (first : stands passed (position + Header.width))
      (second : stands read (position + Header.width)) :
      Agrees source bytes stands position (.error error, passed)
        (⟨.error error, some segment⟩, read)
  /-- The whole frame is there. -/
  | whole {passed read : ρ} {buffer : Buffer}
      (headed : Header.ofBytes ((bytes.drop position).take Header.width) = .ok buffer.head)
      (all : position + buffer.frameSize ≤ bytes.length)
      (first : stands passed (position + buffer.frameSize))
      (second : stands read (position + buffer.frameSize)) :
      Agrees source bytes stands position (.ok (some buffer.head), passed)
        (⟨.ok (some buffer), none⟩, read)
  /-- The header is there, but the payload is cut off. Passing goes on behind the end. -/
  | torn {passed read : ρ} {header : Header} (segment : Segment)
      (headed : Header.ofBytes ((bytes.drop position).take Header.width) = .ok header)
      (enough : position + Header.width ≤ bytes.length)
      (cut : bytes.length < position + Header.width + header.length)
      (first : stands passed (position + Header.width + header.length))
      (second : stands read bytes.length)
      (passes : (source.pass passed).1 = .ok none)
      (reads : ∀ segment owner, (source.frame segment owner passed).1.answer = .ok none) :
      Agrees source bytes stands position (.ok (some header), passed)
        (⟨.error (.io .unexpectedEof), some segment⟩, read)

namespace Source

theorem pass_of_header {source : Source ρ} {state after : ρ}
    {answer : Except FrameError (Option Header)} (headed : source.header state = (answer, after))
    (without : ∀ header, answer ≠ .ok (some header)) : source.pass state = (answer, after) := by
  unfold pass
  rw [headed]
  rcases answer with error | _ | header
  · rfl
  · rfl
  · exact absurd rfl (without header)

theorem pass_of_found {source : Source ρ} {state behind : ρ} {header : Header}
    (found : source.header state = (.ok (some header), behind)) :
    source.pass state =
      (((source.skip behind header.length).1.mapError FrameError.io).map fun _ => some header,
        (source.skip behind header.length).2) := by
  rw [pass, found]
  rcases skipped : source.skip behind header.length with ⟨cause | _, after⟩
  · simp only [skipped, Except.mapError, Except.map]
  · simp only [skipped, Except.mapError, Except.map]

namespace Ranges

variable {source : Source ρ} {bytes : List UInt8} {reach : Nat} {stands : ρ → Nat → Prop}

/-- A frame whose header is there is passed over, up to its end. -/
theorem pass_headed (ranges : source.Ranges bytes reach stands)
    (room : bytes.length + Header.maxLength < reach) {position : Nat} {state : ρ}
    (here : stands state position) {header : Header}
    (headed : headerAt bytes position = .ok (some header)) :
    ∃ after, source.pass state = (.ok (some header), after) ∧
      stands after (position + Header.width + header.length) := by
  have enough := width_le_of_headerAt headed
  have short := (headerAt_eq_some_iff.mp headed).2
  obtain ⟨behind, found, moved⟩ := ranges.header_eq here
  rw [headed] at found
  rw [Nat.min_eq_left (by omega)] at moved
  have lands := ranges.skips behind _ header.length moved
  rw [Lands, if_pos (by omega)] at lands
  exact ⟨_, by rw [pass_of_found found, lands.1]; rfl, lands.2⟩

theorem pass_end (ranges : source.Ranges bytes reach stands) {position : Nat} {state : ρ}
    (here : stands state position) (gone : bytes.length ≤ position) :
    (source.pass state).1 = .ok none := by
  obtain ⟨after, headed, -⟩ := ranges.header_eq here
  rw [headerAt_eq_none_iff.mpr gone] at headed
  rw [pass_of_header headed (by simp)]

/-- Behind a header, passing goes over the whole payload, and reading takes as much of it as there is. -/
theorem agrees_headed (ranges : source.Ranges bytes reach stands)
    (room : bytes.length + Header.maxLength < reach) {position : Nat} {state : ρ}
    (here : stands state position) {header : Header} (enough : position + Header.width ≤ bytes.length)
    (read : Header.ofBytes ((bytes.drop position).take Header.width) = .ok header)
    {segment : Segment} (fits : header.length ≤ segment.capacity) (owner : Owner) :
    source.Agrees bytes stands position (source.pass state) (source.frame segment owner state) := by
  have width : 0 < Header.width := by decide
  have there : headerAt bytes position = .ok (some header) := by
    rw [headerAt, if_neg (by omega), if_neg (by omega), read]
    rfl
  obtain ⟨passed, passes, beyond⟩ := ranges.pass_headed room here there
  obtain ⟨payload, last, content, behind, framed⟩ := ranges.frame_headed here there fits owner
  have size := congrArg List.length content
  rw [Extent.length_toList, List.length_take, List.length_drop] at size
  rw [passes, framed]
  by_cases all : position + Header.width + header.length ≤ bytes.length
  · rw [if_pos all]
    rw [show payload.size = header.length by omega] at behind
    rw [Nat.add_assoc] at all behind beyond
    exact @Agrees.whole _ _ _ _ _ _ _ (header.buffer fits payload owner) read all beyond behind
  · rw [if_neg all]
    rw [show position + Header.width + payload.size = bytes.length by omega] at behind
    have cut := Nat.lt_of_not_le all
    refine .torn _ read enough cut beyond behind ?_ fun segment owner => ?_
    · exact ranges.pass_end beyond (Nat.le_of_lt cut)
    · exact ranges.frame_end beyond (Nat.le_of_lt cut) segment owner

/-- Passing over a frame agrees with reading it into a segment that is large enough. -/
theorem agrees (ranges : source.Ranges bytes reach stands)
    (room : bytes.length + Header.maxLength < reach) {position : Nat} {state : ρ}
    (here : stands state position) {segment : Segment}
    (fits : ∀ header, Header.ofBytes ((bytes.drop position).take Header.width) = .ok header →
      header.length ≤ segment.capacity) (owner : Owner) :
    source.Agrees bytes stands position (source.pass state) (source.frame segment owner state) := by
  obtain ⟨after, headed, moved⟩ := ranges.header_eq here
  by_cases gone : bytes.length ≤ position
  · rw [headerAt, if_pos gone] at headed
    rw [show min Header.width (bytes.length - position) = 0 by omega] at moved
    rw [pass_of_header headed (by simp), frame_of_header headed (by simp)]
    exact .ended segment gone moved moved
  by_cases few : bytes.length < position + Header.width
  · rw [headerAt, if_neg gone, if_pos few] at headed
    rw [show position + min Header.width (bytes.length - position) = bytes.length by omega] at moved
    rw [pass_of_header headed (by simp), frame_of_header headed (by simp)]
    exact .truncated segment (Nat.lt_of_not_le gone) few moved moved
  have enough : position + Header.width ≤ bytes.length := Nat.le_of_not_lt few
  cases read : Header.ofBytes ((bytes.drop position).take Header.width) with
  | error error =>
    rw [headerAt, if_neg gone, if_neg few, read] at headed
    rw [Nat.min_eq_left (by omega)] at moved
    rw [pass_of_header headed (by simp [Except.map]), frame_of_header headed (by simp [Except.map])]
    exact .refused segment enough read moved moved
  | ok header => exact ranges.agrees_headed room here enough read (fits header read) owner

theorem pass_framed (ranges : source.Ranges bytes reach stands)
    (room : bytes.length + Header.maxLength < reach) {position : Nat} {state : ρ}
    (here : stands state position) {buffer : Buffer} (short : buffer.size ≤ Header.maxLength)
    (there : buffer.framed <+: bytes.drop position) :
    ∃ after, source.pass state = (.ok (some buffer.head), after) ∧
      stands after (position + buffer.frameSize) := by
  rw [Buffer.framed_eq short, append_prefix_drop_iff] at there
  have headed : headerAt bytes position = .ok (some buffer.head) := headerAt_eq_some short there.1
  obtain ⟨after, passed, moved⟩ := ranges.pass_headed room here headed
  exact ⟨after, passed, by rwa [Nat.add_assoc] at moved⟩

/-- Passing over the frames of some buffers that lie one behind the other, up to the end, goes from
each to the next. -/
theorem passing_framed (ranges : source.Ranges bytes reach stands)
    (room : bytes.length + Header.maxLength < reach) {buffers : List Buffer}
    (framable : Framable buffers) {position : Nat} {state : ρ} (here : stands state position)
    (last : bytes.drop position = buffers.flatMap Buffer.framed) {n : Nat}
    (within : n ≤ buffers.length) :
    stands (source.passing n state) (position + framesSize (buffers.take n)) ∧
      (source.pass (source.passing n state)).1 = .ok (buffers[n]?.map Buffer.head) := by
  induction buffers generalizing position state n with
  | nil =>
    cases Nat.le_zero.mp within
    exact ⟨here, ranges.pass_end here (List.drop_eq_nil_iff.mp last)⟩
  | cons buffer rest ih =>
    have short := framable buffer List.mem_cons_self
    rw [List.flatMap_cons] at last
    obtain ⟨after, passed, moved⟩ :=
      ranges.pass_framed room here short (last ▸ List.prefix_append _ _)
    cases n with
    | zero => exact ⟨here, by rw [passing, passed]; rfl⟩
    | succ n =>
      have behind : bytes.drop (position + buffer.frameSize) = rest.flatMap Buffer.framed := by
        rw [← List.drop_drop, last, List.drop_left' (Buffer.length_framed short)]
      obtain ⟨stood, next⟩ := ih (fun other member => framable other (List.mem_cons_of_mem _ member))
        moved behind (Nat.le_of_succ_le_succ within)
      rw [passing, passed, List.take_succ_cons, framesSize_cons, ← Nat.add_assoc]
      exact ⟨stood, next⟩

end Ranges
end Source

namespace Tape

/-- A tape over given bytes, at a position, that can be moved to every position below `limit`. -/
structure Rolls (bytes : List UInt8) (limit : Nat) (tape : Tape) (position : Nat) : Prop extends
    Carries bytes tape position where
  reach_eq : tape.reach = limit

@[simp] theorem reach_read (tape : Tape) (wanted : Nat) : (tape.read wanted).2.reach = tape.reach := by
  unfold read
  split <;> rfl

theorem Rolls.move {bytes : List UInt8} {limit : Nat} {tape : Tape} {position : Nat}
    (rolls : Rolls bytes limit tape position) (target : Nat) :
    Lands (Rolls bytes limit) limit position target (tape.move target) := by
  obtain ⟨⟨bytes_eq, position_eq, inside, chunk, readFaults, moveFaults⟩, rfl⟩ := rolls
  simp only [Lands, Tape.move, moveFaults, Fault.find?, List.find?_nil]
  by_cases below : target < tape.reach
  · rw [if_pos below, if_neg (Nat.not_le.mpr below)]
    exact ⟨rfl, ⟨bytes_eq, rfl, inside, chunk, readFaults, rfl⟩, rfl⟩
  · rw [if_neg below, if_pos (Nat.le_of_not_lt below)]
    exact ⟨rfl, ⟨bytes_eq, position_eq, inside, chunk, readFaults, rfl⟩, rfl⟩

/-- Tapes without other faults than interruptions range over their bytes. -/
theorem ranges_rolls (keepsTorn : Bool) (bytes : List UInt8) (limit : Nat) :
    (sourceKeeping keepsTorn).Ranges bytes limit (Rolls bytes limit) where
  read tape position wanted rolls some := by
    have kept : (tape.read wanted).2.reach = limit := by rw [reach_read, rolls.reach_eq]
    rcases (plays_carries keepsTorn bytes).read tape position wanted rolls.toCarries some with
      ⟨interrupted, still⟩ | ⟨found, brought, first, ended, moved⟩
    · exact .inl ⟨interrupted, still, kept⟩
    · exact .inr ⟨found, brought, first, ended, moved, kept⟩
  seek tape position offset rolls inside := by
    have below : offset < limit := rolls.reach_eq ▸ Nat.lt_of_le_of_lt inside rolls.reach
    have lands := rolls.move offset
    rwa [Lands, if_pos below] at lands
  seeks tape position offset rolls := rolls.move offset
  skips tape position distance rolls := by
    have lands := rolls.move (position + distance)
    rwa [← rolls.position_eq] at lands ⊢

theorem rolls_ofExtent {bytes : Extent} {limit : Nat} (inside : bytes.size < limit) :
    Rolls bytes.toList limit (ofExtent bytes limit) 0 := ⟨carries_ofExtent inside, rfl⟩

end Tape

/-- Of a source that can be moved behind the end as far as a payload can be long: wherever it stands,
passing over a frame agrees with reading it into a segment that is large enough; only a payload that is
cut off makes a difference. And over a byte string that is made of frames, passing stands at the start
of each of them in turn, and gives its header. -/
theorem passing_agrees_with_reading {source : Source ρ} {bytes : List UInt8} {reach : Nat}
    {stands : ρ → Nat → Prop} (ranges : source.Ranges bytes reach stands)
    (room : bytes.length + Header.maxLength < reach) :
    (∀ state position segment owner, stands state position →
      (∀ header, Header.ofBytes ((bytes.drop position).take Header.width) = .ok header →
        header.length ≤ segment.capacity) →
      source.Agrees bytes stands position (source.pass state) (source.frame segment owner state)) ∧
    ∀ buffers, Framable buffers → bytes = buffers.flatMap Buffer.framed →
      ∀ state, stands state 0 → ∀ n ≤ buffers.length,
        stands (source.passing n state) (framesSize (buffers.take n)) ∧
          (source.pass (source.passing n state)).1 = .ok (buffers[n]?.map Buffer.head) := by
  refine ⟨fun state position segment owner here fits => ?_, ?_⟩
  · exact ranges.agrees room here fits owner
  · intro buffers framable joined state here n within
    have all := ranges.passing_framed room framable here joined within
    rwa [Nat.zero_add] at all

/-- Passing over two frames finds both at their places. With the last payload byte gone, passing and
reading still agree on the second one, in the way they do where a payload is cut off. -/
theorem two_frames_are_passed :
    let empty : Buffer := ⟨⟨.ofList [7], by decide⟩, .nobody, .endOfSegment, 0, true, by decide⟩
    let three : Buffer := ⟨⟨.ofList [1, 2, 3, 9], by decide⟩, .pool, .data, 3, false, by decide⟩
    let bytes : List UInt8 := [8, 0, 3, 0, 0, 0, 0, 0, 1, 0, 0, 0, 3, 0, 0, 0, 1, 2, 3]
    let whole := Tape.ofExtent (.ofList bytes) Word.span
    let cut := { Tape.ofExtent (.ofList (bytes.take 18)) Word.span with position := 8 }
    let segment : Segment := ⟨.zeros 3, by decide⟩
    (∀ n ≤ 2, (Tape.source.passing n whole).position = framesSize ([empty, three].take n) ∧
      (Tape.source.pass (Tape.source.passing n whole)).1 =
        .ok ([empty, three][n]?.map Buffer.head)) ∧
      Tape.source.Agrees (bytes.take 18) (Tape.Rolls (bytes.take 18) Word.span) 8
        (Tape.source.pass cut) (Tape.source.frame segment .nobody cut) := by
  intro empty three bytes whole cut segment
  have framable : Framable [empty, three] := by simp [Framable, empty, three, Header.maxLength]
  have joined : bytes = [empty, three].flatMap Buffer.framed := by decide
  have inside : (Extent.ofList bytes).size < Word.span := by decide
  have start : Tape.Rolls bytes Word.span whole 0 := Tape.rolls_ofExtent inside
  have second : Tape.Rolls (bytes.take 18) Word.span cut 8 :=
    ⟨⟨rfl, rfl, by decide, by decide, by simp [cut, Tape.ofExtent], rfl⟩, rfl⟩
  have fits : ∀ header,
      Header.ofBytes (((bytes.take 18).drop 8).take Header.width) = .ok header →
        header.length ≤ segment.capacity := by
    rintro header accepted
    cases accepted
    decide
  obtain ⟨-, passes⟩ := passing_agrees_with_reading (Tape.ranges_rolls true bytes Word.span)
    (by decide)
  obtain ⟨agrees, -⟩ := passing_agrees_with_reading
    (Tape.ranges_rolls true (bytes.take 18) Word.span) (by decide)
  refine ⟨fun n within => ?_, agrees cut 8 segment .nobody second fits⟩
  obtain ⟨stood, passed⟩ := passes _ framable joined whole start n within
  exact ⟨stood.position_eq, passed⟩

end Spillway
