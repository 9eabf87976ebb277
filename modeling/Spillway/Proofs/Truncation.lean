import Spillway.Proofs.RoundTrip
/-!
Files that were cut off. Whatever is left of the frames of some buffers after a cut is read as the
buffers whose frames are still whole, and then where the file was cut can be told: between two frames
there is nothing more to be read, within a header the header is truncated, and within a payload the
input ends unexpectedly.
-/

namespace Spillway

variable {ρ : Type}

/-- What reading a frame answers that was cut off when so many bytes of it were there. -/
def cutAnswer (left : Nat) : Except FrameError (Option Buffer) :=
  if left = 0 then .ok none
  else if left < Header.width then .error .truncatedHeader
  else .error (.io .unexpectedEof)

/-- Behind the frames that are whole, a file that was cut off has what is left of the next one. -/
theorem drop_take_framed {buffers : List Buffer} (framable : Framable buffers) (cut n : Nat) :
    ((buffers.flatMap Buffer.framed).take cut).drop (framesSize (buffers.take n)) =
      ((buffers.drop n).flatMap Buffer.framed).take (cut - framesSize (buffers.take n)) := by
  have split : buffers.flatMap Buffer.framed =
      (buffers.take n).flatMap Buffer.framed ++ (buffers.drop n).flatMap Buffer.framed := by
    rw [← List.flatMap_append, List.take_append_drop]
  rw [List.drop_take, split, List.drop_left' (length_framed_flatMap (framable.take n))]

theorem left_lt_frameSize {buffers : List Buffer} {cut : Nat} {next : Buffer} {rest : List Buffer}
    (split : buffers.drop (wholeWithin cut buffers) = next :: rest) :
    cut - framesSize (buffers.take (wholeWithin cut buffers)) < next.frameSize := by
  have length := congrArg List.length split
  rw [List.length_drop, List.length_cons] at length
  have more : buffers.take (wholeWithin cut buffers + 1) =
      buffers.take (wholeWithin cut buffers) ++ [next] := by
    rw [List.take_add, split, List.take_succ_cons, List.take_zero]
  have less : ¬ framesSize (buffers.take (wholeWithin cut buffers + 1)) ≤ cut := by
    rw [← le_wholeWithin_iff (by omega)]
    omega
  rw [more, framesSize_append, framesSize_cons, framesSize_nil] at less
  have within := framesSize_take_wholeWithin cut buffers
  omega

namespace Source.Plays

variable {source : Source ρ} {bytes : List UInt8} {stands : ρ → Nat → Prop}

/-- A payload is not read of which only a part is left, although its header is. -/
theorem frame_payload_short (plays : source.Plays bytes stands) {buffer : Buffer} {position : Nat}
    {state : ρ} (short : buffer.size ≤ Header.maxLength) (here : stands state position)
    (headed : buffer.head.toBytes <+: bytes.drop position)
    (few : bytes.length < position + buffer.frameSize) {segment : Segment}
    (fits : buffer.size ≤ segment.capacity) (owner : Owner) :
    (source.frame segment owner state).1.answer = .error (.io .unexpectedEof) := by
  have room : buffer.head.length ≤ segment.capacity := fits
  obtain ⟨payload, after, -, -, framed⟩ :=
    plays.frame_headed here (headerAt_eq_some short headed) room owner
  rw [Buffer.frameSize, ← Nat.add_assoc] at few
  have cut : ¬ position + Header.width + buffer.head.length ≤ bytes.length := Nat.not_le.mpr few
  rw [framed, if_neg cut]

/-- Of a frame that was cut off, it can be told where. -/
theorem frame_cut (plays : source.Plays bytes stands) {buffer : Buffer} {position left : Nat}
    {state : ρ} (short : buffer.size ≤ Header.maxLength) (here : stands state position)
    (last : bytes.drop position = buffer.framed.take left) (less : left < buffer.frameSize)
    (inside : position ≤ bytes.length) {segment : Segment} (fits : buffer.size ≤ segment.capacity)
    (owner : Owner) : (source.frame segment owner state).1.answer = cutAnswer left := by
  have length := congrArg List.length last
  rw [List.length_drop, List.length_take, Buffer.length_framed short] at length
  unfold cutAnswer
  split_ifs with none few
  · exact plays.frame_end here (by omega) segment owner
  · exact plays.frame_short here (by omega) (by omega) segment owner
  · have headed : buffer.head.toBytes <+: bytes.drop position := by
      rw [last, Buffer.framed_eq short]
      refine List.prefix_take_iff.mpr ⟨List.prefix_append _ _, ?_⟩
      rw [Header.length_toBytes]
      omega
    exact plays.frame_payload_short short here headed (by omega) fits owner

/-- Behind the whole frames of a file that was cut off, it can be told where. -/
theorem frame_behind_whole {buffers : List Buffer} (framable : Framable buffers) {cut : Nat}
    (inside : cut ≤ framesSize buffers)
    (plays : source.Plays ((buffers.flatMap Buffer.framed).take cut) stands) {state : ρ}
    (here : stands state (framesSize (buffers.take (wholeWithin cut buffers)))) {segment : Segment}
    (fits : ∀ next ∈ buffers[wholeWithin cut buffers]?, next.size ≤ segment.capacity)
    (owner : Owner) : (source.frame segment owner state).1.answer =
      cutAnswer (cut - framesSize (buffers.take (wholeWithin cut buffers))) := by
  have length : ((buffers.flatMap Buffer.framed).take cut).length = cut := by
    rw [List.length_take, length_framed_flatMap framable]
    omega
  have within := framesSize_take_wholeWithin cut buffers
  have last := drop_take_framed framable cut (wholeWithin cut buffers)
  have size := framesSize_append (buffers.take (wholeWithin cut buffers))
    (buffers.drop (wholeWithin cut buffers))
  rw [List.take_append_drop] at size
  cases split : buffers.drop (wholeWithin cut buffers) with
  | nil =>
    rw [split, framesSize_nil] at size
    rw [show cut - framesSize (buffers.take (wholeWithin cut buffers)) = 0 by omega]
    exact plays.frame_end here (by omega) segment owner
  | cons next rest =>
    have less := left_lt_frameSize split
    have found : buffers[wholeWithin cut buffers]? = some next := by
      rw [← List.head?_drop, split, List.head?_cons]
    have short : next.size ≤ Header.maxLength := framable next (List.mem_of_getElem? found)
    rw [split, List.flatMap_cons, List.take_append_of_le_length
      (by rw [Buffer.length_framed short]; omega)] at last
    exact plays.frame_cut short here last less (by omega) (fits next found) owner

end Source.Plays

/-- Of the frames of some buffers, the first `cut` bytes are played. Then the buffers are read whose
frames end within these bytes, and no others, each into any segment that is large enough; and the next
frame, into any segment that would hold the next buffer, is answered by where its bytes end. So it is
when it is read at its offset, except that an end between two frames is an unexpected one there. -/
theorem cut_files_are_told_apart {buffers : List Buffer} (framable : Framable buffers) {cut : Nat}
    (inside : cut ≤ (buffers.flatMap Buffer.framed).length) {source : Source ρ}
    {stands : ρ → Nat → Prop}
    (plays : source.Plays ((buffers.flatMap Buffer.framed).take cut) stands) :
    let whole := wholeWithin cut buffers
    let boundary := framesSize (buffers.take whole)
    let suits := fun segment : Segment => ∀ next ∈ buffers[whole]?, next.size ≤ segment.capacity
    (∀ n ≤ buffers.length,
      n ≤ whole ↔ ((buffers.take n).flatMap Buffer.framed).length ≤ cut) ∧
    (∀ state, stands state 0 → source.ScansTo
      (fun after => ∀ segment owner, suits segment →
        (source.frame segment owner after).1.answer = cutAnswer (cut - boundary))
      state (buffers.take whole)) ∧
    ∀ state position, stands state position → ∀ segment owner, suits segment →
      (source.frameAt boundary segment owner state).1.answer =
        demanded (cutAnswer (cut - boundary)) := by
  intro whole boundary suits
  rw [length_framed_flatMap framable] at inside
  have within : boundary ≤ cut := framesSize_take_wholeWithin cut buffers
  refine ⟨fun n few => ?_, fun state here => ?_, fun state position here segment owner fits => ?_⟩
  · rw [length_framed_flatMap (framable.take n)]
    exact le_wholeWithin_iff few
  · refine plays.scansTo_framed (framable.take whole) here (framed_wholeWithin framable cut) ?_
    intro after behind segment owner fits
    rw [Nat.zero_add] at behind
    exact plays.frame_behind_whole framable inside behind fits owner
  · have length : boundary ≤ ((buffers.flatMap Buffer.framed).take cut).length := by
      rw [List.length_take, length_framed_flatMap framable]
      omega
    obtain ⟨sought, behind⟩ := plays.seek state position boundary here length
    rw [Source.frameAt_of_found sought]
    exact congrArg demanded (plays.frame_behind_whole framable inside behind fits owner)

/-- Of the nineteen bytes of two frames, seventeen are left. The first buffer is read back, and the
input ends within the payload of the second one, also when that is looked up at its offset. -/
theorem seventeen_of_nineteen_bytes :
    let empty : Buffer := ⟨⟨.ofList [7], by decide⟩, .nobody, .endOfSegment, 0, true, by decide⟩
    let three : Buffer := ⟨⟨.ofList [1, 2, 3, 9], by decide⟩, .pool, .data, 3, false, by decide⟩
    let bytes : List UInt8 := [8, 0, 3, 0, 0, 0, 0, 0, 1, 0, 0, 0, 3, 0, 0, 0, 1]
    let tape := Tape.ofExtent (.ofList bytes) Word.span
    let segment : Segment := ⟨.zeros 3, by decide⟩
    Framable [empty, three] ∧ 17 ≤ ([empty, three].flatMap Buffer.framed).length ∧
      (∃ read after, Tape.source.frame segment .nobody tape = (⟨.ok (some read), none⟩, after) ∧
        read.Matches empty ∧
        (Tape.source.frame segment .nobody after).1.answer = .error (.io .unexpectedEof)) ∧
      (Tape.source.frameAt 8 segment .nobody tape).1.answer = .error (.io .unexpectedEof) := by
  intro empty three bytes tape segment
  have framable : Framable [empty, three] := by simp [Framable, empty, three, Header.maxLength]
  have inside : 17 ≤ ([empty, three].flatMap Buffer.framed).length := by decide
  have left : ([empty, three].flatMap Buffer.framed).take 17 = bytes := by decide
  have reach : (Extent.ofList bytes).size < Word.span := by decide
  have here : Tape.Carries bytes tape 0 := Tape.carries_ofExtent reach
  rw [← left] at here
  obtain ⟨-, scans, found⟩ :=
    cut_files_are_told_apart framable inside (Tape.plays_carries true _)
  have whole : wholeWithin 17 [empty, three] = 1 := by decide
  rw [whole] at scans found
  have suits : ∀ next ∈ [empty, three][1]?, next.size ≤ segment.capacity := by decide
  obtain ⟨read, after, first, same, ends⟩ := scans tape here segment .nobody (by decide)
  exact ⟨framable, inside, ⟨read, after, first, same, ends segment .nobody suits⟩,
    found tape 0 here segment .nobody suits⟩

end Spillway
