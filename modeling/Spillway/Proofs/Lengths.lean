import Spillway.Proofs.Cutting
import Spillway.Proofs.Emission
/-!
How long frames are. The length of a frame can be told from its buffer, from its header, from the parts
it is gathered from and from its bytes, and it is what writing it comes to; all of these are the same.
So the offsets of entries, which are sums of what the buffers say, lead to where the bytes of the
frames begin. Entries add up: those of two requests, one behind the other, are those of one request
with the items of both.
-/

namespace Spillway

/-- The header of a buffer that is not too long tells how long the frame is. -/
theorem Buffer.frameSize?_head {buffer : Buffer} (short : buffer.size ≤ Header.maxLength) :
    buffer.head.frameSize? = some buffer.frameSize := by
  refine Word.add?_eq_some_iff.mpr ⟨rfl, ?_⟩
  simp only [frameSize, Header.width, Header.maxLength, Word.span] at short ⊢
  omega

theorem Frame.totalSize_slices (frame : Frame) : Extent.totalSize frame.slices = frame.size := by
  simp [slices, Extent.totalSize, size]

theorem Sink.answer_of_written {ω : Type} (sink : Sink ω) {buffer : Buffer}
    (short : buffer.size ≤ Header.maxLength) {state : ω} {n : Nat}
    (written : (sink.writeFrame buffer state).1 = .ok n) : n = buffer.frameSize := by
  obtain ⟨pushes, after, answer, emits, plain, -, ends⟩ := sink.emits_writeFrame short state []
  rw [plain] at written
  obtain ⟨all, length⟩ := emits.reply_eq_ok_iff.mp (ends.symm.trans written)
  rw [← length, all, Buffer.length_framed short]

namespace Request

theorem framedSize_append (items later : List Item) :
    framedSize ⟨items ++ later⟩ = framedSize ⟨items⟩ + framedSize ⟨later⟩ := by
  simp only [framedSize, List.map_append, Word.total_append]

/-- The items before a place are as long as their frames are together. -/
theorem framedSize_take {items : List Item} {place : Nat}
    (short : ∀ item ∈ items.take place, item.buffer.size ≤ Header.maxLength) :
    framedSize ⟨items.take place⟩ =
      Word.total ((items.take place).map fun item => item.buffer.framed.length) := by
  rw [framedSize]
  congr 1
  refine List.map_congr_left fun item member => ?_
  exact (Buffer.length_framed (short item member)).symm

theorem entries?_append {one other : Request} {start : Nat}
    (room : start + (one.framedSize + other.framedSize) < Word.span) :
    ∃ entries later, one.entries? start = some entries ∧
      other.entries? (start + one.framedSize) = some later ∧
      entries? ⟨one.items ++ other.items⟩ start = some (entries ++ later) := by
  have size := framedSize_eq one
  have size' := framedSize_eq other
  obtain ⟨entries, known⟩ : ∃ entries, one.entries? start = some entries :=
    Surroundings.entriesFrom?_of_room (by rw [← Request.buffers, ← size]; omega)
  obtain ⟨later, known'⟩ : ∃ later, other.entries? (start + one.framedSize) = some later :=
    Surroundings.entriesFrom?_of_room (by rw [← Request.buffers, ← size']; omega)
  refine ⟨entries, later, known, known', entriesFrom?_append known ?_⟩
  rw [← Request.buffers, ← size]
  exact known'

/-- The entry of each item has its coordinates, and the offset behind the items before it. -/
theorem getElem?_entries {request : Request} {start place : Nat} {entries : List Entry}
    (known : request.entries? start = some entries) {item : Item}
    (found : request.items[place]? = some item) :
    entries[place]? = some ⟨item.subpartition, item.index,
      start + framedSize ⟨request.items.take place⟩⟩ := by
  have entry := getElem?_entriesFrom known found
  rwa [← List.map_take, ← Request.buffers.eq_1 ⟨_⟩, ← framedSize_eq] at entry

theorem length_entriesFrom {start : Nat} {items : List Item} {entries : List Entry}
    (known : entriesFrom? start items = some entries) : entries.length = items.length := by
  induction items generalizing start entries with
  | nil =>
    cases known
    rfl
  | cons item rest ih =>
    obtain ⟨-, later, known', rfl⟩ := entriesFrom?_cons.mp known
    rw [List.length_cons, List.length_cons, ih known']

end Request

/-- The length of a buffer's frame is the same wherever it is computed, and it is the answer when the
frame is written, which it is to every healthy output. If the frames of two requests end within 64 bits,
the second behind the first, then both have entries, and together these are the entries of one request
with the items of both. There is one for each item, in this order, with the coordinates of the item,
and its offset is behind as many bytes as the frames of the items before it have. -/
theorem lengths_and_offsets_agree :
    (∀ buffer : Buffer, buffer.size ≤ Header.maxLength → ∃ header frame,
      buffer.header = .ok header ∧ buffer.encode = .ok frame ∧
      header.frameSize? = some buffer.frameSize ∧
      (∀ index subpartition, Item.frameSize ⟨buffer, index, subpartition⟩ = buffer.frameSize) ∧
      frame.size = buffer.frameSize ∧
      Extent.totalSize frame.slices = buffer.frameSize ∧
      frame.toExtent.toList.length = buffer.frameSize ∧
      ∀ (ω : Type) (sink : Sink ω) (state : ω),
        (∀ n, (sink.writeFrame buffer state).1 = .ok n → n = buffer.frameSize) ∧
        (sink.Healthy → (sink.writeFrame buffer state).1 = .ok buffer.frameSize)) ∧
    ∀ (one other : Request) (start : Nat),
      let both : Request := ⟨one.items ++ other.items⟩
      both.framedSize = one.framedSize + other.framedSize ∧
      (start + both.framedSize < Word.span → ∃ entries later,
        one.entries? start = some entries ∧
        other.entries? (start + one.framedSize) = some later ∧
        both.entries? start = some (entries ++ later) ∧
        (entries ++ later).length = both.items.length ∧
        ∀ place item, both.items[place]? = some item → ∃ offset,
          (entries ++ later)[place]? = some ⟨item.subpartition, item.index, offset⟩ ∧
          offset = start + Request.framedSize ⟨both.items.take place⟩ ∧
          ((∀ earlier ∈ both.items.take place, earlier.buffer.size ≤ Header.maxLength) →
            offset = start +
              Word.total ((both.items.take place).map fun earlier => earlier.buffer.framed.length))) := by
  refine ⟨fun buffer short => ?_, fun one other start => ?_⟩
  · have size : Frame.size ⟨buffer.head, buffer.readable⟩ = buffer.frameSize := by
      rw [Frame.size, Buffer.size_readable, Buffer.frameSize]
    refine ⟨buffer.head, _, Buffer.header_of_le short, Buffer.encode_of_le short,
      Buffer.frameSize?_head short, fun _ _ => rfl, size, ?_, ?_, fun ω sink state => ⟨?_, ?_⟩⟩
    · rw [Frame.totalSize_slices, size]
    · rw [Extent.length_toList, Frame.size_toExtent, size]
    · exact fun n written => sink.answer_of_written short written
    · intro healthy
      obtain ⟨after, written⟩ := healthy.writeFrame short state
      rw [written]
  · intro both
    have size : both.framedSize = one.framedSize + other.framedSize :=
      Request.framedSize_append one.items other.items
    refine ⟨size, fun room => ?_⟩
    obtain ⟨entries, later, first, second, known⟩ := Request.entries?_append (size ▸ room)
    refine ⟨entries, later, first, second, known, Request.length_entriesFrom known,
      fun place item found => ?_⟩
    refine ⟨_, Request.getElem?_entries known found, rfl, fun short => ?_⟩
    rw [Request.framedSize_take short]

/-- Two frames of three bytes from byte 100 on and one behind them, on another subpartition: the third is
at the offset at which a request of its own would begin. -/
theorem third_entry_is_behind_two_frames :
    let one : Request := ⟨[threeBytes, threeBytes]⟩
    let other : Request := ⟨[{ threeBytes with subpartition := 3 }]⟩
    (∃ header, threeBytes.buffer.header = .ok header ∧ header.frameSize? = some 11) ∧
      one.framedSize = 22 ∧
      one.entries? 100 = some [⟨7, 0, 100⟩, ⟨7, 0, 111⟩] ∧
      other.entries? 122 = some [⟨3, 0, 122⟩] ∧
      Request.entries? ⟨one.items ++ other.items⟩ 100 =
        some [⟨7, 0, 100⟩, ⟨7, 0, 111⟩, ⟨3, 0, 122⟩] := by
  intro one other
  obtain ⟨header, frame, read, -, length, -⟩ :=
    lengths_and_offsets_agree.1 threeBytes.buffer (by decide)
  obtain ⟨-, apart⟩ := lengths_and_offsets_agree.2 one other 100
  obtain ⟨entries, later, first, second, both, -⟩ := apart (by decide)
  have first' : one.entries? 100 = some [⟨7, 0, 100⟩, ⟨7, 0, 111⟩] := by decide
  have second' : other.entries? 122 = some [⟨3, 0, 122⟩] := by decide
  cases first'.symm.trans first
  cases second'.symm.trans second
  exact ⟨⟨header, read, length⟩, rfl, first', second', both⟩

end Spillway
