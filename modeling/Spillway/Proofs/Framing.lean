import Spillway.Sink
import Spillway.Writer
/-!
What a frame says. The eight bytes of a header can be read back, and a buffer that can be framed at
all becomes its header and its payload. The frames of a batch are what its gathered slices join to,
and so many bytes of them hold so many whole frames.
-/

namespace Spillway

/-- Parts of a byte string lie one behind the other. -/
theorem append_prefix_drop_iff {part next bytes : List UInt8} {position : Nat} :
    part ++ next <+: bytes.drop position ↔
      part <+: bytes.drop position ∧ next <+: bytes.drop (position + part.length) := by
  rw [← List.drop_drop]
  constructor
  · rintro ⟨rest, joined⟩
    rw [← joined, List.append_assoc, List.drop_left]
    exact ⟨List.prefix_append _ _, List.prefix_append _ _⟩
  · rintro ⟨⟨rest, first⟩, ⟨more, second⟩⟩
    rw [← first, List.drop_left] at second
    exact ⟨more, by rw [List.append_assoc, second, first]⟩

/-- A part of a byte string lies where it did if the bytes up to its end are the same. -/
theorem prefix_drop_of_take {part old bytes : List UInt8} {position limit : Nat}
    (there : part <+: old.drop position) (inside : position + part.length ≤ limit)
    (kept : old.take limit <+: bytes) : part <+: bytes.drop position := by
  obtain ⟨rest, old_eq⟩ := there
  obtain ⟨more, bytes_eq⟩ := kept
  have within : part.length ≤ limit - position := by omega
  -- An empty part may lie behind the end; any other one ends within the bytes that are kept.
  have old_long : position ≤ (old.take limit).length ∨ part = [] := by
    cases part with
    | nil => exact .inr rfl
    | cons byte part =>
      have length := congrArg List.length old_eq
      simp only [List.length_append, List.length_cons, List.length_drop] at length
      refine .inl ?_
      rw [List.length_take]
      omega
  rcases old_long with long | rfl
  · rw [← bytes_eq, List.drop_append_of_le_length long, List.drop_take, ← old_eq,
      List.take_append, List.take_of_length_le within, List.append_assoc]
    exact List.prefix_append _ _
  · exact List.nil_prefix

theorem take_prefix_trans {old between bytes : List UInt8} {low high : Nat}
    (first : old.take low <+: between) (second : between.take high <+: bytes)
    (le : low ≤ high) : old.take low <+: bytes := by
  have start : old.take low <+: between.drop 0 := first
  have short := List.length_take_le low old
  exact prefix_drop_of_take start (by omega) second

namespace Header

theorem flags_lt (header : Header) : header.flags < 4 := by
  simp only [flags]
  split <;> split <;> decide

theorem tag_mod (header : Header) : header.kind.tag % Word.values 2 = header.kind.tag := by
  have le := header.kind.tag_le
  exact Nat.mod_eq_of_lt (by simp only [Word.values]; omega)

theorem flags_mod (header : Header) : header.flags % Word.values 2 = header.flags := by
  have lt := header.flags_lt
  exact Nat.mod_eq_of_lt (by simp only [Word.values]; omega)

theorem two_le_flags (header : Header) : decide (2 ≤ header.flags) = header.kind.isEvent := by
  unfold flags
  cases header.compressed <;> cases header.kind.isEvent <;> rfl

theorem flags_mod_two (header : Header) : (header.flags % 2 == 1) = header.compressed := by
  unfold flags
  cases header.compressed <;> cases header.kind.isEvent <;> rfl

/-- The tag and the flags of a header are read as they are, with whatever length stands behind them,
if that is not too long. -/
theorem ofFields_fields (header : Header) (length : Nat) :
    ofFields header.kind.tag header.flags length =
      if maxLength < length then .error (.lengthOverflow length) else .ok { header with length } := by
  have known : ¬ 4 ≤ header.flags := Nat.not_le.mpr header.flags_lt
  simp [ofFields, known, two_le_flags, flags_mod_two]

/-- The fields that are read from the bytes of a header are its own, but the length is cut off. -/
theorem ofBytes_toBytes_eq (header : Header) :
    ofBytes header.toBytes =
      ofFields header.kind.tag header.flags (header.length % Word.values 4) := by
  have long : ¬ header.toBytes.length < width := by simp
  rw [ofBytes, if_neg long]
  simp only [toBytes, List.append_assoc]
  rw [List.take_left' (Word.length_toBytes ..), List.drop_left' (Word.length_toBytes ..),
    List.take_left' (Word.length_toBytes ..), ← List.append_assoc (Word.toBytes 2 _),
    List.drop_left' (by simp), List.take_of_length_le (by simp), Word.ofBytes_toBytes,
    Word.ofBytes_toBytes, Word.ofBytes_toBytes, tag_mod, flags_mod]

/-- A header whose length is not too long is read back from its bytes. -/
theorem ofBytes_toBytes {header : Header} (short : header.length ≤ maxLength) :
    ofBytes header.toBytes = .ok header := by
  have length : header.length % Word.values 4 = header.length := by
    simp only [maxLength] at short
    exact Nat.mod_eq_of_lt (by simp only [Word.values]; omega)
  rw [ofBytes_toBytes_eq, length, ofFields_fields, if_neg (Nat.not_lt.mpr short)]

end Header

namespace Buffer

/-- The bytes of a buffer's frame; none if it cannot be framed. -/
def framed (buffer : Buffer) : List UInt8 :=
  match buffer.encode with
  | .ok frame => frame.toExtent.toList
  | .error _ => []

/-- The header of a buffer that can be framed. -/
def head (buffer : Buffer) : Header := ⟨buffer.kind, buffer.compressed, buffer.size⟩

theorem header_of_le {buffer : Buffer} (short : buffer.size ≤ Header.maxLength) :
    buffer.header = .ok buffer.head := by
  have within : ¬ Header.maxLength < buffer.size := by omega
  rw [header, if_neg within]
  rfl

theorem encode_of_le {buffer : Buffer} (short : buffer.size ≤ Header.maxLength) :
    buffer.encode = .ok ⟨buffer.head, buffer.readable⟩ := by
  rw [encode, header_of_le short]

theorem framed_eq {buffer : Buffer} (short : buffer.size ≤ Header.maxLength) :
    buffer.framed = buffer.head.toBytes ++ buffer.readable.toList := by
  simp [framed, encode_of_le short, Frame.toExtent]

theorem length_framed {buffer : Buffer} (short : buffer.size ≤ Header.maxLength) :
    buffer.framed.length = buffer.frameSize := by
  simp [framed_eq short, frameSize]

theorem frameSize_pos (buffer : Buffer) : 0 < buffer.frameSize := by
  simp only [frameSize, Header.width]
  omega

end Buffer

/-- The number of bytes that buffers take once they are framed. -/
def framesSize (buffers : List Buffer) : Nat := Word.total (buffers.map Buffer.frameSize)

/-- The number of frames that lie within so many bytes from their start. -/
def wholeWithin : (bytes : Nat) → List Buffer → Nat
  | _, [] => 0
  | bytes, buffer :: rest =>
    if bytes < buffer.frameSize then 0 else wholeWithin (bytes - buffer.frameSize) rest + 1

@[simp] theorem framesSize_nil : framesSize [] = 0 := rfl

@[simp] theorem framesSize_cons (buffer : Buffer) (rest : List Buffer) :
    framesSize (buffer :: rest) = buffer.frameSize + framesSize rest := rfl

@[simp] theorem framesSize_append (buffers later : List Buffer) :
    framesSize (buffers ++ later) = framesSize buffers + framesSize later := by
  simp [framesSize]

theorem framesSize_replicate (n : Nat) (buffer : Buffer) :
    framesSize (List.replicate n buffer) = n * buffer.frameSize := by
  induction n with
  | zero => simp
  | succ n ih => rw [List.replicate_succ, framesSize_cons, ih, Nat.succ_mul, Nat.add_comm]

theorem framesSize_pos {buffers : List Buffer} (some : buffers ≠ []) : 0 < framesSize buffers := by
  cases buffers with
  | nil => exact absurd rfl some
  | cons buffer rest => exact Nat.add_pos_left buffer.frameSize_pos _

theorem framesSize_take_le (n : Nat) (buffers : List Buffer) :
    framesSize (buffers.take n) ≤ framesSize buffers := by
  have split := framesSize_append (buffers.take n) (buffers.drop n)
  rw [List.take_append_drop] at split
  omega

@[simp] theorem wholeWithin_zero (buffers : List Buffer) : wholeWithin 0 buffers = 0 := by
  cases buffers with
  | nil => rfl
  | cons buffer rest => simp [wholeWithin, buffer.frameSize_pos]

/-- Behind the bytes of all frames, as many frames are whole as in what follows. -/
theorem wholeWithin_append (buffers later : List Buffer) (bytes : Nat) :
    wholeWithin (framesSize buffers + bytes) (buffers ++ later) =
      buffers.length + wholeWithin bytes later := by
  induction buffers with
  | nil => simp
  | cons buffer rest ih =>
    have enough : ¬ buffer.frameSize + framesSize rest + bytes < buffer.frameSize := by omega
    have left : buffer.frameSize + framesSize rest + bytes - buffer.frameSize =
        framesSize rest + bytes := by omega
    rw [framesSize_cons, List.cons_append, wholeWithin, if_neg enough, left, ih, List.length_cons]
    omega

theorem wholeWithin_framesSize (buffers : List Buffer) :
    wholeWithin (framesSize buffers) buffers = buffers.length := by
  have all := wholeWithin_append buffers [] 0
  simpa using all

/-- Frames that are not all whole are not so because of what follows. -/
theorem wholeWithin_append_of_lt {bytes : Nat} {buffers : List Buffer}
    (short : bytes < framesSize buffers) (later : List Buffer) :
    wholeWithin bytes (buffers ++ later) = wholeWithin bytes buffers := by
  induction buffers generalizing bytes with
  | nil => simp at short
  | cons buffer rest ih =>
    rw [framesSize_cons] at short
    rw [List.cons_append, wholeWithin, wholeWithin]
    split
    · rfl
    · rw [ih (by omega)]

theorem wholeWithin_le (bytes : Nat) (buffers : List Buffer) :
    wholeWithin bytes buffers ≤ buffers.length := by
  fun_induction wholeWithin bytes buffers with
  | case1 bytes => exact Nat.le_refl _
  | case2 bytes buffer rest short => exact Nat.zero_le _
  | case3 bytes buffer rest whole ih => exact Nat.succ_le_succ ih

/-- The whole frames are within the bytes. -/
theorem framesSize_take_wholeWithin (bytes : Nat) (buffers : List Buffer) :
    framesSize (buffers.take (wholeWithin bytes buffers)) ≤ bytes := by
  fun_induction wholeWithin bytes buffers with
  | case1 bytes => exact Nat.zero_le _
  | case2 bytes buffer rest short => exact Nat.zero_le _
  | case3 bytes buffer rest whole ih =>
    rw [List.take_succ_cons, framesSize_cons]
    omega

theorem wholeWithin_of_le {bytes : Nat} {buffers : List Buffer} (all : framesSize buffers ≤ bytes) :
    wholeWithin bytes buffers = buffers.length := by
  have more := wholeWithin_append buffers [] (bytes - framesSize buffers)
  rw [List.append_nil, Nat.add_sub_cancel' all] at more
  exact more

/-- What is behind the frames does not count. -/
theorem wholeWithin_min (bytes : Nat) (buffers : List Buffer) :
    wholeWithin (min bytes (framesSize buffers)) buffers = wholeWithin bytes buffers := by
  rcases Nat.le_total bytes (framesSize buffers) with less | more
  · rw [Nat.min_eq_left less]
  · rw [Nat.min_eq_right more, wholeWithin_framesSize, wholeWithin_of_le more]

/-- The whole frames are the most that are within the bytes. -/
theorem le_wholeWithin_iff {n bytes : Nat} {buffers : List Buffer} (inside : n ≤ buffers.length) :
    n ≤ wholeWithin bytes buffers ↔ framesSize (buffers.take n) ≤ bytes := by
  induction buffers generalizing n bytes with
  | nil =>
    have none : n = 0 := Nat.le_zero.mp inside
    simp [none]
  | cons buffer rest ih =>
    cases n with
    | zero => simp
    | succ n =>
      have later : n ≤ wholeWithin (bytes - buffer.frameSize) rest ↔
          framesSize (rest.take n) ≤ bytes - buffer.frameSize := ih (by simpa using inside)
      rw [List.take_succ_cons, framesSize_cons, wholeWithin]
      split
      · omega
      · omega

/-- Every buffer of the list can be framed. -/
def Framable (buffers : List Buffer) : Prop :=
  ∀ buffer ∈ buffers, buffer.size ≤ Header.maxLength

instance (buffers : List Buffer) : Decidable (Framable buffers) :=
  inferInstanceAs (Decidable (∀ buffer ∈ buffers, buffer.size ≤ Header.maxLength))

theorem Framable.take {buffers : List Buffer} (framable : Framable buffers) (n : Nat) :
    Framable (buffers.take n) := fun buffer member => framable buffer (List.mem_of_mem_take member)

theorem Framable.left {buffers later : List Buffer} (framable : Framable (buffers ++ later)) :
    Framable buffers := fun buffer member => framable buffer (List.mem_append_left _ member)

theorem Framable.right {buffers later : List Buffer} (framable : Framable (buffers ++ later)) :
    Framable later := fun buffer member => framable buffer (List.mem_append_right _ member)

theorem Framable.append {buffers later : List Buffer} (first : Framable buffers)
    (second : Framable later) : Framable (buffers ++ later) :=
  List.forall_mem_append.mpr ⟨first, second⟩

theorem length_framed_flatMap {buffers : List Buffer} (framable : Framable buffers) :
    (buffers.flatMap Buffer.framed).length = framesSize buffers := by
  rw [Word.length_flatMap, framesSize]
  congr 1
  apply List.map_congr_left
  intro buffer member
  exact Buffer.length_framed (framable buffer member)

theorem framed_isPrefix {front buffers : List Buffer} (first : front <+: buffers) :
    front.flatMap Buffer.framed <+: buffers.flatMap Buffer.framed := by
  obtain ⟨rest, rfl⟩ := first
  rw [List.flatMap_append]
  exact List.prefix_append _ _

/-- The frames of the buffers that are whole within so many bytes lie within these bytes. -/
theorem framed_wholeWithin {buffers : List Buffer} (framable : Framable buffers) (n : Nat) :
    (buffers.take (wholeWithin n buffers)).flatMap Buffer.framed <+:
      (buffers.flatMap Buffer.framed).take n := by
  refine List.prefix_take_iff.mpr ⟨framed_isPrefix (List.take_prefix _ _), ?_⟩
  rw [length_framed_flatMap (framable.take _)]
  exact framesSize_take_wholeWithin n buffers

/-- A batch of buffers that can be framed is encoded, and the slices join to its frames. -/
theorem encode_batch {batch : List Buffer} (framable : Framable batch) :
    ∃ frames, batch.mapM Buffer.encode = .ok frames ∧
      (frames.flatMap Frame.slices).flatMap Extent.toList = batch.flatMap Buffer.framed := by
  induction batch with
  | nil => exact ⟨[], rfl, rfl⟩
  | cons buffer rest ih =>
    have short := framable buffer List.mem_cons_self
    obtain ⟨frames, encoded, joined⟩ :=
      ih fun other member => framable other (List.mem_cons_of_mem _ member)
    have first := Buffer.encode_of_le short
    refine ⟨⟨buffer.head, buffer.readable⟩ :: frames, ?_, ?_⟩
    · rw [List.mapM_cons, first, encoded]
      rfl
    · simp [Frame.slices, Buffer.framed_eq short, joined]

/-- A batch that is encoded has a frame for each buffer. -/
theorem length_encoded {batch : List Buffer} {frames : List Frame}
    (encoded : batch.mapM Buffer.encode = .ok frames) : frames.length = batch.length := by
  induction batch generalizing frames with
  | nil =>
    cases encoded
    rfl
  | cons buffer rest ih =>
    rw [List.mapM_cons] at encoded
    cases first : buffer.encode with
    | error error =>
      rw [first] at encoded
      cases encoded
    | ok frame =>
      rw [first] at encoded
      cases others : rest.mapM Buffer.encode with
      | error error =>
        rw [others] at encoded
        cases encoded
      | ok more =>
        rw [others] at encoded
        cases encoded
        rw [List.length_cons, List.length_cons, ih others]

theorem framable_of_refusal {request : Request} (accepted : request.refusal? = none) :
    Framable request.buffers := by
  intro buffer member
  obtain ⟨item, found, rfl⟩ := List.mem_map.mp member
  have passed := List.findSome?_eq_none_iff.mp accepted item found
  unfold Buffer.header at passed
  split at passed
  · cases passed
  · rename_i fine
    split at fine
    · cases fine
    · omega

theorem refusal_of_framable {request : Request} (framable : Framable request.buffers) :
    request.refusal? = none := by
  refine List.findSome?_eq_none_iff.mpr fun item member => ?_
  rw [Buffer.header_of_le (framable item.buffer (List.mem_map_of_mem member))]

theorem framedSize_eq (request : Request) : request.framedSize = framesSize request.buffers := by
  simp only [Request.framedSize, framesSize, Request.buffers, List.map_map]
  rfl

theorem Request.framedSize_pos {request : Request} (some : request.items ≠ []) :
    0 < request.framedSize := by
  rw [framedSize_eq]
  exact framesSize_pos (by simpa [Request.buffers] using some)

theorem entriesFrom?_cons {start : Nat} {item : Item} {rest : List Item} {entries : List Entry} :
    Request.entriesFrom? start (item :: rest) = some entries ↔
      start + item.frameSize < Word.span ∧
        ∃ later, Request.entriesFrom? (start + item.frameSize) rest = some later ∧
          entries = ⟨item.subpartition, item.index, start⟩ :: later := by
  rw [Request.entriesFrom?]
  by_cases inside : start + item.frameSize < Word.span
  · rw [Word.add?_eq_some_iff.mpr ⟨rfl, inside⟩]
    constructor
    · intro known
      obtain ⟨later, known', rfl⟩ := Option.map_eq_some_iff.mp known
      exact ⟨inside, later, known', rfl⟩
    · rintro ⟨-, later, known, rfl⟩
      exact congrArg (Option.map _) known
  · rw [Word.add?_eq_none_iff.mpr (Nat.not_lt.mp inside)]
    simp [inside]

/-- The entry of an item is behind the frames of the items before it. -/
theorem getElem?_entriesFrom {start place : Nat} {items : List Item} {entries : List Entry}
    (known : Request.entriesFrom? start items = some entries) {item : Item}
    (found : items[place]? = some item) :
    entries[place]? = some ⟨item.subpartition, item.index,
      start + framesSize ((items.map Item.buffer).take place)⟩ := by
  induction items generalizing start place entries with
  | nil => cases found
  | cons first rest ih =>
    obtain ⟨-, later, known', rfl⟩ := entriesFrom?_cons.mp known
    cases place with
    | zero =>
      cases found
      rfl
    | succ place =>
      rw [List.getElem?_cons_succ] at found ⊢
      rw [ih known' found, List.map_cons, List.take_succ_cons, framesSize_cons, ← Nat.add_assoc]
      rfl

theorem writeAll_keep (bytes kept : Extent) :
    ∃ after, Sink.keep.writeAll bytes kept = (.ok (), after) ∧
      after.toList = kept.toList ++ bytes.toList := by
  by_cases none : bytes.size = 0
  · refine ⟨kept, by rw [Sink.writeAll, if_pos none], ?_⟩
    rw [Extent.size_eq, List.length_eq_zero_iff] at none
    rw [none, List.append_nil]
  · have rest : (bytes.drop bytes.size).size = 0 := by simp
    refine ⟨kept ++ bytes, ?_, Extent.toList_append kept bytes⟩
    rw [Sink.writeAll, if_neg none]
    simp only [Sink.keep, none, if_false]
    rw [Sink.writeAll, if_pos rest]

/-- What a buffer becomes on a plain output is its frame. -/
theorem writeFrame_keep {buffer : Buffer} (short : buffer.size ≤ Header.maxLength)
    (kept : Extent) :
    ∃ after, Sink.keep.writeFrame buffer kept = (.ok buffer.frameSize, after) ∧
      after.toList = kept.toList ++ buffer.framed := by
  have encoded := Buffer.encode_of_le short
  obtain ⟨headed, first, head⟩ := writeAll_keep (.ofList buffer.head.toBytes) kept
  obtain ⟨after, second, payload⟩ := writeAll_keep buffer.readable headed
  refine ⟨after, ?_, ?_⟩
  · simp only [Sink.writeFrame, encoded, first, second, Frame.size, Buffer.size_readable]
    rfl
  · rw [payload, head, Buffer.framed_eq short, Extent.toList_ofList, List.append_assoc]

end Spillway
