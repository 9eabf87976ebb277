import Spillway.Proofs.Framing
import Spillway.Tape
/-!
Reading frames back. A source plays a byte string if it brings the bytes of it that follow where it
stands, in whatever pieces and however often it is interrupted. From such a source, a frame is read
back as the buffer it was made of, wherever the source stands when it begins; at the end of the byte
string there is no frame. Tapes are such sources.
-/

namespace Spillway

variable {ρ : Type}

/-- A source brings the bytes of a byte string from where it stands on, at least one if there are
any, and can be moved to every place within. -/
structure Source.Plays (source : Source ρ) (bytes : List UInt8) (stands : ρ → Nat → Prop) :
    Prop where
  read : ∀ state position wanted, stands state position → 0 < wanted →
    ((source.read state wanted).1 = .error .interrupted ∧
      stands (source.read state wanted).2 position) ∨
    ∃ found, (source.read state wanted).1 = .ok found ∧ found.toList <+: bytes.drop position ∧
      (found.size = 0 → bytes.length ≤ position) ∧
      stands (source.read state wanted).2 (position + found.size)
  seek : ∀ state position offset, stands state position → offset ≤ bytes.length →
    (source.seek state offset).1 = .ok () ∧ stands (source.seek state offset).2 offset

/-- Two buffers have the same kind, compression and payload. -/
structure Buffer.Matches (read buffer : Buffer) : Prop where
  kind : read.kind = buffer.kind
  compressed : read.compressed = buffer.compressed
  payload : read.readable.toList = buffer.readable.toList

/-- From a state on, the frames of given buffers are read, each into any segment that is large
enough, and no frame after them. -/
def Source.Scans (source : Source ρ) : ρ → List Buffer → Prop
  | state, [] => ∀ segment owner, (source.frame segment owner state).1.answer = .ok none
  | state, buffer :: rest => ∀ segment owner, buffer.size ≤ segment.capacity →
    ∃ read after, source.frame segment owner state = (⟨.ok (some read), none⟩, after) ∧
      read.Matches buffer ∧ source.Scans after rest

/-- From a state on, the frames of given buffers are read, each into any segment that is large
enough, and what is true of the state after them is `ends`. -/
def Source.ScansTo (source : Source ρ) (ends : ρ → Prop) : ρ → List Buffer → Prop
  | state, [] => ends state
  | state, buffer :: rest => ∀ segment owner, buffer.size ≤ segment.capacity →
    ∃ read after, source.frame segment owner state = (⟨.ok (some read), none⟩, after) ∧
      read.Matches buffer ∧ source.ScansTo ends after rest

/-- A buffer can be read back from an offset of a byte string, whatever plays it, into any segment
that is large enough. -/
def Retrievable (bytes : List UInt8) (offset : Nat) (buffer : Buffer) : Prop :=
  ∀ (ρ : Type) (source : Source ρ) (stands : ρ → Nat → Prop), source.Plays bytes stands →
    ∀ state position, stands state position → ∀ segment owner, buffer.size ≤ segment.capacity →
      ∃ read after, source.frameAt offset segment owner state = (⟨.ok (some read), none⟩, after) ∧
        read.Matches buffer

theorem Source.scans_iff {source : Source ρ} {state : ρ} {buffers : List Buffer} :
    source.Scans state buffers ↔ source.ScansTo
      (fun after => ∀ segment owner, (source.frame segment owner after).1.answer = .ok none)
      state buffers := by
  induction buffers generalizing state with
  | nil => exact Iff.rfl
  | cons buffer rest ih => simp only [Scans, ScansTo, ih]

/-- A payload that fits is what the segment it is loaded into begins with. -/
theorem Segment.take_load {segment : Segment} {payload : Extent}
    (fits : payload.size ≤ segment.capacity) :
    ((segment.load payload).bytes.take payload.size).toList = payload.toList := by
  have all : payload.toList.length ≤ segment.capacity := by rwa [Extent.length_toList]
  rw [load, Extent.toList_take, Extent.toList_append, Extent.toList_take,
    List.take_of_length_le all, List.take_left' payload.length_toList]

theorem Source.frame_of_header {source : Source ρ} {state after : ρ}
    {answer : Except FrameError (Option Header)} (headed : source.header state = (answer, after))
    (without : ∀ header, answer ≠ .ok (some header)) (segment : Segment) (owner : Owner) :
    source.frame segment owner state = (⟨answer.map fun _ => none, some segment⟩, after) := by
  rw [frame, headed]
  rcases answer with error | _ | header
  · rfl
  · rfl
  · exact absurd rfl (without header)

theorem Source.frame_of_small {source : Source ρ} {state after : ρ} {header : Header}
    (headed : source.header state = (.ok (some header), after)) {segment : Segment}
    (small : segment.capacity < header.length) (owner : Owner) :
    source.frame segment owner state =
      (⟨.error (.sizeMismatch header.length segment.capacity), some segment⟩, after) := by
  rw [frame, headed]
  simp only [small, if_true]

/-- What reading a header comes to at a position of a byte string. -/
def headerAt (bytes : List UInt8) (position : Nat) : Except FrameError (Option Header) :=
  if bytes.length ≤ position then .ok none
  else if bytes.length < position + Header.width then .error .truncatedHeader
  else (Header.ofBytes ((bytes.drop position).take Header.width)).map some

theorem headerAt_eq_some {bytes : List UInt8} {position : Nat} {header : Header}
    (short : header.length ≤ Header.maxLength) (there : header.toBytes <+: bytes.drop position) :
    headerAt bytes position = .ok (some header) := by
  have enough := there.length_le
  rw [Header.length_toBytes, List.length_drop] at enough
  have width : 0 < Header.width := by decide
  have same := List.prefix_iff_eq_take.mp there
  rw [Header.length_toBytes] at same
  rw [headerAt, if_neg (by omega), if_neg (by omega), ← same, Header.ofBytes_toBytes short]
  rfl

theorem width_le_of_headerAt {bytes : List UInt8} {position : Nat} {header : Header}
    (headed : headerAt bytes position = .ok (some header)) :
    position + Header.width ≤ bytes.length := by
  unfold headerAt at headed
  split at headed
  · cases headed
  · split at headed
    · cases headed
    · rename_i enough
      exact Nat.le_of_not_lt enough

/-- The buffer that a segment becomes in which the payload of a header fits. -/
def Header.buffer (header : Header) {segment : Segment} (fits : header.length ≤ segment.capacity)
    (payload : Extent) (owner : Owner) : Buffer where
  segment := segment.load payload
  owner := owner
  kind := header.kind
  size := header.length
  compressed := header.compressed
  size_le := by rwa [Segment.capacity_load]

/-- What can be read of such a buffer is the payload. -/
theorem Header.readable_buffer {header : Header} {segment : Segment}
    (fits : header.length ≤ segment.capacity) {payload : Extent}
    (size : payload.size = header.length) (owner : Owner) :
    (header.buffer fits payload owner).readable.toList = payload.toList := by
  have whole := Segment.take_load (show payload.size ≤ segment.capacity by rwa [size])
  rwa [size] at whole

namespace Source.Plays

variable {source : Source ρ} {bytes : List UInt8} {stands : ρ → Nat → Prop}

theorem read_eq (plays : source.Plays bytes stands) {position wanted : Nat} {state after : ρ}
    {answer : Except Cause Extent} (here : stands state position) (some : wanted ≠ 0)
    (call : source.read state wanted = (answer, after)) :
    (answer = .error .interrupted ∧ stands after position) ∨
    ∃ found, answer = .ok found ∧ found.toList <+: bytes.drop position ∧
      (found.size = 0 → bytes.length ≤ position) ∧ stands after (position + found.size) := by
  have law := plays.read state position wanted here (Nat.pos_of_ne_zero some)
  rwa [call] at law

/-- What is gathered are the bytes that follow, as many as are wanted and left. -/
theorem gather_eq (plays : source.Plays bytes stands) (wanted : Nat) {position : Nat} {state : ρ}
    (here : stands state position) :
    ∃ got after, source.gather wanted state =
        (got, if wanted ≤ bytes.length - position then .full else .ended, after) ∧
      got.toList = (bytes.drop position).take wanted ∧ stands after (position + got.size) := by
  revert here position
  fun_induction source.gather wanted state with
  | case1 state =>
    intro position here
    exact ⟨.empty, state, by rw [if_pos (Nat.zero_le _)], rfl, here⟩
  | case2 wanted state some after call ih =>
    intro position here
    rcases plays.read_eq here some call with ⟨-, still⟩ | ⟨found, brought, -⟩
    · exact ih still
    · cases brought
  | case3 wanted state some cause after call fatal =>
    intro position here
    rcases plays.read_eq here some call with ⟨interrupted, -⟩ | ⟨found, brought, -⟩
    · cases interrupted
      exact absurd rfl fatal
    · cases brought
  | case4 wanted state some found after call none =>
    intro position here
    rcases plays.read_eq here some call with ⟨interrupted, -⟩ | ⟨_, brought, -, atEnd, moved⟩
    · cases interrupted
    · cases brought
      have ended := atEnd none
      rw [none] at moved
      refine ⟨.empty, after, by rw [if_neg (by omega)], ?_, moved⟩
      rw [List.drop_of_length_le ended, List.take_nil, Extent.toList_empty]
  | case5 wanted state some found after call nonzero rest =>
    rename_i ih
    intro position here
    rcases plays.read_eq here some call with ⟨interrupted, -⟩ | ⟨_, brought, first, -, moved⟩
    · cases interrupted
    · cases brought
      have few := source.read_le state wanted found (by rw [call])
      obtain ⟨got, last, gathered, bytes_eq, there⟩ := ih moved
      -- The bytes that were found are there, so what is left of both numbers is compared.
      have within := first.length_le
      rw [Extent.length_toList, List.length_drop] at within
      have enough : wanted - found.size ≤ bytes.length - (position + found.size) ↔
          wanted ≤ bytes.length - position := by omega
      have gathered : rest =
          (got, if wanted ≤ bytes.length - position then .full else .ended, last) := by
        simpa only [enough] using gathered
      refine ⟨found ++ got, last, by rw [gathered], ?_, ?_⟩
      · rw [Extent.toList_append, bytes_eq, List.prefix_iff_eq_take.mp first, Extent.length_toList,
          ← List.drop_drop, ← List.take_add, Nat.add_sub_cancel' few]
      · rwa [Extent.size_append, ← Nat.add_assoc]

/-- The header that is read is the one at the position, and all bytes of it that are left are gone. -/
theorem header_eq (plays : source.Plays bytes stands) {position : Nat} {state : ρ}
    (here : stands state position) :
    ∃ after, source.header state = (headerAt bytes position, after) ∧
      stands after (position + min Header.width (bytes.length - position)) := by
  obtain ⟨got, after, gathered, bytes_eq, moved⟩ := plays.gather_eq Header.width here
  have size : got.size = min Header.width (bytes.length - position) := by
    rw [Extent.size_eq, bytes_eq, List.length_take, List.length_drop]
  have width : 0 < Header.width := by decide
  refine ⟨after, ?_, size ▸ moved⟩
  rw [Source.header, gathered, headerAt]
  by_cases enough : Header.width ≤ bytes.length - position
  · rw [if_pos enough, if_neg (by omega), if_neg (by omega), ← bytes_eq]
  · by_cases none : bytes.length ≤ position
    · rw [if_neg enough, if_pos none]
      simp only [show got.size = 0 by omega, if_true]
    · rw [if_neg enough, if_neg none, if_pos (by omega)]
      simp only [show ¬ got.size = 0 by omega, if_false]

theorem header_full (plays : source.Plays bytes stands) (header : Header) {position : Nat}
    {state : ρ} (short : header.length ≤ Header.maxLength) (here : stands state position)
    (there : header.toBytes <+: bytes.drop position) :
    ∃ after, source.header state = (.ok (some header), after) ∧
      stands after (position + Header.width) := by
  have enough := there.length_le
  rw [Header.length_toBytes, List.length_drop] at enough
  obtain ⟨after, read, moved⟩ := plays.header_eq here
  rw [Nat.min_eq_left enough] at moved
  exact ⟨after, by rw [read, headerAt_eq_some short there], moved⟩

/-- Behind a header that leaves room, the payload is read into the segment. If it is all there, the
segment becomes a buffer. -/
theorem frame_headed (plays : source.Plays bytes stands) {position : Nat} {state : ρ}
    (here : stands state position) {header : Header}
    (headed : headerAt bytes position = .ok (some header)) {segment : Segment}
    (fits : header.length ≤ segment.capacity) (owner : Owner) :
    ∃ payload after,
      payload.toList = (bytes.drop (position + Header.width)).take header.length ∧
      stands after (position + Header.width + payload.size) ∧
      source.frame segment owner state =
        if position + Header.width + header.length ≤ bytes.length then
          (⟨.ok (some (header.buffer fits payload owner)), none⟩, after)
        else (⟨.error (.io .unexpectedEof), some (source.torn segment payload)⟩, after) := by
  have enough := width_le_of_headerAt headed
  obtain ⟨behind, found, moved⟩ := plays.header_eq here
  rw [Nat.min_eq_left (by omega)] at moved
  obtain ⟨payload, after, gathered, bytes_eq, there⟩ := plays.gather_eq header.length moved
  have room : ¬ segment.capacity < header.length := Nat.not_lt.mpr fits
  refine ⟨payload, after, bytes_eq, there, ?_⟩
  rw [headed] at found
  rw [frame, found]
  by_cases all : position + Header.width + header.length ≤ bytes.length
  · rw [if_pos (by omega)] at gathered
    have loaded : header.length ≤ (segment.load payload).capacity := by
      rwa [Segment.capacity_load]
    have made : Buffer.ofSegment (segment.load payload) owner header.kind header.length =
        .ok ⟨segment.load payload, owner, header.kind, header.length, false, loaded⟩ := dif_pos loaded
    simp only [room, if_false, gathered, made, all, if_true]
    rfl
  · rw [if_neg (by omega)] at gathered
    simp only [room, if_false, gathered, all]

theorem frame_end (plays : source.Plays bytes stands) {position : Nat} {state : ρ}
    (here : stands state position) (gone : bytes.length ≤ position) (segment : Segment)
    (owner : Owner) : (source.frame segment owner state).1.answer = .ok none := by
  obtain ⟨after, none, -⟩ := plays.header_eq here
  rw [headerAt, if_pos gone] at none
  rw [Source.frame_of_header none (by simp)]
  rfl

/-- A frame is read back as the buffer it was made of. -/
theorem frame_framed (plays : source.Plays bytes stands) {buffer : Buffer} {position : Nat}
    {state : ρ} (short : buffer.size ≤ Header.maxLength) (here : stands state position)
    (there : buffer.framed <+: bytes.drop position) {segment : Segment}
    (fits : buffer.size ≤ segment.capacity) (owner : Owner) :
    ∃ read after, source.frame segment owner state = (⟨.ok (some read), none⟩, after) ∧
      read.Matches buffer ∧ stands after (position + buffer.frameSize) := by
  have length := there.length_le
  rw [Buffer.framed_eq short, append_prefix_drop_iff, Header.length_toBytes] at there
  rw [Buffer.length_framed short, List.length_drop, Buffer.frameSize] at length
  have width : 0 < Header.width := by decide
  have headed : headerAt bytes position = .ok (some buffer.head) := headerAt_eq_some short there.1
  have room : buffer.head.length ≤ segment.capacity := fits
  have all : position + Header.width + buffer.head.length ≤ bytes.length := by
    simp only [Buffer.head]
    omega
  obtain ⟨payload, after, read, moved, framed⟩ := plays.frame_headed here headed room owner
  rw [if_pos all] at framed
  have same : payload.toList = buffer.readable.toList := by
    rw [read, List.prefix_iff_eq_take.mp there.2, Extent.length_toList, Buffer.size_readable]
    rfl
  have size : payload.size = buffer.size := by
    rw [Extent.size_eq, same, Extent.length_toList, Buffer.size_readable]
  refine ⟨_, after, framed, ⟨rfl, rfl, ?_⟩, ?_⟩
  · exact (Header.readable_buffer room size owner).trans same
  · rwa [size, Nat.add_assoc] at moved

/-- The frames of some buffers that lie one behind the other are scanned to the end of the last one. -/
theorem scansTo_framed (plays : source.Plays bytes stands) {ends : ρ → Prop} {buffers : List Buffer}
    {position : Nat} {state : ρ} (framable : Framable buffers) (here : stands state position)
    (there : buffers.flatMap Buffer.framed <+: bytes.drop position)
    (final : ∀ after, stands after (position + framesSize buffers) → ends after) :
    source.ScansTo ends state buffers := by
  induction buffers generalizing position state with
  | nil => exact final state here
  | cons buffer rest ih =>
    intro segment owner fits
    have short := framable buffer List.mem_cons_self
    rw [List.flatMap_cons, append_prefix_drop_iff, Buffer.length_framed short] at there
    obtain ⟨read, after, frame, same, moved⟩ := plays.frame_framed short here there.1 fits owner
    refine ⟨read, after, frame, same, ih ?_ moved there.2 ?_⟩
    · exact fun other member => framable other (List.mem_cons_of_mem _ member)
    · rwa [framesSize_cons, ← Nat.add_assoc] at final

/-- A byte string that ends with the frames of some buffers is scanned to its end. -/
theorem scans_framed (plays : source.Plays bytes stands) {buffers : List Buffer} {position : Nat}
    {state : ρ} (framable : Framable buffers) (here : stands state position)
    (inside : position ≤ bytes.length)
    (last : bytes.drop position = buffers.flatMap Buffer.framed) : source.Scans state buffers := by
  have length := congrArg List.length last
  rw [List.length_drop, length_framed_flatMap framable] at length
  rw [scans_iff]
  refine plays.scansTo_framed framable here (last ▸ List.prefix_refl _) fun after stood => ?_
  exact fun segment owner => plays.frame_end stood (by omega) segment owner

end Source.Plays

/-- An answer where a frame is due: the end of the input is an error. -/
def demanded : Except FrameError (Option Buffer) → Except FrameError (Option Buffer)
  | .ok none => .error (.io .unexpectedEof)
  | answer => answer

theorem Source.frameAt_of_found {source : Source ρ} {offset : Nat} {state : ρ}
    (found : (source.seek state offset).1 = .ok ()) (segment : Segment) (owner : Owner) :
    source.frameAt offset segment owner state =
      (⟨demanded (source.frame segment owner (source.seek state offset).2).1.answer,
        (source.frame segment owner (source.seek state offset).2).1.returned⟩,
        (source.frame segment owner (source.seek state offset).2).2) := by
  rw [frameAt, show source.seek state offset = (.ok (), (source.seek state offset).2) from
    Prod.ext found rfl]
  generalize framed : source.frame segment owner (source.seek state offset).2 = loan
  obtain ⟨⟨answer, returned⟩, after⟩ := loan
  rcases answer with error | _ | buffer <;> simp only [framed, demanded]

/-- What lies framed at an offset of a byte string can be read back from there. -/
theorem retrievable_of_framed {bytes : List UInt8} {offset : Nat} {buffer : Buffer}
    (short : buffer.size ≤ Header.maxLength) (there : buffer.framed <+: bytes.drop offset) :
    Retrievable bytes offset buffer := by
  intro ρ source stands plays state position here segment owner fits
  have length := there.length_le
  rw [Buffer.length_framed short, List.length_drop] at length
  have pos := buffer.frameSize_pos
  obtain ⟨sought, found⟩ := plays.seek state position offset here (by omega)
  obtain ⟨read, after, frame, same, -⟩ := plays.frame_framed short found there fits owner
  refine ⟨read, after, ?_, same⟩
  rw [Source.frameAt_of_found sought, frame]
  rfl

namespace Tape

/-- A tape over given bytes, at a position, that is hit by nothing but interruptions of reads. -/
structure Carries (bytes : List UInt8) (tape : Tape) (position : Nat) : Prop where
  bytes_eq : tape.bytes.toList = bytes
  position_eq : tape.position = position
  reach : bytes.length < tape.reach
  chunk : tape.chunk ≠ some 0
  readFaults : ∀ fault ∈ tape.readFaults, fault.cause = some .interrupted
  moveFaults : tape.moveFaults = []

/-- Tapes without other faults play their bytes. -/
theorem plays_carries (keepsTorn : Bool) (bytes : List UInt8) :
    (sourceKeeping keepsTorn).Plays bytes (Carries bytes) where
  read tape position wanted carries some := by
    obtain ⟨bytes_eq, position_eq, reach, chunk, readFaults, moveFaults⟩ := carries
    simp only [sourceKeeping, Tape.read]
    cases found : Fault.find? tape.readFaults tape.reads with
    | some fault =>
      have cause := readFaults fault (List.mem_of_find?_eq_some found)
      obtain ⟨call, _⟩ := fault
      cases cause
      exact .inl ⟨rfl, bytes_eq, position_eq, reach, chunk, readFaults, moveFaults⟩
    | none =>
      refine .inr ⟨_, rfl, ?_, ?_, bytes_eq, ?_, reach, chunk, readFaults, moveFaults⟩
      · rw [Extent.toList_take, Extent.toList_drop, bytes_eq, position_eq]
        exact List.take_prefix _ _
      · intro none
        have offered : 0 < tape.offer wanted := by
          unfold offer
          split
          · exact some
          · rename_i most chunk_eq
            have nonzero : most ≠ 0 := fun zero => chunk (by rw [chunk_eq, zero])
            omega
        rw [Extent.size_take, Extent.size_drop, Extent.size_eq, bytes_eq, position_eq] at none
        omega
      · simp only [position_eq]
  seek tape position offset carries inside := by
    obtain ⟨bytes_eq, position_eq, reach, chunk, readFaults, moveFaults⟩ := carries
    have within : ¬ tape.reach ≤ offset := by omega
    simp only [sourceKeeping, move, moveFaults, Fault.find?, List.find?_nil, within, if_false]
    exact ⟨trivial, bytes_eq, rfl, reach, chunk, readFaults, rfl⟩

theorem carries_ofExtent {bytes : Extent} {reach : Nat} (inside : bytes.size < reach) :
    Carries bytes.toList (ofExtent bytes reach) 0 :=
  ⟨rfl, rfl, by rw [Extent.length_toList]; exact inside, by simp [ofExtent], by simp [ofExtent], rfl⟩

end Tape
end Spillway
