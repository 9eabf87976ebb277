import Mathlib.Data.List.Permutation
import Spillway.Proofs.Framing
import Spillway.Proofs.Session
import Spillway.Vessel
/-!
Frames on a plain output, call by call. Whatever an output does, what it takes of a frame are the first
bytes of the frame: each call offers some of what those before it have left, and none comes after one
that fails. So the frame has been written exactly if nothing failed, and otherwise a part of it that
ends before its end, and the error is the first failure. The two parts of a frame are written one after
the other, and this is true of their calls because it is true of those for each part.
-/

namespace Spillway

variable {ω : Type}

/-- A call on an output: what it was offered, and what it answered. -/
structure Push where
  bytes : Extent
  answer : Except Cause Nat

namespace Push

/-- What a call took: the first of what it was offered. -/
def accepted (push : Push) : List UInt8 :=
  match push.answer with
  | .ok n => push.bytes.toList.take n
  | .error _ => []

/-- What a call has the writing fail with: its own error, or that it took nothing. An interrupted call is
made again. -/
def failure? (push : Push) : Option Cause :=
  match push.answer with
  | .ok n => if n = 0 then some .writeZero else none
  | .error cause => if cause = .interrupted then none else some cause

end Push

/-- What calls took, one after the other. -/
def acceptedBy (pushes : List Push) : List UInt8 := pushes.flatMap Push.accepted

/-- An output beside a list of the calls that were made on it. -/
def Sink.recorded (sink : Sink ω) : Sink (ω × List Push) where
  write state bytes :=
    let done := sink.write state.1 bytes
    (done.1, done.2, state.2 ++ [⟨bytes, done.1⟩])
  patience state := sink.patience state.1
  write_le state := sink.write_le state.1
  patience_lt state := sink.patience_lt state.1

/-- An output that takes something of whatever it is offered, unless it is interrupted. -/
def Sink.Healthy (sink : Sink ω) : Prop :=
  ∀ state bytes, bytes.size ≠ 0 → Push.failure? ⟨bytes, (sink.write state bytes).1⟩ = none

/-- These calls are made to write some bytes. -/
structure Emits (bytes : List UInt8) (pushes : List Push) : Prop where
  /-- What was taken are the first of the bytes. -/
  taken : acceptedBy pushes <+: bytes
  /-- All of them were taken if and only if no call failed. -/
  whole : pushes.findSome? Push.failure? = none ↔ acceptedBy pushes = bytes
  /-- A call offers the first of what is left, which is something, and if it fails, it is the last. -/
  resumes : ∀ front push back, pushes = front ++ push :: back →
    push.bytes.size ≠ 0 ∧ push.bytes.toList <+: bytes.drop (acceptedBy front).length ∧
      (push.failure?.isSome → back = [])

@[simp] theorem acceptedBy_nil : acceptedBy [] = [] := rfl

@[simp] theorem acceptedBy_cons (push : Push) (pushes : List Push) :
    acceptedBy (push :: pushes) = push.accepted ++ acceptedBy pushes := rfl

@[simp] theorem acceptedBy_append (pushes later : List Push) :
    acceptedBy (pushes ++ later) = acceptedBy pushes ++ acceptedBy later := List.flatMap_append

theorem Push.accepted_of_failure {push : Push} {cause : Cause} (fails : push.failure? = some cause) :
    push.accepted = [] := by
  obtain ⟨bytes, answer⟩ := push
  cases answer with
  | error cause => rfl
  | ok n =>
    by_cases none : n = 0
    · rw [none]
      rfl
    · simp [failure?, none] at fails

namespace Emits

variable {bytes left more : List UInt8} {pushes later : List Push} {push : Push}

theorem nothing : Emits [] [] := ⟨List.nil_prefix, by simp, by simp⟩

theorem failed {cause : Cause} (offered : push.bytes.toList = bytes) (nonempty : push.bytes.size ≠ 0)
    (fails : push.failure? = some cause) : Emits bytes [push] := by
  have none := push.accepted_of_failure fails
  refine ⟨by simp [none], ?_, fun front next back split => ?_⟩
  · have left : bytes ≠ [] := by
      rw [← offered, ← List.length_pos_iff, Extent.length_toList]
      omega
    simpa [fails, none] using left.symm
  · cases front with
    | nil =>
      cases split
      exact ⟨nonempty, by simp [offered], fun _ => rfl⟩
    | cons first front => simp at split

/-- A call that fails nothing goes before those for what it leaves. -/
theorem behind (offered : push.bytes.toList = bytes) (nonempty : push.bytes.size ≠ 0)
    (quiet : push.failure? = none) (cut : push.accepted ++ left = bytes)
    (emits : Emits left pushes) : Emits bytes (push :: pushes) := by
  subst cut
  refine ⟨?_, ?_, fun front other back split => ?_⟩
  · simpa using emits.taken
  · simpa [quiet] using emits.whole
  · cases front with
    | nil =>
      cases split
      exact ⟨nonempty, by simp [offered], by simp [quiet]⟩
    | cons first front =>
      cases split
      rw [acceptedBy_cons, List.length_append, ← List.drop_drop, List.drop_left]
      exact emits.resumes front other back rfl

/-- Calls that fail before their bytes are written fail as well when there is more behind these. -/
theorem stopped {cause : Cause} (emits : Emits bytes pushes)
    (fails : pushes.findSome? Push.failure? = some cause) (more : List UInt8) :
    Emits (bytes ++ more) pushes := by
  have short : acceptedBy pushes ≠ bytes := fun all => by
    rw [emits.whole.mpr all] at fails
    cases fails
  refine ⟨emits.taken.trans (List.prefix_append _ _), ?_, fun front push back split => ?_⟩
  · refine iff_of_false (by simp [fails]) fun all => short ?_
    have less := emits.taken.length_le
    have length := congrArg List.length all
    rw [List.length_append] at length
    exact emits.taken.eq_of_length (by omega)
  · obtain ⟨nonempty, first, last⟩ := emits.resumes front push back split
    have within : (acceptedBy front).length ≤ bytes.length := by
      have taken := emits.taken.length_le
      rw [split, acceptedBy_append, List.length_append] at taken
      omega
    refine ⟨nonempty, ?_, last⟩
    rw [List.drop_append_of_le_length within]
    exact first.trans (List.prefix_append _ _)

/-- Behind bytes that were written, others are. -/
theorem append (emits : Emits bytes pushes) (written : acceptedBy pushes = bytes)
    (next : Emits more later) : Emits (bytes ++ more) (pushes ++ later) := by
  have quiet := emits.whole.mpr written
  refine ⟨?_, ?_, fun front push back split => ?_⟩
  · rw [acceptedBy_append, written]
    exact (List.prefix_append_right_inj _).mpr next.taken
  · rw [List.findSome?_append, quiet, Option.none_or, acceptedBy_append, written,
      List.append_cancel_left_eq]
    exact next.whole
  · -- A call is one of those for the bytes before, none of which fails, or it comes behind them all.
    rcases List.append_eq_append_iff.mp split with ⟨rest, rfl, tail⟩ | ⟨rest, rfl, tail⟩
    · obtain ⟨nonempty, first, last⟩ := next.resumes rest push back tail
      refine ⟨nonempty, ?_, last⟩
      rw [acceptedBy_append, written, List.length_append, ← List.drop_drop, List.drop_left]
      exact first
    · cases rest with
      | nil =>
        obtain ⟨nonempty, first, last⟩ := next.resumes [] push back tail.symm
        refine ⟨nonempty, ?_, last⟩
        rw [List.append_nil] at written
        rw [written, List.drop_left]
        exact first
      | cons other rest =>
        cases tail
        obtain ⟨nonempty, first, -⟩ := emits.resumes front push rest rfl
        have within : (acceptedBy front).length ≤ bytes.length := by
          rw [← written, acceptedBy_append, List.length_append]
          omega
        refine ⟨nonempty, ?_, fun fails => ?_⟩
        · rw [List.drop_append_of_le_length within]
          exact first.trans (List.prefix_append _ _)
        · have never := List.findSome?_eq_none_iff.mp quiet push (by simp)
          rw [never] at fails
          cases fails

end Emits

/-- How writing ends: it is done, or fails with the first failure. -/
def Push.ending : Option Cause → Except Cause Unit
  | none => .ok ()
  | some cause => .error cause

/-- The answer when a frame of so many bytes is written: its size, or the first failure. -/
def Push.reply (size : Nat) : Option Cause → Except FrameError Nat
  | none => .ok size
  | some cause => .error (.io cause)

namespace Emits

variable {bytes : List UInt8} {pushes : List Push}

/-- The answer is the number of bytes taken exactly if these are all. -/
theorem reply_eq_ok_iff (emits : Emits bytes pushes) {n : Nat} :
    Push.reply bytes.length (pushes.findSome? Push.failure?) = .ok n ↔
      acceptedBy pushes = bytes ∧ (acceptedBy pushes).length = n := by
  rw [← emits.whole]
  cases failed : pushes.findSome? Push.failure? with
  | none =>
    rw [emits.whole.mp failed]
    simp [Push.reply]
  | some cause => simp [Push.reply]

/-- If the answer is an error, it is the first failure, and not all bytes were taken. -/
theorem of_reply_error (emits : Emits bytes pushes) {size : Nat} {error : FrameError}
    (failed : Push.reply size (pushes.findSome? Push.failure?) = .error error) :
    acceptedBy pushes ≠ bytes ∧
      ∃ cause, pushes.findSome? Push.failure? = some cause ∧ error = .io cause := by
  cases fails : pushes.findSome? Push.failure? with
  | none => simp [fails, Push.reply] at failed
  | some cause =>
    rw [fails] at failed
    cases failed
    refine ⟨fun all => ?_, cause, rfl, rfl⟩
    rw [emits.whole.mpr all] at fails
    cases fails

end Emits

namespace Sink

/-- Writing goes on after a call according to its answer. -/
theorem writeAll_write (sink : Sink ω) {bytes : Extent} (nonempty : bytes.size ≠ 0) (state : ω) :
    sink.writeAll bytes state =
      match sink.write state bytes with
      | (.error cause, after) =>
        if cause = .interrupted then sink.writeAll bytes after else (.error cause, after)
      | (.ok n, after) =>
        if n = 0 then (.error .writeZero, after) else sink.writeAll (bytes.drop n) after := by
  rw [writeAll, if_neg nonempty]
  split <;> rename_i call <;> rw [call]

/-- Some bytes are written by calls that emit them, and end with the first failure. That the calls are
listed makes no difference. -/
theorem emits_writeAll (sink : Sink ω) (bytes : Extent) (state : ω) (made : List Push) :
    ∃ pushes after, Emits bytes.toList pushes ∧
      sink.writeAll bytes state = (Push.ending (pushes.findSome? Push.failure?), after) ∧
      sink.recorded.writeAll bytes (state, made) =
        (Push.ending (pushes.findSome? Push.failure?), after, made ++ pushes) := by
  have noted : ∀ {bytes : Extent} {state after : ω} {answer : Except Cause Nat} (made : List Push),
      sink.write state bytes = (answer, after) →
      sink.recorded.write (state, made) bytes = (answer, after, made ++ [⟨bytes, answer⟩]) := by
    intro bytes state after answer made call
    simp only [recorded, call]
  fun_induction sink.writeAll bytes state generalizing made with
  | case1 bytes state none =>
    have empty : bytes.toList = [] := by rwa [← List.length_eq_zero_iff, Extent.length_toList]
    refine ⟨[], state, empty ▸ .nothing, rfl, ?_⟩
    rw [writeAll, if_pos none, List.append_nil]
    rfl
  | case2 bytes state nonempty after call ih =>
    obtain ⟨pushes, last, emits, plain, listed⟩ := ih (made ++ [⟨bytes, .error .interrupted⟩])
    refine ⟨⟨bytes, .error .interrupted⟩ :: pushes, last,
      .behind rfl nonempty rfl (List.nil_append _) emits, plain, ?_⟩
    rw [writeAll_write _ nonempty, noted made call]
    rw [List.append_assoc] at listed
    exact listed
  | case3 bytes state nonempty cause after call fatal =>
    have fails : Push.failure? ⟨bytes, .error cause⟩ = some cause := by simp [Push.failure?, fatal]
    refine ⟨[⟨bytes, .error cause⟩], after, .failed rfl nonempty fails, ?_⟩
    rw [List.findSome?_cons, fails, writeAll_write _ nonempty, noted made call]
    exact ⟨rfl, if_neg fatal⟩
  | case4 bytes state nonempty after call =>
    refine ⟨[⟨bytes, .ok 0⟩], after, .failed rfl nonempty rfl, rfl, ?_⟩
    rw [writeAll_write _ nonempty, noted made call]
    rfl
  | case5 bytes state nonempty n after call nonzero ih =>
    obtain ⟨pushes, last, emits, plain, listed⟩ := ih (made ++ [⟨bytes, .ok n⟩])
    have quiet : Push.failure? ⟨bytes, .ok n⟩ = none := by simp [Push.failure?, nonzero]
    rw [Extent.toList_drop] at emits
    refine ⟨⟨bytes, .ok n⟩ :: pushes, last,
      .behind rfl nonempty quiet (List.take_append_drop n _) emits, ?_⟩
    rw [List.append_assoc] at listed
    rw [List.findSome?_cons, quiet, writeAll_write _ nonempty, noted made call]
    exact ⟨plain, (if_neg nonzero).trans listed⟩

/-- A frame is written by calls that emit it, the header first, and its length is the answer unless a
call fails. -/
theorem emits_writeFrame (sink : Sink ω) {buffer : Buffer} (short : buffer.size ≤ Header.maxLength)
    (state : ω) (made : List Push) :
    ∃ pushes after answer, Emits buffer.framed pushes ∧
      sink.writeFrame buffer state = (answer, after) ∧
      sink.recorded.writeFrame buffer (state, made) = (answer, after, made ++ pushes) ∧
      answer = Push.reply buffer.framed.length (pushes.findSome? Push.failure?) := by
  have encoded := Buffer.encode_of_le short
  have size : Frame.size ⟨buffer.head, buffer.readable⟩ = buffer.frameSize := by
    rw [Frame.size, Buffer.size_readable, Buffer.frameSize]
  obtain ⟨first, headed, emits, plain, listed⟩ :=
    sink.emits_writeAll (.ofList buffer.head.toBytes) state made
  obtain ⟨second, after, emits', plain', listed'⟩ :=
    sink.emits_writeAll buffer.readable headed (made ++ first)
  rw [Extent.toList_ofList] at emits
  rw [Buffer.length_framed short, Buffer.framed_eq short]
  simp only [writeFrame, encoded, plain, listed]
  cases failed : first.findSome? Push.failure? with
  | some cause => exact ⟨first, headed, _, emits.stopped failed _, rfl, rfl, by rw [failed]; rfl⟩
  | none =>
    have both := emits.append (emits.whole.mp failed) emits'
    simp only [Push.ending, plain', listed']
    cases failed' : second.findSome? Push.failure? with
    | some cause =>
      refine ⟨first ++ second, after, _, both, rfl, ?_, ?_⟩
      · rw [List.append_assoc]
      · rw [List.findSome?_append, failed, failed', Option.none_or]
        rfl
    | none =>
      refine ⟨first ++ second, after, _, both, rfl, ?_, ?_⟩
      · rw [List.append_assoc]
      · rw [List.findSome?_append, failed, failed', Option.none_or, size]
        rfl

theorem Healthy.writeAll {sink : Sink ω} (healthy : sink.Healthy) (bytes : Extent) (state : ω) :
    ∃ after, sink.writeAll bytes state = (.ok (), after) := by
  fun_induction sink.writeAll bytes state with
  | case1 bytes state none => exact ⟨state, rfl⟩
  | case2 bytes state nonempty after call ih => exact ih
  | case3 bytes state nonempty cause after call fatal =>
    have quiet := healthy state bytes nonempty
    simp [call, Push.failure?, fatal] at quiet
  | case4 bytes state nonempty after call =>
    have quiet := healthy state bytes nonempty
    simp [call, Push.failure?] at quiet
  | case5 bytes state nonempty n after call nonzero ih => exact ih

theorem Healthy.writeFrame {sink : Sink ω} (healthy : sink.Healthy) {buffer : Buffer}
    (short : buffer.size ≤ Header.maxLength) (state : ω) :
    ∃ after, sink.writeFrame buffer state = (.ok buffer.frameSize, after) := by
  obtain ⟨headed, first⟩ := healthy.writeAll (.ofList buffer.head.toBytes) state
  obtain ⟨after, second⟩ := healthy.writeAll buffer.readable headed
  have encoded := Buffer.encode_of_le short
  refine ⟨after, ?_⟩
  simp only [Sink.writeFrame, encoded, first, second, Frame.size, Buffer.size_readable]
  rfl

/-- A buffer that is too long for a frame is not offered to the output. -/
theorem writeFrame_of_long (sink : Sink ω) {buffer : Buffer}
    (long : Header.maxLength < buffer.size) (state : ω) :
    sink.writeFrame buffer state = (.error (.lengthOverflow buffer.size), state) := by
  simp only [writeFrame, Buffer.encode, Buffer.header, if_pos long]

end Sink

/-- A buffer that is too long for a frame has its size refused, and nothing is offered to the output.
Of any other, an output takes the first bytes of the frame, by calls that offer one after the other
what is left, until one fails. If none does, all of the frame has been taken, and its length is the
answer; otherwise only a part, and the answer is the first failure. Afterwards, the buffer is written
as a whole to any output that is healthy. -/
theorem frames_are_written_from_the_front (sink : Sink ω) (buffer : Buffer) (state : ω) :
    let written := sink.recorded.writeFrame buffer (state, [])
    let pushes := written.2.2
    (written.1, written.2.1) = sink.writeFrame buffer state ∧
    (Header.maxLength < buffer.size → written = (.error (.lengthOverflow buffer.size), state, [])) ∧
    (buffer.size ≤ Header.maxLength → ∃ frame, buffer.encode = .ok frame ∧
      Emits frame.toExtent.toList pushes ∧
      (∀ n, written.1 = .ok n ↔
        acceptedBy pushes = frame.toExtent.toList ∧ (acceptedBy pushes).length = n) ∧
      (∀ error, written.1 = .error error →
        acceptedBy pushes ≠ frame.toExtent.toList ∧
        ∃ cause, pushes.findSome? Push.failure? = some cause ∧ error = .io cause) ∧
      ∀ (ω' : Type) (again : Sink ω') (other : ω'), again.Healthy →
        (again.recorded.writeFrame buffer (other, [])).1 = .ok frame.size ∧
        acceptedBy (again.recorded.writeFrame buffer (other, [])).2.2 = frame.toExtent.toList) := by
  intro written pushes
  by_cases long : Header.maxLength < buffer.size
  · have same : written = (.error (.lengthOverflow buffer.size), state, []) :=
      sink.recorded.writeFrame_of_long long (state, [])
    refine ⟨?_, fun _ => same, fun short => absurd long (Nat.not_lt.mpr short)⟩
    rw [same, sink.writeFrame_of_long long]
  have short := Nat.not_lt.mp long
  have encoded := Buffer.encode_of_le short
  have bytes : Extent.toList (Frame.toExtent ⟨buffer.head, buffer.readable⟩) = buffer.framed := by
    simp [Frame.toExtent, Buffer.framed_eq short]
  have size : Frame.size ⟨buffer.head, buffer.readable⟩ = buffer.frameSize := by
    rw [Frame.size, Buffer.size_readable, Buffer.frameSize]
  obtain ⟨made, after, answer, emits, plain, listed, ends⟩ := sink.emits_writeFrame short state []
  have same : written = (answer, after, made) := listed
  have list : pushes = made := congrArg (fun done => done.2.2) same
  refine ⟨by rw [plain, same], fun above => absurd above long, fun _ => ?_⟩
  refine ⟨_, encoded, by rwa [bytes, list], fun n => ?_, fun error failed => ?_, ?_⟩
  · rw [same, list, bytes, ends]
    exact emits.reply_eq_ok_iff
  · rw [same] at failed
    rw [list, bytes]
    exact emits.of_reply_error (ends ▸ failed)
  · intro ω' again other healthy
    obtain ⟨calls, last, result, emits', plain', listed', ends'⟩ :=
      again.emits_writeFrame short other []
    obtain ⟨last', whole⟩ := healthy.writeFrame short other
    rw [plain'] at whole
    cases whole
    rw [listed', size, bytes]
    exact ⟨rfl, (emits'.reply_eq_ok_iff.mp ends'.symm).1⟩

theorem Sink.healthy_keep : Sink.keep.Healthy := fun _ _ nonempty => if_neg nonempty

/-- An output that takes five bytes at a time, is interrupted once and then breaks down. -/
def Vessel.brittle : Vessel :=
  ⟨.empty, 0, some 5, none, [⟨1, some .interrupted⟩, ⟨3, some .brokenPipe⟩]⟩

/-- Such an output takes the header of three bytes in two calls, and none of the bytes themselves.
Afterwards they are kept as a whole elsewhere. -/
theorem three_bytes_break_off_behind_their_header :
    let written := Vessel.sink.recorded.writeFrame threeBytes.buffer (.brittle, [])
    let kept := Sink.keep.recorded.writeFrame threeBytes.buffer (.empty, [])
    threeBytes.buffer.size ≤ Header.maxLength ∧ written.1 = .error (.io .brokenPipe) ∧
      acceptedBy written.2.2 = [1, 0, 0, 0, 3, 0, 0, 0] ∧
      acceptedBy written.2.2 ≠ threeBytes.buffer.framed ∧
      kept.1 = .ok 11 ∧ acceptedBy kept.2.2 = [1, 0, 0, 0, 3, 0, 0, 0, 1, 2, 3] := by
  have short : threeBytes.buffer.size ≤ Header.maxLength := by decide
  obtain ⟨-, -, whole⟩ := frames_are_written_from_the_front Vessel.sink threeBytes.buffer .brittle
  obtain ⟨frame, encoded, -, -, failed, again⟩ := whole short
  cases encoded
  have broken : (Vessel.sink.recorded.writeFrame threeBytes.buffer (.brittle, [])).1 =
      .error (.io .brokenPipe) := by cbv
  have header : acceptedBy (Vessel.sink.recorded.writeFrame threeBytes.buffer (.brittle, [])).2.2 =
      [1, 0, 0, 0, 3, 0, 0, 0] := by cbv
  exact ⟨short, broken, header, (failed _ broken).1, again Extent Sink.keep .empty Sink.healthy_keep⟩

end Spillway
