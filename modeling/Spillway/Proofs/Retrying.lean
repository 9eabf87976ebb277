import Spillway.Proofs.Attempts
/-!
Transfers, call by call. Three things move on together: how much of the slices has been taken, what is
left of them, and the position behind what was taken. So each write offers exactly what no write before
it has taken, where it belongs, until nothing is left or a write fails for good; and the count tells
what was taken however the transfer ends. Nothing is asked of the file for this but answers that can be
true, and if it gives another one, the transfer crashes over it.
-/

namespace Spillway

variable {σ π : Type}

/-- What a write has its transfer fail with: its own failure, or that it took nothing. -/
def Call.failure? : Call → Option Failure
  | .write _ _ (.done n) => if n = 0 then some Store.stalled else none
  | .write _ _ (.failed failure) => if failure.cause = .interrupted then none else some failure
  | _ => none

/-- The call offers what is left of some slices when so many bytes have been taken, behind these, and
something is left. -/
inductive Call.Resumes (slices : List Extent) (offset taken : Nat) : Call → Prop
  | write {left : List Extent} (answer : Answer Nat)
      (rest : left.flatMap Extent.toList = (slices.flatMap Extent.toList).drop taken)
      (more : taken < Extent.totalSize slices) :
    Resumes slices offset taken (.write (offset + taken) left answer)

/-- How a transfer ends without a crash: done, or failed. -/
def Answer.ofFailure : Option Failure → Answer Unit
  | none => .done ()
  | some failure => .failed failure

/-- A transfer that goes on when `taken` bytes of some slices have been taken makes these calls: each
resumes where those before it have come to, and none comes after one that fails or is not fair. If all
are fair, the count and the end of the transfer are what they make of it, and otherwise it crashes. -/
structure Transfer.Retries (slices : List Extent) (offset before taken : Nat) (calls : List Call)
    (stage : Stage σ π) (transfer : Transfer σ π) : Prop where
  calls_eq : transfer.stage.calls = stage.calls ++ calls
  resumes : ∀ front call back, calls = front ++ call :: back →
    call.Resumes slices offset (taken + takenBy front) ∧
      (call.failure?.isSome ∨ ¬ call.Fair → back = [])
  counted : (∀ call ∈ calls, call.Fair) → transfer.written = before + (taken + takenBy calls)
  finished : (∀ call ∈ calls, call.Fair) →
    transfer.finish = .ofFailure (calls.findSome? Call.failure?)
  whole : (∀ call ∈ calls, call.Fair) →
    (transfer.finish = .done () ↔ taken + takenBy calls = Extent.totalSize slices)
  crashed : (∃ call ∈ calls, ¬ call.Fair) → transfer.finish = .crashed

theorem Call.fair_of_failure {call : Call} {failure : Failure}
    (fails : call.failure? = some failure) : call.Fair ∧ call.taken = 0 := by
  cases call with
  | write position slices answer =>
    cases answer with
    | done n =>
      by_cases none : n = 0
      · subst none
        exact ⟨⟨rfl, Nat.zero_le _⟩, rfl⟩
      · simp [failure?, none] at fails
    | failed failure => exact ⟨⟨rfl, Nat.zero_le _⟩, rfl⟩
    | crashed => cases fails
  | truncate _ _ | sync _ => cases fails

namespace Transfer.Retries

variable {slices : List Extent} {offset before taken : Nat} {stage between : Stage σ π}
  {transfer : Transfer σ π} {call : Call}

theorem nothing_left (all : taken = Extent.totalSize slices) :
    (⟨.done (), before + taken, stage⟩ : Transfer σ π).Retries slices offset before taken [] stage :=
  ⟨(List.append_nil _).symm, by simp, fun _ => rfl, fun _ => rfl, fun _ => by simp [all],
    by simp⟩

theorem resumes_single (resumes : call.Resumes slices offset taken) (front : List Call)
    (other : Call) (back : List Call) (split : [call] = front ++ other :: back) :
    other.Resumes slices offset (taken + takenBy front) ∧
      (other.failure?.isSome ∨ ¬ other.Fair → back = []) := by
  cases front with
  | nil =>
    cases split
    exact ⟨resumes, fun _ => rfl⟩
  | cons first front => simp at split

theorem failed {failure : Failure} (resumes : call.Resumes slices offset taken)
    (called : between.calls = stage.calls ++ [call]) (fails : call.failure? = some failure) :
    (⟨.failed failure, before + taken, between⟩ : Transfer σ π).Retries slices offset before taken
      [call] stage := by
  obtain ⟨fair, none⟩ := Call.fair_of_failure fails
  have left : taken < Extent.totalSize slices := by
    cases resumes with
    | write answer rest more => exact more
  have took : takenBy [call] = 0 := by simp [takenBy, none]
  refine ⟨called, resumes_single resumes, fun _ => by simp [took],
    fun _ => by simp [fails, Answer.ofFailure], fun _ => ?_, ?_⟩
  · rw [took]
    exact iff_of_false (by simp) (by omega)
  · rintro ⟨other, member, wrong⟩
    exact absurd (List.mem_singleton.mp member ▸ fair) wrong

theorem unfair (resumes : call.Resumes slices offset taken)
    (called : transfer.stage.calls = stage.calls ++ [call]) (wrong : ¬ call.Fair)
    (crash : transfer.finish = .crashed) :
    transfer.Retries slices offset before taken [call] stage := by
  have never : ¬ ∀ other ∈ [call], other.Fair := fun fair => wrong (fair call List.mem_cons_self)
  exact ⟨called, resumes_single resumes, fun fair => absurd fair never,
    fun fair => absurd fair never, fun fair => absurd fair never, fun _ => crash⟩

/-- A call goes before that is fair and fails nothing. -/
theorem behind {calls : List Call} (resumes : call.Resumes slices offset taken)
    (called : between.calls = stage.calls ++ [call]) (fair : call.Fair)
    (silent : call.failure? = none)
    (retries : transfer.Retries slices offset before (taken + call.taken) calls between) :
    transfer.Retries slices offset before taken (call :: calls) stage := by
  have took : ∀ later, taken + takenBy (call :: later) = taken + call.taken + takenBy later :=
    fun later => (Nat.add_assoc _ _ _).symm
  have others : (∀ other ∈ call :: calls, other.Fair) → ∀ other ∈ calls, other.Fair :=
    fun fine => (List.forall_mem_cons.mp fine).2
  refine ⟨?_, ?_, fun fine => ?_, fun fine => ?_, fun fine => ?_, ?_⟩
  · rw [retries.calls_eq, called, List.append_assoc, List.singleton_append]
  · intro front other back split
    cases front with
    | nil =>
      cases split
      exact ⟨resumes, fun ends => by simp [silent, fair] at ends⟩
    | cons first front =>
      cases split
      rw [took]
      exact retries.resumes front other back rfl
  · rw [took]
    exact retries.counted (others fine)
  · rw [List.findSome?_cons, silent]
    exact retries.finished (others fine)
  · rw [took]
    exact retries.whole (others fine)
  · rintro ⟨other, member, wrong⟩
    rcases List.mem_cons.mp member with rfl | later
    · exact absurd fair wrong
    · exact retries.crashed ⟨other, later, wrong⟩

end Transfer.Retries

/-- What is left of a transfer is tried again from where it has come to. -/
theorem Store.retries_transferFrom (store : Store σ) {slices : List Extent} {offset before : Nat}
    (reach : offset + Extent.totalSize slices < Word.span)
    (room : before + Extent.totalSize slices < Word.span) (left : List Extent) (taken : Nat)
    (within : taken + Extent.totalSize left = Extent.totalSize slices)
    (rest : left.flatMap Extent.toList = (slices.flatMap Extent.toList).drop taken)
    (stage : Stage σ π) :
    ∃ calls, (store.transferFrom offset before left taken stage).Retries slices offset before taken
      calls stage := by
  fun_induction store.transferFrom offset before left taken stage with
  | case1 left taken stage none => exact ⟨[], .nothing_left (by omega)⟩
  | case2 left taken stage some overflow =>
    rw [Word.add?_eq_none_iff] at overflow
    omega
  | case3 left taken stage some position found after call =>
    obtain ⟨rfl, -⟩ := Word.add?_eq_some_iff.mp found
    have wrong : ¬ (Call.write (offset + taken) left .crashed).Fair := fun fair => by cases fair.calm
    exact ⟨[_], .unfair (.write _ rest (by omega)) (called_writeOn call).2 wrong rfl⟩
  | case4 left taken stage some position found failure after call interrupted ih =>
    obtain ⟨rfl, -⟩ := Word.add?_eq_some_iff.mp found
    obtain ⟨calls, retries⟩ := ih within rest
    exact ⟨_, retries.behind (.write _ rest (by omega)) (called_writeOn call).2 ⟨rfl, Nat.zero_le _⟩
      (by simp [Call.failure?, interrupted])⟩
  | case5 left taken stage some position found failure after call fatal =>
    obtain ⟨rfl, -⟩ := Word.add?_eq_some_iff.mp found
    exact ⟨[_], .failed (.write _ rest (by omega)) (called_writeOn call).2
      (by simp [Call.failure?, fatal])⟩
  | case6 left taken stage some position found after call =>
    obtain ⟨rfl, -⟩ := Word.add?_eq_some_iff.mp found
    exact ⟨[_], .failed (.write _ rest (by omega)) (called_writeOn call).2 rfl⟩
  | case7 left taken stage some position found n after call nonzero overflow =>
    obtain ⟨rfl, -⟩ := Word.add?_eq_some_iff.mp found
    rw [Option.isNone_iff_eq_none, Word.add?_eq_none_iff] at overflow
    have wrong : ¬ (Call.write (offset + taken) left (.done n)).Fair := fun fair => by
      have most : n ≤ Extent.totalSize left := fair.honest
      omega
    exact ⟨[_], .unfair (.write _ rest (by omega))
      (by rw [calls_crash, (called_writeOn call).2]) wrong rfl⟩
  | case8 left taken stage some position found n after call nonzero counted overclaimed =>
    obtain ⟨rfl, -⟩ := Word.add?_eq_some_iff.mp found
    have wrong : ¬ (Call.write (offset + taken) left (.done n)).Fair := fun fair => by
      have most : n ≤ Extent.totalSize left := fair.honest
      omega
    exact ⟨[_], .unfair (.write _ rest (by omega))
      (by rw [calls_crash, (called_writeOn call).2]) wrong rfl⟩
  | case9 left taken stage some position found n after call nonzero counted most ih =>
    obtain ⟨rfl, -⟩ := Word.add?_eq_some_iff.mp found
    have size := Extent.totalSize_advance n left
    obtain ⟨calls, retries⟩ := ih (by omega)
      (by rw [Extent.flatMap_advance, rest, List.drop_drop])
    exact ⟨_, retries.behind (.write _ rest (by omega)) (called_writeOn call).2
      ⟨rfl, Nat.not_lt.mp most⟩ (by simp [Call.failure?, nonzero])⟩

/-- Some slices are transferred, with room for them in the file and in the count. Each call, behind
those in front of it, offers what these have left, and no call comes after one that fails the transfer
or whose answer cannot be true. If all answers can be, the count has gone up by what was taken, the
transfer is done if and only if that is everything, and otherwise it fails with the first failure. An
answer that cannot be true crashes it. -/
theorem Store.transfers_retry_exactly (store : Store σ) {slices : List Extent} {offset written : Nat}
    (reach : offset + Extent.totalSize slices < Word.span)
    (room : written + Extent.totalSize slices < Word.span) (stage : Stage σ π) :
    let transfer := store.transfer slices offset written stage
    ∃ calls, transfer.stage.calls = stage.calls ++ calls ∧
      (∀ front call back, calls = front ++ call :: back →
        call.Resumes slices offset (takenBy front) ∧
          (call.failure?.isSome ∨ ¬ call.Fair → back = [])) ∧
      ((∀ call ∈ calls, call.Fair) →
        transfer.written = written + takenBy calls ∧
        transfer.finish = .ofFailure (calls.findSome? Call.failure?) ∧
        (transfer.finish = .done () ↔ takenBy calls = Extent.totalSize slices)) ∧
      ((∃ call ∈ calls, ¬ call.Fair) → transfer.finish = .crashed) := by
  intro transfer
  obtain ⟨calls, retries⟩ :=
    store.retries_transferFrom reach room slices 0 (Nat.zero_add _) rfl stage
  have counted := retries.counted
  have resumes := retries.resumes
  have whole := retries.whole
  simp only [Nat.zero_add] at counted resumes whole
  exact ⟨calls, retries.calls_eq, resumes,
    fun fair => ⟨counted fair, retries.finished fair, whole fair⟩, retries.crashed⟩

/-- Six bytes in four slices, two of them empty, go behind the two bytes of a file that takes three at a
time. They take two calls, the second one for the last three bytes, and the count goes from ten to
sixteen. -/
theorem six_bytes_take_two_calls :
    let slices : List Extent := [.ofList [1, 2], .empty, .ofList [3, 4, 5, 6], .empty]
    let file : Planned Memory := ⟨⟨.ofList [9, 9], false⟩, { Plan.none with chunk := some 3 }⟩
    let transfer := Memory.store.planned.transfer slices 2 10 (Stage.start file ())
    2 + Extent.totalSize slices < Word.span ∧ 10 + Extent.totalSize slices < Word.span ∧
      (∃ left, transfer.stage.calls = [.write 2 slices (.done 3), .write 5 left (.done 3)] ∧
        left.flatMap Extent.toList = [4, 5, 6]) ∧
      transfer.finish = .done () ∧ transfer.written = 16 := by
  intro slices file transfer
  have reach : 2 + Extent.totalSize slices < Word.span := by decide
  have room : 10 + Extent.totalSize slices < Word.span := by decide
  obtain ⟨calls, called, resumes, fine, -⟩ :=
    Memory.store.planned.transfers_retry_exactly reach room (Stage.start file ())
  have two : transfer.stage.calls =
      [.write 2 slices (.done 3), .write 5 (Extent.advance 3 slices) (.done 3)] := by
    simp only [transfer]
    rw [Store.transfer, Store.transferFrom_took (n := 3) (by decide) (by decide) (by decide)
      (by decide) rfl, Store.transferFrom_took (n := 3) (by decide) (by decide) (by decide)
      (by decide) rfl, Store.transferFrom, if_pos (by decide)]
    rfl
  have same : calls = [.write 2 slices (.done 3), .write 5 (Extent.advance 3 slices) (.done 3)] :=
    (called.symm.trans two)
  subst same
  obtain ⟨done, -, whole⟩ := fine (by
    simp only [List.forall_mem_cons]
    exact ⟨⟨rfl, by decide⟩, ⟨rfl, by decide⟩, by simp⟩)
  obtain ⟨last, -⟩ := resumes [.write 2 slices (.done 3)] _ [] rfl
  cases last with
  | write answer rest more => exact ⟨reach, room, ⟨_, two, rest⟩, whole.mpr (by decide), done⟩

end Spillway
