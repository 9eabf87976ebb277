import Spillway.Store
/-!
Surroundings that fail as planned. A plan is laid over a store: it has answers for the next writes,
or bounds for them once those are used up, and failures for the other calls. The pools crash at the
reclaim with a given number.
-/

namespace Spillway

/-- What is planned for one write. -/
inductive Cue where
  /-- It fails. -/
  | fail (cause : Cause)
  /-- It takes at most so many bytes. -/
  | atMost (bytes : Nat)
  /-- It takes everything, and claims to have taken so many bytes. -/
  | claim (bytes : Nat)
  deriving Repr, DecidableEq

/-- What is planned for a store. -/
structure Plan where
  /-- What is planned for the next writes, one cue for each. -/
  script : List Cue
  /-- Writes that have no cue fail at this position, and take nothing behind it. -/
  limit : Option Nat
  /-- Writes that have no cue take at most so many bytes. -/
  chunk : Option Nat
  truncateCause : Option Cause
  syncCause : Option Cause
  lengthCause : Option Cause
  /-- The length that the file is said to have. -/
  length : Option Nat
  deriving Repr, DecidableEq

/-- A store's state with a plan laid over it. -/
structure Planned (σ : Type) where
  inner : σ
  plan : Plan
  deriving Repr

namespace Plan

/-- The plan that leaves every call alone. -/
def none : Plan := ⟨[], .none, .none, .none, .none, .none, .none⟩

instance : Inhabited Plan := ⟨none⟩

def failure (cause : Cause) : Failure := ⟨cause, "injected"⟩

/-- The most bytes that a write without a cue takes at a position, if there is a bound. -/
def room (plan : Plan) (position : Nat) : Option Nat :=
  match plan.limit, plan.chunk with
  | .none, chunk => chunk
  | some limit, .none => some (limit - position)
  | some limit, some chunk => some (min (limit - position) chunk)

/-- A write without a cue fails at this position. -/
def isFull (plan : Plan) (position : Nat) : Bool :=
  match plan.limit with
  | .none => false
  | some limit => limit ≤ position

end Plan

namespace Store

variable {σ : Type}

/-- Writes at most so many bytes, in one slice if that cuts them short. -/
def writeAtMost (store : Store σ) (bytes : Option Nat) (file : σ) (slices : List Extent)
    (position : Nat) : Answer Nat × σ :=
  match bytes with
  | none => store.write file slices position
  | some bytes =>
    if bytes < Extent.totalSize slices then
      store.write file [(Extent.concat slices).take bytes] position
    else store.write file slices position

def writeUnder (store : Store σ) (file : Planned σ) (slices : List Extent) (position : Nat) :
    Answer Nat × Planned σ :=
  match file.plan.script with
  | .fail cause :: script =>
    (.failed (Plan.failure cause), { file with plan := { file.plan with script } })
  | .atMost bytes :: script =>
    let done := store.writeAtMost (some bytes) file.inner slices position
    (done.1, ⟨done.2, { file.plan with script }⟩)
  | .claim bytes :: script =>
    let done := store.write file.inner slices position
    (match done.1 with
      | .done _ => .done bytes
      | answer => answer,
      ⟨done.2, { file.plan with script }⟩)
  | [] =>
    if file.plan.isFull position then (.failed (Plan.failure .storageFull), file)
    else
      let done := store.writeAtMost (file.plan.room position) file.inner slices position
      (done.1, { file with inner := done.2 })

theorem patience_writeAtMost (store : Store σ) (bytes : Option Nat) (file : σ)
    (slices : List Extent) (position : Nat)
    (interrupted : (store.writeAtMost bytes file slices position).1.Interrupted) :
    store.patience (store.writeAtMost bytes file slices position).2 < store.patience file := by
  unfold writeAtMost at *
  split at interrupted
  · exact store.patience_lt _ _ _ interrupted
  · split at interrupted
    · rw [if_pos (by assumption)]
      exact store.patience_lt _ _ _ interrupted
    · rw [if_neg (by assumption)]
      exact store.patience_lt _ _ _ interrupted

/-- A store with plans laid over its states. -/
def planned (store : Store σ) : Store (Planned σ) where
  length file :=
    match file.plan.lengthCause, file.plan.length with
    | some cause, _ => .failed (Plan.failure cause)
    | none, some length => .done length
    | none, none => store.length file.inner
  write := store.writeUnder
  truncate file length :=
    match file.plan.truncateCause with
    | some cause => (.failed (Plan.failure cause), file)
    | none =>
      let done := store.truncate file.inner length
      (done.1, { file with inner := done.2 })
  sync file :=
    match file.plan.syncCause with
    | some cause => (.failed (Plan.failure cause), file)
    | none =>
      let done := store.sync file.inner
      (done.1, { file with inner := done.2 })
  patience file := file.plan.script.length + store.patience file.inner
  patience_lt file slices position interrupted := by
    unfold writeUnder at *
    split at interrupted
    · rename_i script
      simp [script]
    · rename_i script
      have less := store.patience_writeAtMost _ _ _ _ interrupted
      simp only [script, List.length_cons]
      omega
    · rename_i script
      obtain ⟨text, interrupted⟩ := interrupted
      have less := store.patience_lt file.inner slices position
        ⟨text, by
          generalize store.write file.inner slices position = done at *
          obtain ⟨answer, after⟩ := done
          cases answer <;> simp_all⟩
      simp only [script, List.length_cons]
      omega
    · rename_i script
      split at interrupted
      · obtain ⟨text, interrupted⟩ := interrupted
        cases interrupted
      · rename_i notFull
        have less := store.patience_writeAtMost _ _ _ _ interrupted
        rw [if_neg notFull]
        simpa [script] using less

end Store

/-- How often pools have been called, and the number of the call at which they crash. -/
structure Tally where
  calls : Nat
  crashAt : Option Nat
  deriving Repr, DecidableEq

/-- The pools that crash as planned. -/
def Tally.pool : Pool Tally where
  reclaim tally _ _ := (tally.crashAt == some tally.calls, { tally with calls := tally.calls + 1 })

end Spillway
