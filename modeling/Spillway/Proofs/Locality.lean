import Spillway.Proofs.Tandem
/-!
The writer does not look back. What it does depends on the file and the pools as they are, and its
events go on top of whatever journal there is: done on a stage with older events under the journal,
a piece of work comes to the same. No single deed looks back (`Surroundings.lockstep_onto`), so
neither does the work for a request, nor a step of the spooler, up to `Surroundings.settle_onto`.
-/

namespace Spillway

variable {σ π : Type}

/-- A stage with older events under its journal. -/
def Stage.onto (stage : Stage σ π) (older : List (Event σ)) : Stage σ π :=
  { stage with journal := stage.journal ++ older }

def Verdict.onto (verdict : Verdict σ π) (older : List (Event σ)) : Verdict σ π :=
  { verdict with stage := verdict.stage.onto older }

attribute [ext] Verdict

namespace Stage

variable (stage : Stage σ π) (older : List (Event σ))

theorem reply_onto (ticket : Nat) (reply : Reply) :
    (stage.onto older).reply ticket reply = (stage.reply ticket reply).onto older := rfl

theorem eq_onto : stage = (Stage.start stage.file stage.pool).onto stage.journal := rfl

end Stage

namespace Pool

variable (pool : Pool π) (older : List (Event σ))

theorem release_onto (buffer : Buffer) (stage : Stage σ π) :
    pool.release buffer (stage.onto older) =
      ((pool.release buffer stage).1, (pool.release buffer stage).2.onto older) := by
  unfold release giveBack
  cases buffer.owner with
  | nobody => rfl
  | pool number =>
    cases crash : (pool.reclaim stage.pool number buffer.segment).1 <;>
      simp [Stage.onto, Stage.record, Stage.crash, crash]

end Pool

namespace Surroundings

variable (env : Surroundings σ π) (older : List (Event σ))

/-- No deed looks at the events before it. -/
theorem lockstep_onto : env.Lockstep env fun a b => b = a.onto older where
  write := by
    rintro a _ rfl slices position
    exact ⟨rfl, rfl⟩
  truncate := by
    rintro a _ rfl length
    exact ⟨rfl, rfl⟩
  sync := by
    rintro a _ rfl
    exact ⟨rfl, rfl⟩
  release := by
    rintro a _ rfl buffer
    rw [Pool.release_onto]
    exact ⟨rfl, rfl⟩
  note := by
    rintro a _ rfl notice
    rfl
  count := by
    rintro a _ rfl instrument amount
    rfl
  crash := by
    rintro a _ rfl
    rfl

theorem releaseAll_onto (buffers : List Buffer) (stage : Stage σ π) :
    env.releaseAll buffers (stage.onto older) =
      ((env.releaseAll buffers stage).1, (env.releaseAll buffers stage).2.onto older) := by
  obtain ⟨crashed, after⟩ := (env.lockstep_onto older).tandem_releaseAll rfl buffers
  exact Prod.ext crashed after

theorem process_onto (request : Request) (writer : Writer) (stage : Stage σ π) :
    env.process request writer (stage.onto older) =
      (env.process request writer stage).onto older := by
  obtain ⟨reply, moved, after⟩ := (env.lockstep_onto older).tandem_process Writer.aside_id
    (fun _ => rfl) (Eq.refl (stage.onto older)) request writer
  exact Verdict.ext reply moved after

theorem submit_onto (ticket : Nat) (request : Request) (spooler : Spooler) (stage : Stage σ π) :
    env.submit ticket request spooler (stage.onto older) =
      ((env.submit ticket request spooler stage).1, (env.submit ticket request spooler stage).2.1,
        (env.submit ticket request spooler stage).2.2.onto older) := by
  simp only [submit, releaseAll_onto, Stage.reply_onto]
  split
  · rfl
  · split
    · rfl
    · split <;> rfl

theorem abandon_onto (orders : List Order) (stage : Stage σ π) :
    env.abandon orders (stage.onto older) = (env.abandon orders stage).onto older := by
  induction orders generalizing stage with
  | nil => rfl
  | cons order later ih =>
    simp only [abandon, releaseAll_onto, Stage.reply_onto, ih]

theorem step_onto (spooler : Spooler) (stage : Stage σ π) :
    env.step spooler (stage.onto older) =
      ((env.step spooler stage).1, (env.step spooler stage).2.onto older) := by
  simp only [step, process_onto, Verdict.onto, Stage.reply_onto, abandon_onto]
  split
  · rfl
  · split <;> rfl

theorem steps_onto (n : Nat) (spooler : Spooler) (stage : Stage σ π) :
    env.steps n spooler (stage.onto older) =
      ((env.steps n spooler stage).1, (env.steps n spooler stage).2.onto older) := by
  induction n generalizing spooler stage with
  | zero => rfl
  | succ n ih => simp only [steps, step_onto, ih]

theorem settle_onto (spooler : Spooler) (stage : Stage σ π) :
    env.settle spooler (stage.onto older) =
      ((env.settle spooler stage).1, (env.settle spooler stage).2.onto older) :=
  env.steps_onto older _ spooler stage

end Surroundings
end Spillway
