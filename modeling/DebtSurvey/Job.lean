/-!
# Jobs

A job is work on a shared state that is done in steps. Between two steps of one job, steps of others
may take place; a step itself is never interrupted. Running a job on its own takes its steps one
after the other.
-/

namespace DebtSurvey

/-- Work on a state of type `σ` that ends with a result. -/
inductive Job (σ α : Type) : Type where
  /-- The work is done. -/
  | done (result : α)
  /-- A step changes the state, and what is seen of the state before it decides how to go on. -/
  | step (change : σ → σ) (next : σ → Job σ α)

namespace Job

variable {σ α β : Type}

/-- Go on with another job once one is done. -/
def andThen : Job σ α → (α → Job σ β) → Job σ β
  | .done a, next => next a
  | .step change more, next => .step change fun s => (more s).andThen next

instance : Monad (Job σ) where
  pure := .done
  bind := andThen

/-- A job of a single step. -/
def single (act : σ → α × σ) : Job σ α := .step (fun s => (act s).2) fun s => .done (act s).1

/-- Run a job on its own. -/
def run : Job σ α → σ → α × σ
  | .done a, s => (a, s)
  | .step change next, s => (next s).run (change s)

/-- Take one step, if the job is not done. -/
def advance : Job σ α → σ → Job σ α × σ
  | .done a, s => (.done a, s)
  | .step change next, s => (next s, change s)

/-- Running two jobs in sequence runs the first, then the second from where it leaves the state. -/
theorem run_andThen (job : Job σ α) (next : α → Job σ β) (s : σ) :
    (job.andThen next).run s = (next (job.run s).1).run (job.run s).2 := by
  induction job generalizing s with
  | done a => rfl
  | step change more ih => exact ih s (change s)

/-- Running a job of a single step is that step. -/
@[simp]
theorem run_single (act : σ → α × σ) (s : σ) : (single act).run s = act s := rfl

/-- Taking a step and then running the rest is running the job. -/
theorem run_advance (job : Job σ α) (s : σ) :
    (job.advance s).1.run (job.advance s).2 = job.run s := by
  cases job <;> rfl

end Job

end DebtSurvey
