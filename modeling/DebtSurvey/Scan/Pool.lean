import DebtSurvey.Job

/-!
# Pools of jobs

The jobs of a pool share a state and take turns, one step at a time, in an order that nobody
controls. A schedule is such an order together with the order in which the finished jobs are
reported. Whatever the turns leave undone is finished job by job, so every schedule ends, and every
order of steps is the order of some schedule.
-/

namespace DebtSurvey

/-- An order of turns and an order of reports; jobs are named by their places in the pool. -/
structure Schedule where
  /-- Which job takes each turn. -/
  turns : List Nat := []
  /-- In which order finished jobs are reported; jobs that are not named follow in order. -/
  reports : List Nat := []
deriving Repr, Inhabited

namespace Schedule

/-- The order in which a number of jobs is reported: each job once. -/
def order (schedule : Schedule) (count : Nat) : List Nat :=
  let named := schedule.reports.eraseDups.filter (· < count)
  named ++ (List.range count).filter (!named.contains ·)

end Schedule

namespace Pool

variable {σ α : Type}

/-- Let the job at a place take a step. A turn of a job that is done or does not exist is idle. -/
def turn : Nat → List (Job σ α) → σ → List (Job σ α) × σ
  | _, [], s => ([], s)
  | 0, job :: rest, s =>
    let (job, s) := job.advance s
    (job :: rest, s)
  | place + 1, job :: rest, s =>
    let (rest, s) := turn place rest s
    (job :: rest, s)

/-- Let jobs take turns. -/
def turns (places : List Nat) (jobs : List (Job σ α)) (s : σ) : List (Job σ α) × σ :=
  places.foldl (fun (jobs, s) place => turn place jobs s) (jobs, s)

/-- Finish all jobs, one after the other. -/
def finish : List (Job σ α) → σ → List α × σ
  | [], s => ([], s)
  | job :: rest, s =>
    let (result, s) := job.run s
    let (results, s) := finish rest s
    (result :: results, s)

/-- Run all jobs by a schedule; the results stand in the places of their jobs. -/
def run (schedule : Schedule) (jobs : List (Job σ α)) (s : σ) : List α × σ :=
  let (jobs, s) := turns schedule.turns jobs s
  finish jobs s

/-- A turn keeps the number of jobs. -/
@[simp]
theorem length_turn (place : Nat) (jobs : List (Job σ α)) (s : σ) :
    (turn place jobs s).1.length = jobs.length := by
  induction jobs generalizing place s with
  | nil => cases place <;> rfl
  | cons job rest ih =>
    cases place with
    | zero => rfl
    | succ place => exact congrArg (· + 1) (ih place s)

/-- Finishing jobs gives one result for each. -/
@[simp]
theorem length_finish (jobs : List (Job σ α)) (s : σ) : (finish jobs s).1.length = jobs.length := by
  induction jobs generalizing s with
  | nil => rfl
  | cons job rest ih => exact congrArg (· + 1) (ih (job.run s).2)

end Pool

end DebtSurvey
