import DebtSurvey.Scan.Pool
import Mathlib.Data.List.Forall2

/-!
# Invariants of pools

Jobs that get into each other's way can still be relied on for what each of their steps keeps. When
every step of every job keeps an invariant of the shared state, so does the pool under every
schedule; and what a job ensures of its result from the invariant alone, it ensures whatever the
others do between its steps.

## Main results

* `Job.Ensures.andThen`: what jobs in sequence ensure.
* `Pool.run_ensures`: under every schedule a pool keeps the invariant, and each of its results is as
  its job ensures.
-/

namespace DebtSurvey

variable {ι σ α β : Type}

namespace Job

/-- A job whose steps keep an invariant of the state, and whose result has a property, as long as
the invariant holds whenever it takes a step. -/
inductive Ensures (inv : σ → Prop) (post : α → Prop) : Job σ α → Prop
  /-- The result of a job that is done has the property. -/
  | done {result : α} (holds : post result) : Ensures inv post (.done result)
  /-- A step keeps the invariant, and whatever state it finds, what follows ensures the same. -/
  | step {change : σ → σ} {next : σ → Job σ α} (keeps : ∀ s, inv s → inv (change s))
      (rest : ∀ s, inv s → Ensures inv post (next s)) : Ensures inv post (.step change next)

namespace Ensures

variable {inv : σ → Prop} {post : α → Prop} {job : Job σ α} {s : σ}

/-- A job of a single step ensures what its action does. -/
theorem single (post : α → Prop) {act : σ → α × σ}
    (h : ∀ s, inv s → post (act s).1 ∧ inv (act s).2) :
    Ensures inv post (Job.single act) :=
  .step (fun s hs => (h s hs).2) fun s hs => .done (h s hs).1

/-- Jobs in sequence ensure what the second does after whatever the first ensures. -/
theorem andThen {goal : β → Prop} {next : α → Job σ β} (first : Ensures inv post job)
    (second : ∀ a, post a → Ensures inv goal (next a)) : Ensures inv goal (job.andThen next) := by
  -- the invariant holds at each step of the first, so the second is reached from a state with it
  induction first with
  | done holds => exact second _ holds
  | step keeps _ ih => exact .step keeps ih

/-- A job that is run on its own ensures the property of its result, and keeps the invariant. -/
theorem run (h : Ensures inv post job) (hs : inv s) : post (job.run s).1 ∧ inv (job.run s).2 := by
  induction h generalizing s with
  | done holds => exact ⟨holds, hs⟩
  | step keeps _ ih => exact ih s hs (keeps s hs)

/-- One step keeps the invariant, and what is left ensures the same. -/
theorem advance (h : Ensures inv post job) (hs : inv s) :
    Ensures inv post (job.advance s).1 ∧ inv (job.advance s).2 := by
  cases h with
  | done holds => exact ⟨.done holds, hs⟩
  | step keeps rest => exact ⟨rest s hs, keeps s hs⟩

end Ensures

end Job

namespace Pool

variable {inv : σ → Prop} {post : ι → α → Prop} {names : List ι} {jobs : List (Job σ α)} {s : σ}

/-- The jobs of a pool ensure properties of their results by their names, in order. -/
def Ensures (inv : σ → Prop) (post : ι → α → Prop) (names : List ι) (jobs : List (Job σ α)) :
    Prop :=
  List.Forall₂ (fun name job => Job.Ensures inv (post name) job) names jobs

/-- A turn keeps the invariant, and what the jobs ensure. -/
theorem Ensures.turn (h : Ensures inv post names jobs) (hs : inv s) (place : Nat) :
    Ensures inv post names (turn place jobs s).1 ∧ inv (turn place jobs s).2 := by
  -- the place counts down while the pool is walked through
  induction h generalizing place with
  | nil => exact ⟨by cases place <;> exact .nil, by cases place <;> exact hs⟩
  | cons hjob hjobs ih =>
    cases place with
    | zero => exact ⟨.cons (hjob.advance hs).1 hjobs, (hjob.advance hs).2⟩
    | succ place => exact ⟨.cons hjob (ih place).1, (ih place).2⟩

/-- Turns keep the invariant, and what the jobs ensure. -/
theorem Ensures.turns (h : Ensures inv post names jobs) (hs : inv s) (places : List Nat) :
    Ensures inv post names (Pool.turns places jobs s).1 ∧ inv (Pool.turns places jobs s).2 := by
  induction places generalizing jobs s with
  | nil => exact ⟨h, hs⟩
  | cons place places ih =>
    obtain ⟨hjobs, hinv⟩ := Ensures.turn h hs place
    exact ih hjobs hinv

/-- Finishing the jobs gives results as they ensure, and keeps the invariant. -/
theorem finish_ensures (h : Ensures inv post names jobs) (hs : inv s) :
    List.Forall₂ post names (finish jobs s).1 ∧ inv (finish jobs s).2 := by
  induction h generalizing s with
  | nil => exact ⟨.nil, hs⟩
  | cons hjob _ ih =>
    obtain ⟨hresult, hinv⟩ := hjob.run hs
    obtain ⟨hresults, hinv⟩ := ih hinv
    exact ⟨.cons hresult hresults, hinv⟩

/-- Under every schedule the results are as the jobs ensure, and the invariant is kept. -/
theorem run_ensures (h : Ensures inv post names jobs) (hs : inv s) (schedule : Schedule) :
    List.Forall₂ post names (run schedule jobs s).1 ∧ inv (run schedule jobs s).2 := by
  obtain ⟨hjobs, hinv⟩ := Ensures.turns h hs schedule.turns
  exact finish_ensures hjobs hinv

end Pool

end DebtSurvey
