import DebtSurvey.Scan.Pool
import Mathlib.Data.List.Forall2

/-!
# Pools of confined jobs

Jobs that take turns on a shared state can get into each other's way. They do not when each of them
is confined to a part of the state that no other job of the pool has: what a job sees and what it
leaves behind then depends on its own part only, whatever the others do between its steps.

The parts of a state `s` are the values `view i s`, and `ok` is an invariant of the shared state
that every job may rely on and must keep.

## Main results

* `Job.Confined.andThen`: jobs in sequence are confined when each of them is.
* `Job.Confined.run_congr`: a confined job gives the same result from states that agree on its part.
* `Pool.fst_run_eq_map`: under every schedule each job has the result that it has on its own.
* `Pool.view_run`: every schedule leaves every part as finishing job by job leaves it.
-/

namespace DebtSurvey

variable {ι σ α β V : Type}

namespace Job

/-- A job that reads and changes the part `i` of the state only, as long as the state is `ok`, and
that keeps it `ok`. -/
inductive Confined (ok : σ → Prop) (view : ι → σ → V) (i : ι) : Job σ α → Prop
  /-- A job that is done reads and changes nothing. -/
  | done (result : α) : Confined ok view i (.done result)
  /-- A step decides by its part how to go on and what to make of its part; other parts stay. -/
  | step {change : σ → σ} {next : σ → Job σ α}
      (keeps : ∀ s, ok s → ok (change s))
      (sees : ∀ s t, ok s → ok t → view i s = view i t → next s = next t)
      (own : ∀ s t, ok s → ok t → view i s = view i t → view i (change s) = view i (change t))
      (others : ∀ s, ok s → ∀ k, k ≠ i → view k (change s) = view k s)
      (rest : ∀ s, ok s → Confined ok view i (next s)) : Confined ok view i (.step change next)

namespace Confined

variable {ok : σ → Prop} {view : ι → σ → V} {i : ι}

/-- A job of a single step is confined when its action is. -/
theorem single {act : σ → α × σ} (keeps : ∀ s, ok s → ok (act s).2)
    (own : ∀ s t, ok s → ok t → view i s = view i t →
      (act s).1 = (act t).1 ∧ view i (act s).2 = view i (act t).2)
    (others : ∀ s, ok s → ∀ k, k ≠ i → view k (act s).2 = view k s) :
    Confined ok view i (Job.single act) := by
  refine .step keeps ?_ ?_ others fun s _ => .done _
  · intro s t hs ht h
    rw [(own s t hs ht h).1]
  · intro s t hs ht h
    exact (own s t hs ht h).2

/-- Jobs in sequence are confined when each of them is. -/
theorem andThen {job : Job σ α} {next : α → Job σ β} (first : Confined ok view i job)
    (second : ∀ a, Confined ok view i (next a)) : Confined ok view i (job.andThen next) := by
  induction first with
  | done a => exact second a
  | step keeps sees own others _ ih =>
    refine .step keeps ?_ own others ih
    intro s t hs ht h
    rw [sees s t hs ht h]

/-- A confined job keeps the state `ok`. -/
theorem run_ok {job : Job σ α} (h : Confined ok view i job) {s : σ} (hs : ok s) :
    ok (job.run s).2 := by
  induction h generalizing s with
  | done a => exact hs
  | step keeps _ _ _ _ ih => exact ih s hs (keeps s hs)

/-- From states that agree on its part, a confined job gives the same result and leaves its part the
same. -/
theorem run_congr {job : Job σ α} (h : Confined ok view i job) {s t : σ} (hs : ok s) (ht : ok t)
    (hst : view i s = view i t) :
    (job.run s).1 = (job.run t).1 ∧ view i (job.run s).2 = view i (job.run t).2 := by
  induction h generalizing s t with
  | done a => exact ⟨rfl, hst⟩
  | @step change next keeps sees own _ _ ih =>
    simp only [Job.run]
    rw [sees s t hs ht hst]
    exact ih t ht (keeps s hs) (keeps t ht) (own s t hs ht hst)

/-- A confined job leaves the parts of others alone. -/
theorem view_run_of_ne {job : Job σ α} (h : Confined ok view i job) {s : σ} (hs : ok s) {k : ι}
    (hk : k ≠ i) : view k (job.run s).2 = view k s := by
  induction h generalizing s with
  | done a => rfl
  | @step change next keeps _ _ others _ ih =>
    calc view k ((next s).run (change s)).2
        = view k (change s) := ih s hs (keeps s hs)
      _ = view k s := others s hs k hk

/-- What is left of a confined job after a step is confined. -/
theorem advance {job : Job σ α} (h : Confined ok view i job) {s : σ} (hs : ok s) :
    Confined ok view i (job.advance s).1 := by
  cases h with
  | done a => exact .done a
  | step _ _ _ _ rest => exact rest s hs

/-- One step of a confined job keeps the state `ok`. -/
theorem advance_ok {job : Job σ α} (h : Confined ok view i job) {s : σ} (hs : ok s) :
    ok (job.advance s).2 := by
  cases h with
  | done a => exact hs
  | step keeps _ _ _ _ => exact keeps s hs

/-- One step of a confined job leaves the parts of others alone. -/
theorem view_advance_of_ne {job : Job σ α} (h : Confined ok view i job) {s : σ} (hs : ok s) {k : ι}
    (hk : k ≠ i) : view k (job.advance s).2 = view k s := by
  cases h with
  | done a => rfl
  | step _ _ _ others _ => exact others s hs k hk

end Confined

end Job

namespace Pool

variable {ok : σ → Prop} {view : ι → σ → V}

/-- The jobs of a pool are confined to the parts with some keys, in order. -/
def Confined (ok : σ → Prop) (view : ι → σ → V) (keys : List ι) (jobs : List (Job σ α)) : Prop :=
  List.Forall₂ (Job.Confined ok view) keys jobs

/-- What each job of a pool comes to on its own: its result and what it leaves of its part. -/
def outcomes (view : ι → σ → V) (keys : List ι) (jobs : List (Job σ α)) (s : σ) : List (α × V) :=
  List.zipWith (fun i job => ((job.run s).1, view i (job.run s).2)) keys jobs

/-- What jobs come to does not depend on the parts of others. -/
theorem outcomes_congr {keys : List ι} {jobs : List (Job σ α)} (h : Confined ok view keys jobs)
    {s t : σ} (hs : ok s) (ht : ok t) (hst : ∀ i ∈ keys, view i s = view i t) :
    outcomes view keys jobs s = outcomes view keys jobs t := by
  induction h with
  | nil => rfl
  | @cons i job keys jobs hjob _ ih =>
    have hown := hjob.run_congr hs ht (hst i (by simp))
    have hrest := ih fun k hk => hst k (by simp [hk])
    simp only [outcomes, List.zipWith_cons_cons] at hrest ⊢
    rw [hown.1, hown.2, hrest]

/-- A turn keeps the jobs of a pool confined. -/
theorem Confined.turn {keys : List ι} {jobs : List (Job σ α)} (h : Confined ok view keys jobs)
    {s : σ} (hs : ok s) (place : Nat) :
    Confined ok view keys (turn place jobs s).1 ∧ ok (turn place jobs s).2 := by
  -- the place counts down while the pool is walked through
  induction h generalizing place with
  | nil => exact ⟨by cases place <;> exact .nil, by cases place <;> exact hs⟩
  | @cons i job keys jobs hjob hjobs ih =>
    cases place with
    | zero => exact ⟨.cons (hjob.advance hs) hjobs, hjob.advance_ok hs⟩
    | succ place => exact ⟨.cons hjob (ih place).1, (ih place).2⟩

/-- A turn leaves the parts alone that no job of the pool has. -/
theorem Confined.view_turn {keys : List ι} {jobs : List (Job σ α)} (h : Confined ok view keys jobs)
    {s : σ} (hs : ok s) (place : Nat) {k : ι} (hk : k ∉ keys) :
    view k (Pool.turn place jobs s).2 = view k s := by
  induction h generalizing place with
  | nil => cases place <;> rfl
  | @cons i job keys jobs hjob _ ih =>
    rw [List.mem_cons, not_or] at hk
    cases place with
    | zero => exact hjob.view_advance_of_ne hs hk.1
    | succ place => exact ih place hk.2

/-- A turn changes nothing about what each job comes to. -/
theorem Confined.outcomes_turn {keys : List ι} {jobs : List (Job σ α)}
    (h : Confined ok view keys jobs) (hkeys : keys.Nodup) {s : σ} (hs : ok s) (place : Nat) :
    outcomes view keys (Pool.turn place jobs s).1 (Pool.turn place jobs s).2 =
      outcomes view keys jobs s := by
  induction h generalizing place with
  | nil => cases place <;> rfl
  | @cons i job keys jobs hjob hjobs ih =>
    obtain ⟨hi, hkeys⟩ := List.nodup_cons.mp hkeys
    cases place with
    | zero =>
      -- The job takes its own next step; the others still find their parts as they were.
      have hrest : outcomes view keys jobs (job.advance s).2 = outcomes view keys jobs s := by
        refine outcomes_congr hjobs (hjob.advance_ok hs) hs fun k hk => ?_
        exact hjob.view_advance_of_ne hs (ne_of_mem_of_not_mem hk hi)
      simp only [outcomes, Pool.turn, List.zipWith_cons_cons, Job.run_advance] at hrest ⊢
      rw [hrest]
    | succ place =>
      -- Another job takes the step; the job in front still finds its part as it was.
      have hown := hjob.run_congr (Confined.turn hjobs hs place).2 hs
        (Confined.view_turn hjobs hs place hi)
      have hrest := ih hkeys place
      simp only [outcomes, Pool.turn, List.zipWith_cons_cons] at hrest ⊢
      rw [hown.1, hown.2, hrest]

/-- Turns keep the jobs of a pool confined, and leave the parts alone that no job of the pool has.
-/
theorem Confined.turns {keys : List ι} {jobs : List (Job σ α)} (h : Confined ok view keys jobs)
    {s : σ} (hs : ok s) (places : List Nat) :
    Confined ok view keys (Pool.turns places jobs s).1 ∧ ok (Pool.turns places jobs s).2 ∧
      ∀ k, k ∉ keys → view k (Pool.turns places jobs s).2 = view k s := by
  induction places generalizing jobs s with
  | nil => exact ⟨h, hs, fun _ _ => rfl⟩
  | cons place places ih =>
    obtain ⟨hjobs, hok⟩ := Confined.turn h hs place
    obtain ⟨hjobs', hok', hothers⟩ := ih hjobs hok
    refine ⟨hjobs', hok', fun k hk => ?_⟩
    exact (hothers k hk).trans (Confined.view_turn h hs place hk)

/-- Turns change nothing about what each job comes to. -/
theorem Confined.outcomes_turns {keys : List ι} {jobs : List (Job σ α)}
    (h : Confined ok view keys jobs) (hkeys : keys.Nodup) {s : σ} (hs : ok s) (places : List Nat) :
    outcomes view keys (Pool.turns places jobs s).1 (Pool.turns places jobs s).2 =
      outcomes view keys jobs s := by
  induction places generalizing jobs s with
  | nil => rfl
  | cons place places ih =>
    obtain ⟨hjobs, hok⟩ := Confined.turn h hs place
    exact (ih hjobs hok).trans (Confined.outcomes_turn h hkeys hs place)

/-- Finishing jobs leaves the parts alone that no job of the pool has. -/
theorem Confined.view_finish {keys : List ι} {jobs : List (Job σ α)}
    (h : Confined ok view keys jobs) {s : σ} (hs : ok s) {k : ι} (hk : k ∉ keys) :
    view k (finish jobs s).2 = view k s := by
  induction h generalizing s with
  | nil => rfl
  | @cons i job keys jobs hjob _ ih =>
    rw [List.mem_cons, not_or] at hk
    calc view k (finish jobs (job.run s).2).2
        = view k (job.run s).2 := ih (hjob.run_ok hs) hk.2
      _ = view k s := hjob.view_run_of_ne hs hk.1

/-- From states that agree on all parts, finishing jobs leads to states that agree on all parts. -/
theorem Confined.view_finish_congr {keys : List ι} {jobs : List (Job σ α)}
    (h : Confined ok view keys jobs) {s t : σ} (hs : ok s) (ht : ok t)
    (hst : ∀ k, view k s = view k t) (k : ι) :
    view k (finish jobs s).2 = view k (finish jobs t).2 := by
  induction h generalizing s t with
  | nil => exact hst k
  | @cons i job keys jobs hjob _ ih =>
    refine ih (hjob.run_ok hs) (hjob.run_ok ht) fun l => ?_
    by_cases hl : l = i
    · subst hl
      exact (hjob.run_congr hs ht (hst l)).2
    · rw [hjob.view_run_of_ne hs hl, hjob.view_run_of_ne ht hl, hst l]

/-- Finishing jobs one after the other gives each the result that it has on its own, and leaves each
part as its job leaves it on its own. -/
theorem Confined.finish_eq_outcomes {keys : List ι} {jobs : List (Job σ α)}
    (h : Confined ok view keys jobs) (hkeys : keys.Nodup) {s : σ} (hs : ok s) :
    (finish jobs s).1 = (outcomes view keys jobs s).map (·.1) ∧
      keys.map (view · (finish jobs s).2) = (outcomes view keys jobs s).map (·.2) := by
  induction h generalizing s with
  | nil => exact ⟨rfl, rfl⟩
  | @cons i job keys jobs hjob hjobs ih =>
    obtain ⟨hi, hkeys⟩ := List.nodup_cons.mp hkeys
    have hok := hjob.run_ok hs
    have hown : view i (finish jobs (job.run s).2).2 = view i (job.run s).2 :=
      Confined.view_finish hjobs hok hi
    -- The others come to the same after the job as before it, and do not touch its part.
    have hrest : outcomes view keys jobs (job.run s).2 = outcomes view keys jobs s := by
      refine outcomes_congr hjobs hok hs fun k hk => ?_
      exact hjob.view_run_of_ne hs (ne_of_mem_of_not_mem hk hi)
    obtain ⟨hresults, hviews⟩ := ih hkeys hok
    rw [hrest] at hresults hviews
    simp only [outcomes, finish, List.zipWith_cons_cons, List.map_cons] at hresults hviews ⊢
    exact ⟨by rw [hresults], by rw [hown, hviews]⟩

/-- What the jobs of a pool come to holds the result that each has on its own. -/
theorem Confined.map_fst_outcomes {keys : List ι} {jobs : List (Job σ α)}
    (h : Confined ok view keys jobs) (s : σ) :
    (outcomes view keys jobs s).map (·.1) = jobs.map fun job => (job.run s).1 := by
  induction h with
  | nil => rfl
  | cons _ _ ih =>
    simp only [outcomes, List.zipWith_cons_cons, List.map_cons] at ih ⊢
    rw [ih]

/-- Under every schedule each job has the result that it has on its own. -/
theorem fst_run_eq_map {keys : List ι} {jobs : List (Job σ α)} (h : Confined ok view keys jobs)
    (hkeys : keys.Nodup) {s : σ} (hs : ok s) (schedule : Schedule) :
    (run schedule jobs s).1 = jobs.map fun job => (job.run s).1 := by
  obtain ⟨hjobs, hok, -⟩ := h.turns hs schedule.turns
  rw [run, (hjobs.finish_eq_outcomes hkeys hok).1, h.outcomes_turns hkeys hs, h.map_fst_outcomes s]

/-- Every schedule leaves the parts alone that no job of the pool has. -/
theorem view_run_of_notMem {keys : List ι} {jobs : List (Job σ α)} (h : Confined ok view keys jobs)
    {s : σ} (hs : ok s) (schedule : Schedule) {k : ι} (hk : k ∉ keys) :
    view k (run schedule jobs s).2 = view k s := by
  obtain ⟨hjobs, hok, hothers⟩ := h.turns hs schedule.turns
  rw [run, hjobs.view_finish hok hk, hothers k hk]

/-- Every schedule leaves every part of the state as finishing job by job leaves it. -/
theorem view_run {keys : List ι} {jobs : List (Job σ α)} (h : Confined ok view keys jobs)
    (hkeys : keys.Nodup) {s : σ} (hs : ok s) (schedule : Schedule) (k : ι) :
    view k (run schedule jobs s).2 = view k (finish jobs s).2 := by
  by_cases hk : k ∈ keys
  · -- the part of a job is what the job leaves of it, wherever the job starts from
    obtain ⟨hjobs, hok, -⟩ := h.turns hs schedule.turns
    have hviews := (hjobs.finish_eq_outcomes hkeys hok).2
    rw [h.outcomes_turns hkeys hs, ← (h.finish_eq_outcomes hkeys hs).2] at hviews
    exact List.map_inj_left.mp hviews k hk
  · rw [view_run_of_notMem h hs schedule hk, h.view_finish hs hk]

end Pool

end DebtSurvey
