import DebtSurvey.Scan.Session
import Mathlib.Data.List.Nodup
import Mathlib.Data.List.Range

/-!
# Progress

A scan reports each of its files once, whatever the order in which their jobs finish, and counts the
reports from one up to the number of files.
-/

namespace DebtSurvey

/-- Erasing repetitions leaves none. -/
theorem nodup_eraseDups {α : Type} [BEq α] [LawfulBEq α] (xs : List α) : xs.eraseDups.Nodup := by
  match xs with
  | [] => exact List.nodup_nil
  | x :: xs =>
    have hlength : (xs.filter fun b => !b == x).length < xs.length + 1 :=
      Nat.lt_succ_of_le (List.length_filter_le _ xs)
    rw [List.eraseDups_cons, List.nodup_cons]
    refine ⟨?_, nodup_eraseDups _⟩
    simp
termination_by xs.length

/-- Finished jobs are reported each once. -/
theorem Schedule.order_perm (schedule : Schedule) (count : Nat) :
    (schedule.order count).Perm (List.range count) := by
  have hnamed : (schedule.reports.eraseDups.filter (· < count)).Nodup :=
    (nodup_eraseDups _).filter _
  -- both lists are without repetitions, so it is enough that they have the same members
  refine (List.perm_ext_iff_of_nodup ?_ List.nodup_range).mpr fun place => ?_
  · refine List.nodup_append'.mpr ⟨hnamed, List.nodup_range.filter _, ?_⟩
    rw [List.disjoint_left]
    intro place hplace hother
    simp only [List.mem_filter, Bool.not_eq_true', List.contains_eq_mem, decide_eq_false_iff_not]
      at hother
    exact hother.2 (List.mem_filter.mp hplace)
  · simp only [Schedule.order, List.mem_append, List.mem_filter, List.mem_range, Bool.not_eq_true',
      List.contains_eq_mem, decide_eq_false_iff_not, decide_eq_true_eq]
    constructor
    · rintro (⟨-, h⟩ | ⟨h, -⟩) <;> exact h
    · intro h
      by_cases hreport : place ∈ schedule.reports.eraseDups
      · exact .inl ⟨hreport, h⟩
      · exact .inr ⟨h, fun hnamed => hreport hnamed.1⟩

namespace Scan

variable (schedule : Schedule) (files : List Text)

/-- The number of files done counts up from one. -/
theorem processed_progress :
    (progress schedule files).map (·.processed) = (List.range files.length).map (· + 1) := by
  have hlength := (schedule.order_perm files.length).length_eq
  rw [List.length_range] at hlength
  apply List.ext_getElem
  · simp [progress, hlength]
  · intro i hi hi'
    simp [progress]

/-- The number of all files stays the same. -/
theorem total_progress : ∀ step ∈ progress schedule files, step.total = files.length := by
  intro step hstep
  obtain ⟨i, hi, rfl⟩ := List.mem_mapIdx.mp hstep
  rfl

/-- Every file is reported once. -/
theorem files_progress_perm : ((progress schedule files).map (·.file)).Perm files := by
  have hall : (List.range files.length).map (files.getD · []) = files := by
    apply List.ext_getElem
    · simp
    · intro i hi hi'
      simp [List.getD_eq_getElem?_getD, hi']
  have hfiles : (progress schedule files).map (·.file) =
      (schedule.order files.length).map (files.getD · []) := by
    apply List.ext_getElem
    · simp [progress]
    · intro i hi hi'
      simp [progress]
  rw [hfiles]
  -- the order of reports is a permutation of the places, and the places give back the files
  exact ((schedule.order_perm files.length).map _).trans (List.Perm.of_eq hall)

end Scan

end DebtSurvey
