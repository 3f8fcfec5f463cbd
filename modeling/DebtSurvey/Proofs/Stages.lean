import DebtSurvey.Proofs.WorldPart
import DebtSurvey.Scan.Session

/-!
# The stages of a scan

A scan finds its commit and its files, lets a pool do the files, and concludes with the dependencies
and the stale files. The stages are made of parts of a session, each of which changes the world and
ends with a result or a fault.

## Main results

* `Scan.Action.bind_apply` and its cases: what a part of a session that goes on does to a world.
* `Scan.currentCommit_settles`: finding the commit settles whether there is a history.
* `Scan.scan_eq`: a scan is its stages, one after the other.
-/

namespace DebtSurvey

namespace History

/-- Asking whether there is a history settles that, and leaves files and clock alone. -/
theorem isRepository_settles (root : Text) (w : World) :
    (isRepository root w).2.Settled ∧ (isRepository root w).2.files = w.files ∧
      (isRepository root w).2.clock = w.clock := by
  unfold isRepository
  cases hknown : w.memory.repository with
  | some known => exact ⟨by simp [World.Settled, hknown], rfl, rfl⟩
  | none =>
    obtain ⟨result, host, hask⟩ := exists_ask probe w
    simp only [hask]
    cases result <;> exact ⟨rfl, rfl, rfl⟩

/-- Asking for the current commit settles whether there is a history, and leaves files and clock
alone. -/
theorem currentCommit_settles (root : Text) (w : World) :
    (currentCommit root w).2.Settled ∧ (currentCommit root w).2.files = w.files ∧
      (currentCommit root w).2.clock = w.clock := by
  have hknown := isRepository_settles root w
  unfold currentCommit
  rcases hrep : isRepository root w with ⟨known, w'⟩
  rw [hrep] at hknown
  cases known with
  | false => exact hknown
  | true =>
    obtain ⟨result, host, hask⟩ := exists_ask currentArguments w'
    simp only [hask]
    cases result <;> exact hknown

end History

namespace Scan

namespace Action

variable {α β : Type}

/-- A part of a session goes on with its result, and ends with its fault. -/
theorem bind_apply (act : Action α) (next : α → Action β) (w : World) :
    (act >>= next) w =
      match act w with
      | (.ok a, w) => next a w
      | (.error e, w) => (.error e, w) := by
  simp only [bind, ExceptT.bind, ExceptT.mk, StateT.bind]
  rcases act w with ⟨_ | a, w⟩ <;> rfl

/-- A part that may fail for a reason of its own ends with the fault of that reason. -/
theorem bind_orFault {ε : Type} (toFault : ε → Fault) (act : World → Except ε α × World)
    (next : α → Action β) (w : World) :
    (orFault toFault act >>= next) w =
      match act w with
      | (.ok a, w) => next a w
      | (.error e, w) => (.error (toFault e), w) := by
  rw [bind_apply, orFault]
  rcases act w with ⟨_ | a, w⟩ <;> rfl

/-- A part that cannot fail goes on. -/
theorem bind_always (act : World → α × World) (next : α → Action β) (w : World) :
    (always act >>= next) w = next (act w).1 (act w).2 := by
  rw [bind_apply, always]

/-- Looking at the world goes on with it. -/
theorem bind_get (next : World → Action β) (w : World) : (get >>= next) w = next w w := by
  rw [bind_apply]
  rfl

/-- Changing the world goes on in the changed one. -/
theorem bind_modify (f : World → World) (next : PUnit → Action β) (w : World) :
    (modify f >>= next) w = next ⟨⟩ (f w) := by
  rw [bind_apply]
  rfl

end Action

/-- A scan that has found its commit knows whether there is a history; files and clock are as they
were. -/
theorem currentCommit_settles {root commit : Text} {w start : World}
    (h : currentCommit root w = (.ok commit, start)) :
    start.Settled ∧ start.files = w.files ∧ start.clock = w.clock := by
  have hknown := History.isRepository_settles root w
  unfold currentCommit at h
  -- with a history the commit is asked for, without one the user is told
  split at h
  · rcases hrep : History.isRepository root w with ⟨known, w'⟩
    rw [hrep] at h hknown
    cases known with
    | true =>
      have hcommit := History.currentCommit_settles root w'
      obtain ⟨-, rfl⟩ := Prod.mk.inj h
      exact ⟨hcommit.1, hcommit.2.1.trans hknown.2.1, hcommit.2.2.trans hknown.2.2⟩
    | false =>
      obtain ⟨-, rfl⟩ := Prod.mk.inj h
      unfold tellNoHistory
      split <;> exact hknown
  · cases (Prod.mk.inj h).1

/-- The end of a scan, once the findings of its files are there. -/
def conclude (root : Text) (settings : Settings) (commit : Text) (clock : Int) (files : List Text)
    (inFiles : List Finding) (w : World) : Except Fault DebtMap × World :=
  match Audit.scan root settings.auditCommand Audit.limits w with
  | (.error e, w) => (.error (.audit e), w)
  | (.ok inDependencies, w) =>
    let (fanIn, w) := countImports root files w
    match Staleness.scan root settings.staleDays settings.staleImports fanIn clock files w with
    | (.error e, w) => (.error (.age e), w)
    | (.ok stale, w) =>
      let findings := inFiles ++ inDependencies ++ stale
      (.ok ⟨findings, w.clock, commit, Stats.ofFindings findings fanIn⟩, w)

/-- A scan finds its commit and its files, lets a pool do the files, and concludes. -/
theorem scan_eq [Glob.Dialect] (schedule : Schedule) (root : Text) (settings : Settings)
    (w : World) :
    scan schedule root settings w =
      match currentCommit root w with
      | (.error e, w) => (.error e, w)
      | (.ok commit, start) =>
        match selectFiles root settings start with
        | (.error e, w) => (.error (.discovery e), w)
        | (.ok files, w) =>
          let (inFiles, w) := inspectFiles schedule root commit settings start.clock files
            (w.note (.scanStarted files.length commit))
          let (result, w) := conclude root settings commit start.clock files inFiles w
          (result.map fun map => (map, progress schedule files), w) := by
  unfold scan
  rw [Action.bind_apply]
  rcases currentCommit root w with ⟨_ | commit, start⟩
  · rfl
  -- from here on every part is opened by its own equation, and each of its faults ends the scan
  simp only [Action.bind_get, Action.bind_orFault, Action.bind_modify, Action.bind_always]
  rcases selectFiles root settings start with ⟨_ | files, w⟩
  · rfl
  simp only [conclude]
  rcases inspectFiles schedule root commit settings start.clock files
    (w.note (.scanStarted files.length commit)) with ⟨inFiles, w⟩
  simp only
  rcases Audit.scan root settings.auditCommand Audit.limits w with ⟨_ | dependencies, w⟩
  · rfl
  simp only
  rcases Staleness.scan root settings.staleDays settings.staleImports (countImports root files w).1
    start.clock files (countImports root files w).2 with ⟨_ | stale, w⟩
  · rfl
  · rfl

end Scan

end DebtSurvey
