import DebtSurvey.Proofs.Agreement
import DebtSurvey.Proofs.Discovery
import DebtSurvey.Proofs.FileWork
import DebtSurvey.Proofs.Progress
import DebtSurvey.Proofs.Stages

/-!
# A scan does not depend on its schedule

The jobs of a scan may take their steps in any order and finish in any order. The findings are those
of its files one by one, in the order of discovery, then those of its dependencies, then its stale
files.

The jobs are confined to the command lines that ask for the blame of their files, and these are
different since discovery lists no file twice. So the pool gives every file what it has on its own,
and leaves a world that agrees with the one that doing the files one after the other leaves. What
follows the pool cannot tell such worlds apart.

## Main results

* `Scan.fst_inspectFiles` and `Scan.agree_inspectFiles`: what the pool finds and leaves behind.
* `Scan.conclude_congr`: the rest of a scan comes to the same in worlds that agree.
* `Scan.scan_of_schedule`: the findings and the progress of a scan under every schedule.
-/

namespace DebtSurvey

namespace Scan

/-- The findings of a file on its own: those of markers, then those of functions, and none at all if
the work breaks off. -/
def fileFindings (root commit : Text) (settings : Settings) (clock : Int) (w : World)
    (file : Text) : List Finding :=
  match (markerWork root file commit settings.markerWords clock).run w with
  | (.error _, _) => []
  | (.ok marked, w) =>
    match (functionWork root file commit settings.bands clock).run w with
    | (.error _, _) => []
    | (.ok complex, _) => marked ++ complex

/-- The jobs of some files, in order. -/
def fileJobs (root commit : Text) (settings : Settings) (clock : Int) (files : List Text) :
    List (Job World FileResult) :=
  files.map fun file => fileWork root file commit settings clock

/-- The world after doing some files one after the other. -/
def afterFiles (root commit : Text) (settings : Settings) (clock : Int) (files : List Text)
    (w : World) : World :=
  (Pool.finish (fileJobs root commit settings clock files) w).2

section Files

variable {root commit : Text} {settings : Settings} {clock : Int} {files : List Text} {w v : World}

/-- What the job of a file finds on its own. -/
theorem found_run_fileWork (file : Text) :
    found ((fileWork root file commit settings clock).run w).1 =
      fileFindings root commit settings clock w file := by
  unfold fileWork fileFindings
  rw [Job.run_andThen]
  rcases (markerWork root file commit settings.markerWords clock).run w with ⟨_ | marked, w⟩
  · rfl
  simp only [Job.run_andThen]
  rcases (functionWork root file commit settings.bands clock).run w with ⟨_ | complex, w⟩ <;> rfl

/-- The jobs of files are confined to the command lines that ask for their blame. -/
theorem confined_fileJobs (root commit : Text) (settings : Settings) (clock : Int)
    (files : List Text) :
    Pool.Confined World.Settled World.part (files.map History.blameLine)
      (fileJobs root commit settings clock files) := by
  refine List.forall₂_map_left_iff.mpr (List.forall₂_map_right_iff.mpr ?_)
  exact List.forall₂_same.mpr fun file _ => confined_fileWork root file commit settings clock

/-- Files that differ have command lines that differ. -/
theorem nodup_blameLines (h : files.Nodup) : (files.map History.blameLine).Nodup :=
  h.map History.blameLine_injective

/-- Noting lost files changes no part of a world. -/
theorem agree_noteLost (lost : List Text) (w : World) :
    (lost.foldl (fun w file => w.note (.fileLost file)) w).Agree w := by
  induction lost generalizing w with
  | nil => exact .refl w
  | cons file rest ih => exact (ih (w.note (.fileLost file))).trans (World.Agree.refl w)

/-- Under every schedule the pool finds in every file what the file holds on its own. -/
theorem fst_inspectFiles (schedule : Schedule) (hfiles : files.Nodup) (hw : w.Settled) :
    (inspectFiles schedule root commit settings clock files w).1 =
      files.flatMap (fileFindings root commit settings clock w) := by
  have hresults := Pool.fst_run_eq_map (confined_fileJobs root commit settings clock files)
    (nodup_blameLines hfiles) hw schedule
  simp only [inspectFiles]
  rw [show (files.map fun file => fileWork root file commit settings clock) =
    fileJobs root commit settings clock files from rfl, hresults]
  simp only [fileJobs, List.map_map, List.flatMap_map, Function.comp_def, found_run_fileWork]

/-- Every schedule leaves a world that agrees with the one that doing the files one after the other
leaves. -/
theorem agree_inspectFiles (schedule : Schedule) (hfiles : files.Nodup) (hw : w.Settled) :
    (inspectFiles schedule root commit settings clock files w).2.Agree
      (afterFiles root commit settings clock files w) := by
  -- noting which files were lost comes after the pool, and agreement does not see notes
  have hparts := Pool.view_run (confined_fileJobs root commit settings clock files)
    (nodup_blameLines hfiles) hw schedule
  exact (agree_noteLost _ _).trans hparts

/-- What is found in a file is the same in worlds that agree. -/
theorem fileFindings_congr (h : w.Agree v) (hw : w.Settled) (hv : v.Settled) (file : Text) :
    fileFindings root commit settings clock w file =
      fileFindings root commit settings clock v file := by
  have hrun := (confined_fileWork root file commit settings clock).run_congr hw hv
    (h (History.blameLine file))
  rw [← found_run_fileWork, ← found_run_fileWork, hrun.1]

/-- Doing files one after the other keeps worlds in agreement. -/
theorem afterFiles_congr (h : w.Agree v) (hw : w.Settled) (hv : v.Settled) :
    (afterFiles root commit settings clock files w).Agree
      (afterFiles root commit settings clock files v) :=
  (confined_fileJobs root commit settings clock files).view_finish_congr hw hv h

end Files

/-- The rest of a scan comes to the same in worlds that agree. -/
theorem conclude_congr {w v : World} (h : w.Agree v) (root : Text) (settings : Settings)
    (commit : Text) (clock : Int) (files : List Text) (inFiles : List Finding) :
    (conclude root settings commit clock files inFiles w).1 =
      (conclude root settings commit clock files inFiles v).1 := by
  have haudit := Audit.scan_congr h root settings.auditCommand Audit.limits
  unfold conclude
  generalize Audit.scan root settings.auditCommand Audit.limits w = p,
    Audit.scan root settings.auditCommand Audit.limits v = q at haudit ⊢
  obtain ⟨dependencies, hagree⟩ := haudit
  rename_i w' v'
  cases dependencies with
  | error e => rfl
  | ok dependencies =>
    have hfanIn := countImports_congr hagree root files
    simp only
    generalize countImports root files w' = p, countImports root files v' = q at hfanIn ⊢
    obtain ⟨fanIn, hagree⟩ := hfanIn
    rename_i w'' v''
    have hstale := Staleness.scan_congr hagree root settings.staleDays settings.staleImports fanIn
      clock files
    simp only
    generalize Staleness.scan root settings.staleDays settings.staleImports fanIn clock files w'' =
      p, Staleness.scan root settings.staleDays settings.staleImports fanIn clock files v'' = q
      at hstale ⊢
    obtain ⟨stale, hagree⟩ := hstale
    cases stale with
    | error e => rfl
    | ok stale => simp only [hagree.clock]

/-- The rest of a scan adds the findings of dependencies and the stale files to those of its files.
-/
theorem eq_of_conclude {root : Text} {settings : Settings} {commit : Text} {clock : Int}
    {files : List Text} {inFiles : List Finding} {w : World} {map : DebtMap}
    (h : (conclude root settings commit clock files inFiles w).1 = .ok map) :
    ∃ dependencies stale,
      (Audit.scan root settings.auditCommand Audit.limits w).1 = .ok dependencies ∧
      (Staleness.scan root settings.staleDays settings.staleImports
          (Imports.graph w.files root files).1 clock files
          (Audit.scan root settings.auditCommand Audit.limits w).2).1 = .ok stale ∧
      map.findings = inFiles ++ dependencies ++ stale ∧
      map.stats = Stats.ofFindings map.findings (Imports.graph w.files root files).1 := by
  have hfiles := Audit.files_scan root settings.auditCommand Audit.limits w
  unfold conclude at h
  rcases haudit : Audit.scan root settings.auditCommand Audit.limits w with ⟨_ | dependencies, w'⟩
  · rw [haudit] at h
    cases h
  rw [haudit] at h hfiles
  -- counting imports reads files that the audit has left alone, and only adds notes
  have hgraph : (countImports root files w').1 = (Imports.graph w.files root files).1 := by
    rw [← hfiles]
    rfl
  have hagree : (countImports root files w').2.Agree w' := World.Agree.refl w'
  have hstale := (Staleness.scan_congr hagree root settings.staleDays settings.staleImports
    (Imports.graph w.files root files).1 clock files).fst_eq
  simp only [hgraph] at h
  rcases hscan : Staleness.scan root settings.staleDays settings.staleImports
    (Imports.graph w.files root files).1 clock files (countImports root files w').2
    with ⟨_ | stale, w''⟩
  · rw [hscan] at h
    cases h
  rw [hscan] at h hstale
  obtain rfl := Except.ok.inj h
  exact ⟨dependencies, stale, rfl, hstale.symm, rfl, rfl⟩

/-- The files of a scan cannot be chosen for the reason that discovery gives. -/
theorem error_of_selectFiles [Glob.Dialect] {root : Text} {settings : Settings}
    {cause : Workspace.DiscoveryError} {w after : World}
    (h : selectFiles root settings w = (.error cause, after)) :
    sourceFiles w.files root settings = .error cause := by
  unfold selectFiles at h
  cases hfound : sourceFiles w.files root settings with
  | error e =>
    rw [hfound] at h
    rw [Except.error.inj (Prod.mk.inj h).1]
  | ok found =>
    rw [hfound] at h
    cases (Prod.mk.inj h).1

/-- The files of a scan are those that discovery lists, and choosing them is only noted. -/
theorem eq_of_selectFiles [Glob.Dialect] {root : Text} {settings : Settings} {files : List Text}
    {w after : World} (h : selectFiles root settings w = (.ok files, after)) :
    (∃ event, sourceFiles w.files root settings = .ok (files, event)) ∧ after.Agree w := by
  unfold selectFiles at h
  cases hfound : sourceFiles w.files root settings with
  | error e =>
    rw [hfound] at h
    cases (Prod.mk.inj h).1
  | ok found =>
    obtain ⟨found, event⟩ := found
    rw [hfound] at h
    obtain ⟨hfiles, rfl⟩ := Prod.mk.inj h
    obtain rfl : found = files := Except.ok.inj hfiles
    exact ⟨⟨event, rfl⟩, World.Agree.refl w⟩

/-- The empty command line asks for no blame. -/
theorem nil_notMem_blameLines (files : List Text) : ([] : Text) ∉ files.map History.blameLine := by
  simp [History.blameLine, History.line, History.blameArguments, Host.key, Text.join,
    Text.ofString]

/-- Doing files one after the other leaves all files as they are. -/
theorem files_afterFiles {root commit : Text} {settings : Settings} {clock : Int}
    {files : List Text} {w : World} (hw : w.Settled) :
    (afterFiles root commit settings clock files w).files = w.files := by
  -- no job has the part of the empty command line, so it stays, and the files with it
  have hpart := (confined_fileJobs root commit settings clock files).view_finish hw
    (nil_notMem_blameLines files)
  exact congrArg Part.files hpart

/-- The pool leaves all files as they are. -/
theorem files_inspectFiles (schedule : Schedule) {root commit : Text} {settings : Settings}
    {clock : Int} {files : List Text} {w : World} (hw : w.Settled) :
    (inspectFiles schedule root commit settings clock files w).2.files = w.files := by
  have hpart := Pool.view_run_of_notMem (confined_fileJobs root commit settings clock files) hw
    schedule (nil_notMem_blameLines files)
  exact (agree_noteLost _ _).files.trans (congrArg Part.files hpart)

/-- What a scan comes to, without its pool: every file is done on its own. -/
theorem fst_scan_eq (schedule : Schedule) (root : Text) (settings : Settings) {w : World}
    (hfiles : w.files.isWellFormed) :
    (scan schedule root settings w).1 =
      match currentCommit root w with
      | (.error e, _) => .error e
      | (.ok commit, start) =>
        match sourceFiles w.files root settings with
        | .error e => .error (.discovery e)
        | .ok (files, _) =>
          (conclude root settings commit w.clock files
            (files.flatMap (fileFindings root commit settings w.clock start))
            (afterFiles root commit settings w.clock files start)).1.map
              fun map => (map, progress schedule files) := by
  rw [scan_eq]
  rcases hcommit : currentCommit root w with ⟨_ | commit, start⟩
  · rfl
  obtain ⟨hstart, hsame, hclock⟩ := currentCommit_settles hcommit
  simp only [hclock, ← hsame]
  rcases hselect : selectFiles root settings start with ⟨e | files, chosen⟩
  · simp only [error_of_selectFiles hselect]
  obtain ⟨⟨event, hfound⟩, hagree⟩ := eq_of_selectFiles hselect
  have hnodup : files.Nodup := nodup_of_sourceFiles (hsame ▸ hfiles) hfound
  -- choosing files and noting that the scan has started changes no part of the world
  have hnoted : (chosen.note (.scanStarted files.length commit)).Agree start := hagree
  have hsettled : (chosen.note (.scanStarted files.length commit)).Settled := by
    rw [World.Settled, hnoted.repository]
    exact hstart
  have hfindings : fileFindings root commit settings w.clock
      (chosen.note (.scanStarted files.length commit)) =
        fileFindings root commit settings w.clock start :=
    funext fun file => fileFindings_congr hnoted hsettled hstart file
  have hpool : (inspectFiles schedule root commit settings w.clock files
      (chosen.note (.scanStarted files.length commit))).2.Agree
        (afterFiles root commit settings w.clock files start) :=
    (agree_inspectFiles schedule hnodup hsettled).trans (afterFiles_congr hnoted hsettled hstart)
  simp only [hfound]
  rw [fst_inspectFiles schedule hnodup hsettled, hfindings,
    conclude_congr hpool root settings commit w.clock files]

/-- The findings of a scan are those of its files in the order of discovery, each as the file has
them on its own, then those of its dependencies, then its stale files. These, the statistics, and
whether the scan ends at all are the same for every schedule of its jobs; every file is reported
once, and the reports are counted from one up to the number of files. -/
theorem scan_of_schedule (schedule : Schedule) (root : Text) (settings : Settings) (w : World)
    (hfiles : w.files.isWellFormed) :
    (scan schedule root settings w).1.map (·.1) = (scan {} root settings w).1.map (·.1) ∧
      ∀ map steps, (scan schedule root settings w).1 = .ok (map, steps) →
        ∃ commit start files event dependencies stale,
          currentCommit root w = (.ok commit, start) ∧
          sourceFiles w.files root settings = .ok (files, event) ∧
          (Audit.scan root settings.auditCommand Audit.limits
              (afterFiles root commit settings w.clock files start)).1 = .ok dependencies ∧
          (Staleness.scan root settings.staleDays settings.staleImports
              (Imports.graph w.files root files).1 w.clock files
              (Audit.scan root settings.auditCommand Audit.limits
                (afterFiles root commit settings w.clock files start)).2).1 = .ok stale ∧
          map.findings =
            files.flatMap (fileFindings root commit settings w.clock start) ++ dependencies ++
              stale ∧
          map.stats = Stats.ofFindings map.findings (Imports.graph w.files root files).1 ∧
          steps.map (·.processed) = (List.range files.length).map (· + 1) ∧
          (∀ step ∈ steps, step.total = files.length) ∧
          (steps.map (·.file)).Perm files := by
  constructor
  · -- the schedule is left in the reports only
    rw [fst_scan_eq schedule root settings hfiles, fst_scan_eq {} root settings hfiles]
    rcases currentCommit root w with ⟨_ | commit, start⟩
    · rfl
    rcases sourceFiles w.files root settings with _ | ⟨files, event⟩
    · rfl
    simp only
    generalize (conclude root settings commit w.clock files _ _).1 = result
    cases result <;> rfl
  · intro map steps h
    rw [fst_scan_eq schedule root settings hfiles] at h
    rcases hcommit : currentCommit root w with ⟨_ | commit, start⟩
    · rw [hcommit] at h
      cases h
    rw [hcommit] at h
    rcases hfound : sourceFiles w.files root settings with _ | ⟨files, event⟩
    · rw [hfound] at h
      cases h
    rw [hfound] at h
    simp only at h
    rcases hresult : (conclude root settings commit w.clock files
      (files.flatMap (fileFindings root commit settings w.clock start))
      (afterFiles root commit settings w.clock files start)).1 with _ | result
    · rw [hresult] at h
      cases h
    rw [hresult] at h
    obtain ⟨rfl, rfl⟩ := Prod.mk.inj (Except.ok.inj h)
    obtain ⟨hstart, hsame, -⟩ := currentCommit_settles hcommit
    obtain ⟨dependencies, stale, haudit, hstale, hfindings, hstats⟩ := eq_of_conclude hresult
    rw [files_afterFiles hstart, hsame] at hstale hstats
    exact ⟨commit, start, files, event, dependencies, stale, rfl, rfl, haudit, hstale, hfindings,
      hstats, processed_progress schedule files, total_progress schedule files,
      files_progress_perm schedule files⟩

/-- A workspace of two files with markers, in a repository whose first blame fails. -/
def twoFiles : World where
  files := .dir [("w", .dir [
    ("b.ts", .file (Text.Utf8.encode "// TODO")),
    ("a.ts", .file (Text.Utf8.encode "// FIXME"))])]
  host := { script := [
    ("git rev-parse --git-dir", [.exited 0 ".git" []]),
    ("git blame --porcelain -- a.ts", [.timedOut, .exited 0 [] []])] }

/-- Two files whose jobs take turns are scanned as if they were done one after the other. -/
theorem scan_of_schedule_two_files :
    twoFiles.files.isWellFormed ∧
      (scan ⟨[1, 0, 1, 1, 0], [1]⟩ "/w" {} twoFiles).1.map (·.1) =
        (scan {} "/w" {} twoFiles).1.map (·.1) :=
  have hfiles : twoFiles.files.isWellFormed := by decide
  ⟨hfiles, (scan_of_schedule ⟨[1, 0, 1, 1, 0], [1]⟩ "/w" {} twoFiles hfiles).1⟩

end Scan

end DebtSurvey
