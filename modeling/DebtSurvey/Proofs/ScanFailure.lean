import DebtSurvey.Proofs.StaleFiles

/-!
# When a scan fails

A scan of a directory without declared dependencies gives a result whatever its files hold, whatever
the version control program answers, and whatever the limits of the settings are, with one
exception: it fails when the patterns of what to leave out cannot be read. That is so when the
ignore file is no file of UTF-8 text, or when one of its lines or one of the exclude patterns is no
pattern. What a pattern is, the dialect of patterns says, and any dialect will do.

The names of files are texts. A file system may hold names that are none, and these are left out
here: a stale file of such a name ends the scan as well, since its finding cannot be given an
identifier.

## Main results

* `Workspace.files_ok_iff`: when the files of a workspace can be found.
* `Scan.scan_ok_iff`: when a scan gives a result, and with what it fails otherwise.
-/

namespace DebtSurvey

namespace Glob

variable [Dialect]

/-- A line that can be read as a pattern, or as having none. -/
def IsReadable (line : Text) : Prop := ∃ pattern, Dialect.read line = .ok pattern

/-- Lines can be read as patterns when each of them can. -/
theorem parseLines_ok_iff (lines : List Text) :
    (∃ patterns, parseLines lines = .ok patterns) ↔ ∀ line ∈ lines, IsReadable line := by
  have hmapM : (∃ found, lines.mapM Dialect.read = .ok found) ↔
      ∀ line ∈ lines, IsReadable line := by
    -- the first line that cannot be read decides, and then not every line can
    induction lines with
    | nil => simp [pure, Except.pure]
    | cons line rest ih =>
      rw [List.forall_mem_cons, ← ih, List.mapM_cons]
      cases hline : Dialect.read line with
      | error cause => simp [IsReadable, hline, bind, Except.bind]
      | ok pattern =>
        cases hrest : rest.mapM Dialect.read with
        | error cause => simp [bind, Except.bind]
        | ok found => simp [IsReadable, hline, bind, Except.bind, pure, Except.pure]
  rw [← hmapM, parseLines]
  cases lines.mapM Dialect.read <;> simp [bind, Except.bind, pure, Except.pure]

end Glob

namespace Workspace

variable [Glob.Dialect] {files : Node} {directory : Text}

/-- The ignore file of a directory, if there is one, is a file of UTF-8 text, and every line of it
can be read. -/
def IgnoreIsReadable (files : Node) (directory : Text) : Prop :=
  files.hasPath (Path.append directory ignoreName) →
    ∃ bytes text, files.read (Path.append directory ignoreName) = .ok bytes ∧
      Text.Utf8.decode? bytes = some text ∧
      ∀ line ∈ keptLines (Text.unifyNewlines text), Glob.IsReadable line

/-- The patterns of an ignore file can be had when it can be read, or is missing. -/
theorem ignorePatterns_ok_iff :
    (∃ patterns, ignorePatterns files directory = .ok patterns) ↔
      IgnoreIsReadable files directory := by
  unfold ignorePatterns IgnoreIsReadable
  by_cases hpath : files.hasPath (Path.append directory ignoreName)
  · simp only [hpath, if_true, true_implies]
    cases hread : files.read (Path.append directory ignoreName) with
    | error cause => simp
    | ok bytes =>
      cases hdecode : Text.Utf8.decode? bytes with
      | none => simp [hdecode]
      | some text =>
        simp only [hdecode, Except.ok.injEq, Option.some.injEq, exists_eq_left', exists_and_left,
          ← Glob.parseLines_ok_iff]
        cases Glob.parseLines (keptLines (Text.unifyNewlines text)) <;> simp [Except.mapError]
  · simp [hpath]

/-- The files of a workspace can be found when its ignore file and the exclude patterns can be read.
-/
theorem files_ok_iff (excludes : List Text) :
    (∃ found, Workspace.files files directory excludes = .ok found) ↔
      IgnoreIsReadable files directory ∧ ∀ line ∈ excludes, Glob.IsReadable line := by
  rw [← ignorePatterns_ok_iff, ← Glob.parseLines_ok_iff, Workspace.files]
  cases ignorePatterns files directory with
  | error cause => simp [bind, Except.bind]
  | ok ignored =>
    cases Glob.parseLines excludes <;>
      simp [bind, Except.bind, pure, Except.pure, Except.mapError]

end Workspace

namespace Scan

variable {root : Text} {settings : Settings} {w : World}

/-- The files of a scan can be chosen when those of its workspace can be found. -/
theorem sourceFiles_ok_iff [Glob.Dialect] (files : Node) (root : Text) (settings : Settings) :
    (∃ found, sourceFiles files root settings = .ok found) ↔
      Workspace.IgnoreIsReadable files root ∧ ∀ line ∈ settings.excludes, Glob.IsReadable line := by
  rw [← Workspace.files_ok_iff, sourceFiles]
  cases Workspace.files files root settings.excludes <;>
    simp [bind, Except.bind, pure, Except.pure]

/-- Without declared dependencies the rest of a scan never fails. -/
theorem conclude_ok (hmanifest : w.files.hasPath (Path.append root Audit.manifest) = false)
    {clock : Int} (hclock : |clock| < 2 ^ 53) (settings : Settings) (commit : Text)
    (files : List Text) (inFiles : List Finding) :
    ∃ map, (conclude root settings commit clock files inFiles w).1 = .ok map := by
  have haudit : Audit.scan root settings.auditCommand Audit.limits w = (.ok [], w) := by
    rw [Audit.scan, hmanifest]
    rfl
  unfold conclude
  simp only [haudit]
  -- whatever the fan-in and the world are by now, the search for stale files succeeds
  generalize (countImports root files w).1 = fanIn
  generalize (countImports root files w).2 = counted
  have hstale := Staleness.fst_scan_eq root settings.staleDays settings.staleImports fanIn
    (Binary64.lt_rangeEnd hclock) files counted
  rcases hscan : Staleness.scan root settings.staleDays settings.staleImports fanIn clock files
    counted with ⟨result, later⟩
  rw [hscan] at hstale
  obtain rfl : result = .ok _ := hstale
  exact ⟨_, rfl⟩

/-- A scan of a directory finds its commit. -/
theorem currentCommit_ok (hroot : w.files.hasDirectory root) :
    ∃ commit, (currentCommit root w).1 = .ok commit := by
  rw [currentCommit, if_pos hroot]
  rcases History.isRepository root w with ⟨_ | _, v⟩ <;> exact ⟨_, rfl⟩

/-- Where there are a directory and no declared dependencies, a scan fails only for want of its
files. -/
theorem fst_scan_of_sourceFiles [Glob.Dialect] (schedule : Schedule) (settings : Settings)
    (hroot : w.files.hasDirectory root)
    (hmanifest : w.files.hasPath (Path.append root Audit.manifest) = false)
    (hclock : |w.clock| < 2 ^ 53) :
    match sourceFiles w.files root settings with
    | .error cause => (scan schedule root settings w).1 = .error (.discovery cause)
    | .ok _ => ∃ found, (scan schedule root settings w).1 = .ok found := by
  obtain ⟨commit, hcommit⟩ := currentCommit_ok hroot
  rcases hstart : currentCommit root w with ⟨result, start⟩
  rw [hstart] at hcommit
  obtain rfl : result = .ok commit := hcommit
  obtain ⟨hsettled, hsame, htime⟩ := currentCommit_settles hstart
  rw [scan_eq, hstart, ← hsame]
  simp only [htime]
  rcases hselect : selectFiles root settings start with ⟨cause | files, chosen⟩
  · rw [error_of_selectFiles hselect]
  · obtain ⟨⟨event, hfound⟩, hagree⟩ := eq_of_selectFiles hselect
    rw [hfound]
    simp only
    generalize hlisted : chosen.note (.scanStarted files.length commit) = listed
    have hstill : listed.Agree start := by
      rw [← hlisted]
      exact hagree
    have hready : listed.Settled := by
      rw [World.Settled, hstill.repository]
      exact hsettled
    -- the pool leaves the files alone, so there still are no declared dependencies
    have hpool : (inspectFiles schedule root commit settings w.clock files listed).2.files =
        w.files := by
      rw [files_inspectFiles schedule hready, hstill.files, hsame]
    rw [← hpool] at hmanifest
    obtain ⟨map, hmap⟩ := conclude_ok hmanifest hclock settings commit files
      (inspectFiles schedule root commit settings w.clock files listed).1
    rw [hmap]
    exact ⟨_, rfl⟩

/-- A scan of a directory without declared dependencies, in which every file has a text for a name,
gives a result if and only if the ignore file and the exclude patterns can be read, in whatever
dialect. Whatever is in the files, in the history and in the settings else, there is no other way
for it to fail. -/
theorem scan_ok_iff [Glob.Dialect] (schedule : Schedule) (settings : Settings)
    (hroot : w.files.hasDirectory root)
    (hmanifest : w.files.hasPath (Path.append root Audit.manifest) = false)
    (hclock : |w.clock| < 2 ^ 53) :
    ((∃ map steps, (scan schedule root settings w).1 = .ok (map, steps)) ↔
      Workspace.IgnoreIsReadable w.files root ∧
        ∀ line ∈ settings.excludes, Glob.IsReadable line) ∧
      ∀ fault, (scan schedule root settings w).1 = .error fault →
        ∃ cause, fault = .discovery cause ∧ sourceFiles w.files root settings = .error cause := by
  have hscan := fst_scan_of_sourceFiles schedule settings hroot hmanifest hclock
  rw [← sourceFiles_ok_iff]
  cases hfiles : sourceFiles w.files root settings with
  | error cause =>
    rw [hfiles] at hscan
    replace hscan : (scan schedule root settings w).1 = .error (.discovery cause) := hscan
    simp [hscan]
  | ok chosen =>
    rw [hfiles] at hscan
    obtain ⟨⟨map, steps⟩, hfound⟩ := hscan
    simp [hfound]

/-- A workspace whose ignore file is a byte that no UTF-8 text has. -/
def unreadableIgnore : World where
  files := .dir [("w", .dir [(".gitignore", .file [0xff])])]

/-- A scan of a workspace whose ignore file is not UTF-8 fails. -/
theorem scan_ok_iff_unreadable_ignore :
    unreadableIgnore.files.hasDirectory "/w" ∧
      unreadableIgnore.files.hasPath (Path.append "/w" Audit.manifest) = false ∧
      |unreadableIgnore.clock| < 2 ^ 53 ∧
      ¬ ∃ map steps, (scan {} "/w" {} unreadableIgnore).1 = .ok (map, steps) := by
  have hroot : unreadableIgnore.files.hasDirectory "/w" := by decide
  have hmanifest : unreadableIgnore.files.hasPath (Path.append "/w" Audit.manifest) = false := by
    decide
  have hclock : |unreadableIgnore.clock| < 2 ^ 53 := by decide
  refine ⟨hroot, hmanifest, hclock, fun hok => ?_⟩
  obtain ⟨hignore, -⟩ := (scan_ok_iff {} {} hroot hmanifest hclock).1.mp hok
  obtain ⟨bytes, text, hread, hdecode, -⟩ := hignore (by decide)
  have hbytes : unreadableIgnore.files.read (Path.append "/w" Workspace.ignoreName) =
    .ok [0xff] := rfl
  obtain rfl : [0xff] = bytes := Except.ok.inj (hbytes.symm.trans hread)
  have hbroken : Text.Utf8.decode? [0xff] = none := by
    rw [Text.Utf8.decode?]
    rfl
  rw [hbroken] at hdecode
  cases hdecode

end Scan

end DebtSurvey
