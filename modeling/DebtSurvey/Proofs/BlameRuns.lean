import DebtSurvey.Proofs.BlameMemory
import DebtSurvey.Proofs.FileRun
import DebtSurvey.Proofs.Session

/-!
# How often a blame is asked for

The work on a file looks up its blame for the markers and then for the functions. A look-up that runs
the command and gets rows is remembered, so that the next one is free; a command that fails leaves
nothing to remember, and is run again. Nothing else in a scan asks for the blame of the file: the
work on other files has command lines of its own, and so has everything that is not about blame,
except for an audit that is configured to be that command.

## Main results

* `History.blameRuns_blame`, `History.asks_blame`: the runs of one look-up, and those it leaves to do.
* `Scan.blameRuns_fileWork`: the runs of the work on a file.
* `Scan.blameRuns_scan`: the runs of a scan.
-/

namespace DebtSurvey

namespace History

/-- How often the command for the blame of a file was run. -/
def blameRuns (file : Text) (w : World) : Nat := w.host.calls.count (blameLine file)

/-- Whether looking up the blame of a file runs the command: there is a history, and nothing is
remembered. -/
def asks (file commit : Text) (w : World) : Bool :=
  w.memory.repository = some true && (remembered? file commit w).isNone

/-- Whether the command for the blame of a file succeeds. -/
def answers (file : Text) (w : World) : Bool := (ask (blameArguments file) w).1.isOk

/-! ### What asks for something else -/

/-- A command other than blame has another name, and that stands before its arguments. -/
theorem line_ne_blameLine (arguments : List Text) (h : (line arguments)[4]? ≠ some 'b')
    (file : Text) : line arguments ≠ blameLine file := by
  intro hline
  -- place four is behind the name of the program, where that of the subcommand starts
  rw [hline] at h
  exact h rfl

/-- Running another command is no run of that for a blame. -/
theorem blameRuns_ask {file : Text} {arguments : List Text} (h : line arguments ≠ blameLine file)
    (w : World) : blameRuns file (ask arguments w).2 = blameRuns file w := by
  show (w.host.calls ++ [line arguments]).count (blameLine file) = w.host.calls.count _
  rw [List.count_append, List.count_singleton, if_neg (by simpa using h), Nat.add_zero]

/-- Asking whether there is a history is no run. -/
theorem blameRuns_isRepository (file root : Text) (w : World) :
    blameRuns file (isRepository root w).2 = blameRuns file w := by
  have hask := blameRuns_ask (line_ne_blameLine probe (by decide) file) w
  unfold isRepository
  cases w.memory.repository with
  | some known => rfl
  | none =>
    simp only
    rcases hanswer : ask probe w with ⟨_ | output, v⟩ <;> rw [hanswer] at hask <;> exact hask

/-- Asking for the current commit is no run. -/
theorem blameRuns_currentCommit (file root : Text) (w : World) :
    blameRuns file (currentCommit root w).2 = blameRuns file w := by
  have hrepository := blameRuns_isRepository file root w
  unfold currentCommit
  rcases hknown : isRepository root w with ⟨_ | _, v⟩ <;> rw [hknown] at hrepository
  · exact hrepository
  · have hask := blameRuns_ask (line_ne_blameLine currentArguments (by decide) file) v
    simp only
    rcases hanswer : ask currentArguments v with ⟨_ | output, u⟩ <;> rw [hanswer] at hask <;>
      exact hask.trans hrepository

/-- Asking for the last commit of a file is no run. -/
theorem blameRuns_lastModified (file root other : Text) (w : World) :
    blameRuns file (lastModified root other w).2 = blameRuns file w := by
  have hrepository := blameRuns_isRepository file root w
  unfold lastModified
  rcases hknown : isRepository root w with ⟨_ | _, v⟩ <;> rw [hknown] at hrepository
  · exact hrepository
  · have hname : (line (lastArguments other))[4]? ≠ some 'b' := by
      show some 'l' ≠ some 'b'
      decide
    have hask := blameRuns_ask (line_ne_blameLine _ hname file) v
    simp only
    rcases hanswer : ask (lastArguments other) v with ⟨_ | output, u⟩ <;> rw [hanswer] at hask
    · exact hask.trans hrepository
    · simp only
      split
      · exact hask.trans hrepository
      · split <;> exact hask.trans hrepository

/-! ### Looking up a blame -/

section Lookup

variable {file commit : Text} {w : World}

/-- Where the command is not run, nothing changes. -/
theorem run_blame_of_not_asks (root : Text) (hw : w.Settled) (h : asks file commit w = false) :
    ∃ rows, (blame root file commit).run w = (.ok rows, w) := by
  rw [run_blame]
  cases hknown : remembered? file commit w with
  | some rows => exact ⟨rows, rfl⟩
  | none =>
    obtain ⟨known, hrepository⟩ := Option.isSome_iff_exists.mp hw
    obtain rfl : known = false := by simpa [asks, hknown, hrepository] using h
    rw [isRepository_of_known hrepository]
    exact ⟨[], rfl⟩

/-- Where the command is run, its rows are remembered, if it brings any. -/
theorem run_blame_of_asks (root : Text) (h : asks file commit w) :
    (blame root file commit).run w =
      match askBlame file w with
      | (.error e, w) => (.error e, w)
      | (.ok none, w) => (.ok [], w)
      | (.ok (some rows), w) =>
        (.ok rows, { w with memory := { w.memory with
          blames := w.memory.blames ++ [((file, commit), rows)] } }) := by
  simp only [asks, Bool.and_eq_true, decide_eq_true_eq, Option.isNone_iff_eq_none] at h
  rw [run_blame, h.2]
  rcases hask : askBlame file w with ⟨_ | _ | rows, v⟩ <;>
    simp only [isRepository_of_known h.1, hask]

/-- The command brings nothing to remember if and only if it fails. -/
theorem fst_askBlame_eq_none_iff (file : Text) (w : World) :
    (askBlame file w).1 = .ok none ↔ answers file w = false := by
  unfold askBlame answers
  rcases ask (blameArguments file) w with ⟨cause | output, v⟩
  · simp [Except.isOk, Except.toBool]
  · cases hparse : Porcelain.parse output <;> simp [hparse, Except.isOk, Except.toBool]

/-- A look-up runs the command once, unless it need not ask. -/
theorem blameRuns_blame (root : Text) (hw : w.Settled) :
    blameRuns file ((blame root file commit).run w).2 =
      blameRuns file w + if asks file commit w then 1 else 0 := by
  cases hasks : asks file commit w with
  | false =>
    obtain ⟨rows, hrun⟩ := run_blame_of_not_asks root hw hasks
    rw [hrun]
    rfl
  | true =>
    have hcalls := congrArg (List.count (blameLine file)) (askBlame_changes file w).2
    rw [List.count_append, List.count_singleton_self] at hcalls
    rw [run_blame_of_asks root hasks]
    rcases hask : askBlame file w with ⟨_ | _ | rows, v⟩ <;> rw [hask] at hcalls <;> exact hcalls

/-- After a look-up that is answered the next one runs the command if this one did and it failed. -/
theorem asks_blame {root : Text} {rows : List BlameRow} (hw : w.Settled)
    (h : ((blame root file commit).run w).1 = .ok rows) :
    asks file commit ((blame root file commit).run w).2 =
      (asks file commit w && !answers file w) := by
  cases hasks : asks file commit w with
  | false =>
    obtain ⟨rows, hrun⟩ := run_blame_of_not_asks root hw hasks
    rw [hrun]
    exact hasks
  | true =>
    have hmemory := (askBlame_changes file w).1
    have hnone := fst_askBlame_eq_none_iff file w
    rw [run_blame_of_asks root hasks] at h ⊢
    rcases hask : askBlame file w with ⟨_ | _ | rows, v⟩ <;> rw [hask] at h hmemory hnone
    · cases h
    · -- nothing is remembered, so everything is as before
      rw [hnone.mp rfl]
      unfold asks remembered? at hasks ⊢
      rw [hmemory]
      exact hasks
    · have hanswers : answers file w = true := by
        simpa using mt hnone.mpr (by simp)
      simp [asks, remembered?, hanswers]

/-- A look-up that breaks off has run the command, which has succeeded. -/
theorem asks_of_blame_error {root : Text} {e : Porcelain.Error} (hw : w.Settled)
    (h : ((blame root file commit).run w).1 = .error e) :
    asks file commit w ∧ answers file w := by
  cases hasks : asks file commit w with
  | false =>
    obtain ⟨rows, hrun⟩ := run_blame_of_not_asks root hw hasks
    rw [hrun] at h
    cases h
  | true =>
    have hnone := fst_askBlame_eq_none_iff file w
    rw [run_blame_of_asks root hasks] at h
    rcases hask : askBlame file w with ⟨_ | _ | rows, v⟩ <;> rw [hask] at h hnone
    · exact ⟨rfl, by simpa using mt hnone.mpr (by simp)⟩
    · cases h
    · cases h

/-- A look-up settles nothing new, and leaves the files alone. -/
theorem blame_keeps (root file commit : Text) (hw : w.Settled) :
    ((blame root file commit).run w).2.Settled ∧
      ((blame root file commit).run w).2.files = w.files :=
  ⟨(confined_blame root file commit).run_ok hw, ((Scan.ensures_blame_files w.files).run rfl).2⟩

end Lookup

end History

open History (blameRuns asks answers)

namespace Scan

/-! ### The work on files -/

/-- How often the blame of a file is looked up: for its markers if there is a source to search, and
for its functions if there are any. -/
def lookups (root : Text) (settings : Settings) (file : Text) (files : Node) : Nat :=
  (if (markerSource? files root file settings.markerWords).isSome then 1 else 0) +
    if functionsOf files root file = [] then 0 else 1

/-- How often the work on a file runs the command for its blame: for every look-up if the command
fails, and else for the first of them. -/
def fileRuns (root commit : Text) (settings : Settings) (w : World) (file : Text) : Nat :=
  if asks file commit w then
    if answers file w then min 1 (lookups root settings file w.files)
    else lookups root settings file w.files
  else 0

section Work

variable {root file commit : Text} {clock : Int} {w : World}

/-- The search for functions looks up the blame if there are any. -/
theorem blameRuns_functionWork (bands : Code.Bands Int) (hw : w.Settled) :
    blameRuns file ((functionWork root file commit bands clock).run w).2 =
      blameRuns file w +
        if functionsOf w.files root file = [] then 0 else if asks file commit w then 1 else 0 := by
  split
  · rename_i hnone
    obtain ⟨events, hrun⟩ : ∃ events, (functionWork root file commit bands clock).run w =
      (.ok [], { w with events }) := run_functionWork_of_nil hnone
    rw [hrun]
    rfl
  · rename_i hsome
    rw [run_functionWork_of_cons hsome]
    exact History.blameRuns_blame root hw

/-- The work on a file runs the command for its blame that often. -/
theorem blameRuns_fileWork (settings : Settings) (hw : w.Settled) :
    blameRuns file ((fileWork root file commit settings clock).run w).2 =
      blameRuns file w + fileRuns root commit settings w file := by
  rw [run_fileWork, fileRuns, lookups]
  cases hsource : markerSource? w.files root file settings.markerWords with
  | none =>
    obtain ⟨events, hrun⟩ : ∃ events,
      (markerWork root file commit settings.markerWords clock).run w =
        (.ok [], { w with events }) := run_markerWork_of_none hsource
    have hfunctions : blameRuns file
        ((functionWork root file commit settings.bands clock).run { w with events }).2 =
          blameRuns file w +
            if functionsOf w.files root file = [] then 0 else if asks file commit w then 1 else 0 :=
      blameRuns_functionWork settings.bands hw
    rw [hrun]
    simp only
    rw [hfunctions]
    split <;> split <;> simp
  | some source =>
    rw [run_markerWork_of_some hsource]
    have hfirst : blameRuns file ((History.blame root file commit).run w).2 =
      blameRuns file w + if asks file commit w then 1 else 0 := History.blameRuns_blame root hw
    obtain ⟨hsettled, hfiles⟩ := History.blame_keeps root file commit hw
    rcases hblame : (History.blame root file commit).run w with ⟨e | rows, v⟩
    · -- output that cannot be understood ends the work, and functions are not looked for
      obtain ⟨hasks, hanswers⟩ := History.asks_of_blame_error hw (congrArg Prod.fst hblame)
      rw [hblame] at hfirst
      simp only [Except.map]
      rw [hfirst, if_pos hasks, if_pos hasks, if_pos hanswers]
      exact congrArg _ (min_eq_left (Nat.le_add_right 1 _)).symm
    · have hnext := History.asks_blame hw (congrArg Prod.fst hblame)
      rw [hblame] at hfirst hnext hsettled hfiles
      simp only [Except.map]
      rw [blameRuns_functionWork settings.bands hsettled, hfirst, hnext, hfiles]
      -- the second look-up is free if the first was, or if its command has succeeded
      by_cases hnone : functionsOf w.files root file = [] <;>
        cases asks file commit w <;> cases answers file w <;> simp [hnone]

/-- Doing some files one after the other leaves to each what its work leaves of its part. -/
theorem part_afterFiles {settings : Settings} {names : List Text} (hnames : names.Nodup)
    (hw : w.Settled) (hfile : file ∈ names) :
    (afterFiles root commit settings clock names w).part (History.blameLine file) =
      ((fileWork root file commit settings clock).run w).2.part (History.blameLine file) := by
  have hparts := ((confined_fileJobs root commit settings clock names).finish_eq_outcomes
    (nodup_blameLines hnames) hw).2
  simp only [Pool.outcomes, fileJobs, List.zipWith_map, List.zipWith_self, List.map_map] at hparts
  exact List.map_inj_left.mp hparts file hfile

/-- Under every schedule, the command for the blame of a file is run in the pool as often as the
work on this file does on its own. -/
theorem blameRuns_inspectFiles (schedule : Schedule) (settings : Settings) {names : List Text}
    (hnames : names.Nodup) (hw : w.Settled) :
    blameRuns file (inspectFiles schedule root commit settings clock names w).2 =
      blameRuns file w + if file ∈ names then fileRuns root commit settings w file else 0 := by
  have hpool : blameRuns file (inspectFiles schedule root commit settings clock names w).2 =
      blameRuns file (afterFiles root commit settings clock names w) :=
    congrArg Part.asked (agree_inspectFiles schedule hnames hw (History.blameLine file))
  rw [hpool]
  split
  · rename_i hfile
    rw [← blameRuns_fileWork settings hw]
    exact congrArg Part.asked (part_afterFiles hnames hw hfile)
  · rename_i hfile
    -- no work on another file has the part of this one
    have hline : History.blameLine file ∉ names.map History.blameLine :=
      fun h => hfile ((List.mem_map_of_injective History.blameLine_injective).mp h)
    exact congrArg Part.asked
      ((confined_fileJobs root commit settings clock names).view_finish hw hline)

end Work

/-! ### The rest of a scan -/

section Rest

variable {file root : Text} {w : World}

/-- Finding the commit is no run. -/
theorem blameRuns_currentCommit (file root : Text) (w : World) :
    blameRuns file (currentCommit root w).2 = blameRuns file w := by
  have hrepository := History.blameRuns_isRepository file root w
  unfold currentCommit
  split
  · rcases hknown : History.isRepository root w with ⟨_ | _, v⟩ <;> rw [hknown] at hrepository
    · simp only [tellNoHistory]
      split <;> exact hrepository
    · exact (History.blameRuns_currentCommit file root v).trans hrepository
  · rfl

/-- An audit is a run if it is configured to be that command. -/
theorem blameRuns_audit (file root : Text) (command : List Text) (limits : Audit.Limits) (w : World) :
    blameRuns file (Audit.scan root command limits w).2 = blameRuns file w +
      (if w.files.hasPath (Path.append root Audit.manifest) then [Host.key command]
        else []).count (History.blameLine file) := by
  unfold Audit.scan
  split
  · have hrun : blameRuns file { w with host := (w.host.ask (Host.key command)).2 } =
        blameRuns file w + [Host.key command].count (History.blameLine file) := List.count_append
    simp only [Host.runLine_eq]
    split
    · exact hrun
    · exact hrun
    · split <;> exact hrun
  · rfl

/-- Looking for stale files is no run. -/
theorem blameRuns_inspectAll (file root : Text) (daysThreshold importThreshold : Int)
    (fanIn : FanIn) (clock : Int) (names : List Text) (w : World) :
    blameRuns file
        (Staleness.inspectAll root daysThreshold importThreshold fanIn clock names w).2 =
      blameRuns file w := by
  induction names generalizing w with
  | nil => rfl
  | cons name rest ih =>
    have hlast := History.blameRuns_lastModified file root name w
    rw [Staleness.inspectAll, Staleness.inspect]
    rcases hmodified : History.lastModified root name w with ⟨_ | ⟨commit, moment⟩, v⟩ <;>
      rw [hmodified] at hlast
    · exact (ih v).trans hlast
    · simp only
      rcases (Staleness.age moment clock).map
        (Staleness.finding? daysThreshold importThreshold fanIn name commit) with e | found
      · exact hlast
      · exact (ih v).trans hlast

/-- The end of a scan is a run if its audit is. -/
theorem blameRuns_conclude (file root : Text) (settings : Settings) (commit : Text) (clock : Int)
    (names : List Text) (inFiles : List Finding) (w : World) :
    blameRuns file (conclude root settings commit clock names inFiles w).2 = blameRuns file w +
      (if w.files.hasPath (Path.append root Audit.manifest) then [Host.key settings.auditCommand]
        else []).count (History.blameLine file) := by
  rw [← blameRuns_audit file root settings.auditCommand Audit.limits w]
  unfold conclude
  rcases Audit.scan root settings.auditCommand Audit.limits w with ⟨_ | dependencies, v⟩
  · rfl
  · have hstale := blameRuns_inspectAll file root settings.staleDays settings.staleImports
      (countImports root names v).1 clock names (countImports root names v).2
    simp only [Staleness.scan]
    rcases hall : Staleness.inspectAll root settings.staleDays settings.staleImports
      (countImports root names v).1 clock names (countImports root names v).2
      with ⟨_ | found, u⟩ <;> rw [hall] at hstale <;> exact hstale

end Rest

/-- How often a scan runs the command for the blame of a file: as often as the work on it does, if
the scan comes to look at it. -/
def scanRuns (root : Text) (settings : Settings) (w : World) (file : Text) : Nat :=
  match currentCommit root w with
  | (.error _, _) => 0
  | (.ok commit, start) =>
    match sourceFiles w.files root settings with
    | .error _ => 0
    | .ok (names, _) => if names.contains file then fileRuns root commit settings start file else 0

section Runs

variable {root file commit : Text} {settings : Settings} {w v : World}

/-- The work on a file runs the command equally often in worlds that agree. -/
theorem fileRuns_congr (h : w.Agree v) :
    fileRuns root commit settings w file = fileRuns root commit settings v file := by
  have hasks : asks file commit w = asks file commit v := by
    unfold asks
    rw [h.repository, World.remembered?_eq_blame?, World.remembered?_eq_blame?, h]
  have hanswers : answers file w = answers file v :=
    congrArg Except.isOk (History.ask_congr h (History.blameArguments file)).fst_eq
  rw [fileRuns, fileRuns, hasks, hanswers, h.files]

/-- The work on a file runs the command twice at most, and that only when it fails. -/
theorem fileRuns_le_two (root commit : Text) (settings : Settings) (w : World) (file : Text) :
    fileRuns root commit settings w file ≤ 2 ∧
      (fileRuns root commit settings w file = 2 ↔
        asks file commit w ∧ answers file w = false ∧
        (markerSource? w.files root file settings.markerWords).isSome ∧
        functionsOf w.files root file ≠ []) := by
  unfold fileRuns lookups
  by_cases hnone : functionsOf w.files root file = [] <;>
    cases (markerSource? w.files root file settings.markerWords).isSome <;>
    cases asks file commit w <;> cases answers file w <;> simp [hnone]

/-- Choosing the files of a scan is no run. -/
theorem blameRuns_selectFiles (file root : Text) (settings : Settings) (w : World) :
    blameRuns file (selectFiles root settings w).2 = blameRuns file w := by
  unfold selectFiles
  split <;> rfl

/-- Under every schedule a scan runs the command for the blame of a file that often, apart from an
audit that is configured to be the same command. -/
theorem blameRuns_scan_eq (hfiles : w.files.isWellFormed) (schedule : Schedule) (root : Text)
    (settings : Settings) (file : Text) :
    blameRuns file (scan schedule root settings w).2 =
      blameRuns file w + scanRuns root settings w file +
        ((Request.scan schedule settings).audit root w).count (History.blameLine file) := by
  have hstart := blameRuns_currentCommit file root w
  rw [scan_eq, scanRuns, Request.audit]
  by_cases hroot : w.files.hasDirectory root
  · obtain ⟨commit, hok⟩ := currentCommit_ok hroot
    rcases hcommit : currentCommit root w with ⟨_ | commit, start⟩ <;> rw [hcommit] at hok hstart
    · cases hok
    obtain ⟨hsettled, hsame, -⟩ := currentCommit_settles hcommit
    have hselected := blameRuns_selectFiles file root settings start
    simp only
    rcases hselect : selectFiles root settings start with ⟨cause | names, chosen⟩ <;>
      rw [hselect] at hselected
    · have hsource := error_of_selectFiles hselect
      rw [hsame] at hsource
      rw [hsource, if_neg fun hall => by simp [Except.isOk, Except.toBool] at hall]
      exact hselected.trans hstart
    · obtain ⟨⟨event, hsource⟩, hagree⟩ := eq_of_selectFiles hselect
      -- that the scan has started is noted, which no part of the world shows
      have hnoted : (chosen.note (.scanStarted names.length commit)).Agree start := hagree
      have hready : (chosen.note (.scanStarted names.length commit)).Settled := by
        rw [World.Settled, hnoted.repository]
        exact hsettled
      rw [hsame] at hsource
      have hcount : blameRuns file (chosen.note (.scanStarted names.length commit)) =
        blameRuns file w := hselected.trans hstart
      simp only
      rw [blameRuns_conclude, files_inspectFiles schedule hready, hnoted.files, hsame,
        blameRuns_inspectFiles schedule settings (nodup_of_sourceFiles hfiles hsource) hready,
        fileRuns_congr hnoted, hcount, hsource]
      simp [hroot, Except.isOk, Except.toBool]
  · rw [currentCommit_of_missing hroot, if_neg fun hall => hroot hall.1]
    rfl

/-- A scan runs the command for the blame of a file twice: there is a history in which the blame is
not remembered and the command fails, and the file is one of those that the scan looks at, with a
source that is searched for markers and with functions. -/
def IsBlamedTwice (root : Text) (settings : Settings) (w : World) (file : Text) : Prop :=
  ∃ commit start names event, currentCommit root w = (.ok commit, start) ∧
    sourceFiles w.files root settings = .ok (names, event) ∧ file ∈ names ∧
    asks file commit start ∧ answers file start = false ∧
    (markerSource? w.files root file settings.markerWords).isSome ∧
    functionsOf w.files root file ≠ []

/-- Under every schedule a scan runs the command for the blame of a file once at most, except that a
command which fails is run twice when the file has a source that is searched for markers and has
functions too. An audit that is configured to be the same command is counted apart. -/
theorem blameRuns_scan (hfiles : w.files.isWellFormed) (schedule : Schedule) (root : Text)
    (settings : Settings) (file : Text) :
    ∃ runs, blameRuns file (scan schedule root settings w).2 = blameRuns file w + runs +
        ((Request.scan schedule settings).audit root w).count (History.blameLine file) ∧
      runs ≤ 2 ∧ (runs = 2 ↔ IsBlamedTwice root settings w file) := by
  refine ⟨_, blameRuns_scan_eq hfiles schedule root settings file, ?_⟩
  unfold scanRuns IsBlamedTwice
  rcases hcommit : currentCommit root w with ⟨e | commit, start⟩
  · simp
  rcases hsource : sourceFiles w.files root settings with e | ⟨names, event⟩
  · simp
  obtain ⟨hle, htwice⟩ := fileRuns_le_two root commit settings start file
  rw [(currentCommit_settles hcommit).2.1] at htwice
  by_cases hfile : file ∈ names
  · simpa [hfile, and_assoc] using And.intro hle htwice
  · simp [hfile]

end Runs

/-- A workspace with a history and one file that is not in it yet, with a marker and a function. -/
def newFile : World where
  files := .dir [("w", .dir [("a.ts", .file (Text.Utf8.encode "// TODO\nfunction f() \x7b\x7d\n"))])]
  host.script :=
    [("git rev-parse --git-dir", [.exited 0 ".git" []]), ("git rev-parse HEAD", [.exited 0 "c" []])]

/-- The command for the blame of the new file fails, and a scan runs it twice. -/
theorem blameRuns_scan_newFile :
    newFile.files.isWellFormed ∧ blameRuns "a.ts" newFile = 0 ∧
      IsBlamedTwice "/w" {} newFile "a.ts" ∧
      blameRuns "a.ts" (scan {} "/w" {} newFile).2 = 2 := by
  have hfiles : newFile.files.isWellFormed := by decide +kernel
  have hnone : blameRuns "a.ts" newFile = 0 := rfl
  have haudit : (Request.scan {} {}).audit "/w" newFile = [] := by decide +kernel
  have htwice : IsBlamedTwice "/w" {} newFile "a.ts" :=
    ⟨"c", (currentCommit "/w" newFile).2, ["a.ts"], none, Prod.ext (by decide +kernel) rfl,
      by decide +kernel, by decide, by decide +kernel, by decide +kernel, by decide +kernel,
      by decide +kernel⟩
  obtain ⟨runs, hruns, -, hiff⟩ := blameRuns_scan hfiles {} "/w" {} "a.ts"
  obtain rfl := hiff.mpr htwice
  rw [hnone, haudit] at hruns
  exact ⟨hfiles, hnone, htwice, hruns⟩

end Scan

end DebtSurvey
