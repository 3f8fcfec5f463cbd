import DebtSurvey.Proofs.BlameMemory
import DebtSurvey.Proofs.FindingShape
import DebtSurvey.Proofs.OneLine
import DebtSurvey.Proofs.Session

/-!
# Findings with text on one line

What a scan says about its markers, functions and stale files, and whom it names as their authors, is
on one line each. For the authors this rests on the memory of a session: a blame may have been read
long before the scan that uses it. So authors on one line are an invariant of the memory
(`World.HasOneLineAuthors`), from its first blame on.

## Main results

* `Scan.hasOneLineAuthors_session`: the invariant along a session.
* `Scan.isOneLine_of_scan`: the findings of a scan.
-/

namespace DebtSurvey

/-- The blames that are remembered have their authors on one line. -/
def World.HasOneLineAuthors (w : World) : Prop :=
  ∀ entry ∈ w.memory.blames, ∀ row ∈ entry.2, row.author.IsOneLine

/-- What is said about a finding is on one line unless it is a dependency, and so is its author. -/
structure Finding.IsOneLine (f : Finding) : Prop where
  message : f.kind ≠ .dep → f.message.IsOneLine
  author : ∀ author, f.author = some author → author.IsOneLine

variable {w v : World}

/-- With the same blames in memory it is the same authors. -/
theorem World.HasOneLineAuthors.congr (h : w.HasOneLineAuthors)
    (hblames : v.memory.blames = w.memory.blames) : v.HasOneLineAuthors := by
  unfold World.HasOneLineAuthors
  rwa [hblames]

namespace History

variable {file commit : Text} {rows : List BlameRow}

/-- What is remembered of a file has its authors on one line. -/
theorem isOneLine_of_remembered? (h : w.HasOneLineAuthors)
    (hknown : remembered? file commit w = some rows) : ∀ row ∈ rows, row.author.IsOneLine := by
  obtain ⟨entry, hfind, rfl⟩ := Option.map_eq_some_iff.mp hknown
  exact h entry (List.mem_of_find?_eq_some hfind)

/-- The rows that the command for a blame brings have their authors on one line. -/
theorem isOneLine_of_askBlame (h : (askBlame file w).1 = .ok (some rows)) :
    ∀ row ∈ rows, row.author.IsOneLine := by
  unfold askBlame at h
  rcases hask : ask (blameArguments file) w with ⟨cause | output, v⟩ <;> rw [hask] at h
  · cases h
  · simp only at h
    split at h
    · rename_i hparse
      obtain rfl := Option.some.inj (Except.ok.inj h)
      exact Porcelain.isOneLine_author hparse
    · cases h

/-- Remembering rows with authors on one line gives such rows, and keeps the memory so. -/
theorem hasOneLineAuthors_remember (file commit : Text) (h : w.HasOneLineAuthors)
    (hrows : ∀ row ∈ rows, row.author.IsOneLine) :
    (∀ row ∈ (remember file commit rows w).1, row.author.IsOneLine) ∧
      (remember file commit rows w).2.HasOneLineAuthors := by
  unfold remember
  cases hknown : remembered? file commit w with
  | some known => exact ⟨isOneLine_of_remembered? h hknown, h⟩
  | none =>
    refine ⟨hrows, fun entry hentry => ?_⟩
    rcases List.mem_append.mp hentry with hbefore | hnew
    · exact h entry hbefore
    · obtain rfl := List.mem_singleton.mp hnew
      exact hrows

end History

namespace Scan

variable {files : Node} {root : Text}

/-- An answer to the question for a blame that has its authors on one line, if it is a blame. -/
def AnswersOneLine (answer : BlameResult) : Prop :=
  ∀ rows, answer = .ok rows → ∀ row ∈ rows, row.author.IsOneLine

/-- The work on files can rely on remembered authors being on one line. -/
theorem oneLineInvariant (files : Node) :
    WorkInvariant (fun w => w.files = files ∧ w.HasOneLineAuthors) files
      fun _ => AnswersOneLine where
  files_eq hw := hw.1
  note _ hw := hw
  exists_answer _ := ⟨.error .lineNumberTooLong, nofun⟩

/-- Asking for a blame gives rows with authors on one line. -/
theorem ensures_oneLineBlame (files : Node) (root file commit : Text) :
    Job.Ensures (fun w => w.files = files ∧ w.HasOneLineAuthors) AnswersOneLine
      (History.blame root file commit) := by
  refine ensures_blame_of_answers (fun rows => ∀ row ∈ rows, row.author.IsOneLine) ?_ ?_ ?_ ?_ ?_
  · rintro _ ⟨⟩
    exact List.forall_mem_nil _
  · rintro rows w hw hknown _ ⟨⟩
    exact History.isOneLine_of_remembered? hw.2 hknown
  · exact fun w hw => ⟨(History.isRepository_settles root w).2.1.trans hw.1,
      hw.2.congr (History.blames_isRepository root w)⟩
  · refine fun w hw => ⟨fun _ _ => nofun, fun rows => History.isOneLine_of_askBlame, ?_, ?_⟩
    · exact (History.files_askBlame file w).trans hw.1
    · exact hw.2.congr (congrArg (·.blames) (History.askBlame_changes file w).1)
  · intro rows w hrows hw
    obtain ⟨hgiven, hmemory⟩ := History.hasOneLineAuthors_remember file commit hw.2 hrows
    refine ⟨?_, (History.files_remember file commit rows w).trans hw.1, hmemory⟩
    rintro _ ⟨⟩
    exact hgiven

/-! ### What leaves the memory of blames alone -/

/-- Finding the commit of a scan remembers no blame. -/
theorem blames_currentCommit (root : Text) (w : World) :
    (currentCommit root w).2.memory.blames = w.memory.blames := by
  have hrepository := History.blames_isRepository root w
  unfold currentCommit
  split
  · rcases hknown : History.isRepository root w with ⟨_ | _, v⟩ <;> rw [hknown] at hrepository
    · simp only [tellNoHistory]
      split <;> exact hrepository
    · exact (History.blames_currentCommit root v).trans hrepository
  · rfl

/-- An audit remembers no blame. -/
theorem blames_audit (root : Text) (command : List Text) (limits : Audit.Limits) (w : World) :
    (Audit.scan root command limits w).2.memory.blames = w.memory.blames := by
  unfold Audit.scan
  split
  · simp only
    split
    · rfl
    · rfl
    · split <;> rfl
  · rfl

/-- Looking for stale files remembers no blame. -/
theorem blames_inspectAll (root : Text) (staleDays importThreshold : Int) (fanIn : FanIn)
    (clock : Int) (names : List Text) (w : World) :
    (Staleness.inspectAll root staleDays importThreshold fanIn clock names w).2.memory.blames =
      w.memory.blames := by
  induction names generalizing w with
  | nil => rfl
  | cons name rest ih =>
    have hlast := History.blames_lastModified root name w
    rw [Staleness.inspectAll, Staleness.inspect]
    rcases hmodified : History.lastModified root name w with ⟨_ | ⟨commit, moment⟩, v⟩ <;>
      rw [hmodified] at hlast
    · exact (ih v).trans hlast
    · simp only
      rcases (Staleness.age moment clock).map
        (Staleness.finding? staleDays importThreshold fanIn name commit) with e | found
      · exact hlast
      · exact (ih v).trans hlast

/-- The end of a scan remembers no blame. -/
theorem blames_conclude (root : Text) (settings : Settings) (commit : Text) (clock : Int)
    (names : List Text) (inFiles : List Finding) (w : World) :
    (conclude root settings commit clock names inFiles w).2.memory.blames = w.memory.blames := by
  rw [← blames_audit root settings.auditCommand Audit.limits w]
  unfold conclude
  rcases Audit.scan root settings.auditCommand Audit.limits w with ⟨_ | dependencies, v⟩
  · rfl
  · have hstale := blames_inspectAll root settings.staleDays settings.staleImports
      (countImports root names v).1 clock names (countImports root names v).2
    simp only [Staleness.scan]
    rcases hall : Staleness.inspectAll root settings.staleDays settings.staleImports
      (countImports root names v).1 clock names (countImports root names v).2
      with ⟨_ | found, u⟩ <;> rw [hall] at hstale <;> exact hstale

/-! ### Sessions -/

/-- The search of a scan keeps remembered authors on one line. -/
theorem hasOneLineAuthors_search (schedule : Schedule) (root : Text) (settings : Settings)
    (h : w.HasOneLineAuthors) : (search schedule root settings w).2.HasOneLineAuthors := by
  have hblames := blames_currentCommit root w
  rcases hcommit : currentCommit root w with ⟨_ | commit, start⟩ <;> rw [hcommit] at hblames
  · rw [search, hcommit]
    exact h.congr hblames
  · obtain ⟨after, hafter, hsearch⟩ := search_ensures (oneLineInvariant start.files) hcommit
      (fun file => ensures_oneLineBlame start.files root file commit) schedule settings
      ⟨rfl, h.congr hblames⟩
    split at hsearch
    · rw [hsearch]
      exact hafter.2
    · obtain ⟨results, hsearch, -⟩ := hsearch
      rw [hsearch]
      exact hafter.2

/-- A scan keeps remembered authors on one line. -/
theorem hasOneLineAuthors_scan (schedule : Schedule) (root : Text) (settings : Settings)
    (h : w.HasOneLineAuthors) : (scan schedule root settings w).2.HasOneLineAuthors := by
  have hafter := hasOneLineAuthors_search schedule root settings h
  rw [scan_eq_search]
  rcases hsearch : search schedule root settings w with ⟨_ | ⟨commit, names, inFiles⟩, after⟩ <;>
    rw [hsearch] at hafter
  · exact hafter
  · exact hafter.congr (blames_conclude root settings commit w.clock names inFiles after)

/-- A scan of one file keeps remembered authors on one line. -/
theorem hasOneLineAuthors_scanFile (root file : Text) (settings : Settings)
    (h : w.HasOneLineAuthors) : (scanFile root file settings w).2.HasOneLineAuthors := by
  have hblames := blames_currentCommit root w
  rw [scanFile_eq]
  rcases hcommit : currentCommit root w with ⟨_ | commit, start⟩ <;> rw [hcommit] at hblames
  · exact h.congr hblames
  · have hwork := ensures_fileWork (oneLineInvariant start.files)
      (ensures_oneLineBlame start.files root file commit) settings start.clock
    exact (hwork.run ⟨rfl, h.congr hblames⟩).2.2

/-- Whatever happens in a session, remembered authors stay on one line. -/
theorem hasOneLineAuthors_perform (root : Text) (request : Request) (h : w.HasOneLineAuthors) :
    (request.perform root w).2.HasOneLineAuthors := by
  cases request with
  | scan schedule settings => exact hasOneLineAuthors_scan schedule root settings h
  | scanFile file settings => exact hasOneLineAuthors_scanFile root file settings h
  | clear => exact List.forall_mem_nil _
  | refile _ | rescript _ | setClock _ => exact h

/-- Each map that a session gives is that of a scan, with authors on one line in memory. -/
theorem exists_scan_of_session {root : Text} {requests : List Request}
    {result : Except Fault (DebtMap × List Progress)} (h : w.HasOneLineAuthors)
    (hresult : .scanned result ∈ (session root requests w).1) :
    ∃ (v : World) (schedule : Schedule) (settings : Settings),
      v.HasOneLineAuthors ∧ (scan schedule root settings v).1 = result := by
  induction requests generalizing w with
  | nil => cases hresult
  | cons request rest ih =>
    rcases List.mem_cons.mp hresult with hfirst | hlater
    · cases request with
      | scan schedule settings =>
        exact ⟨w, schedule, settings, h, (Outcome.scanned.inj hfirst).symm⟩
      | scanFile _ _ | clear | refile _ | rescript _ | setClock _ => cases hfirst
    · exact ih (hasOneLineAuthors_perform root request h) hlater

/-! ### What a scan finds -/

/-- What is found in a file is said on one line. -/
theorem isOneLine_of_isResult {settings : Settings} {clock : Int} {file : Text} {result : FileResult}
    (h : IsResult files root settings clock (fun _ => AnswersOneLine) file result) :
    ∀ f ∈ found result, f.IsOneLine := by
  intro f hf
  obtain ⟨rows, hanswer, ⟨source, -, hmarker⟩ | hfunction⟩ := mem_of_isResult h hf
  · obtain ⟨hmessage, hauthor⟩ := Marker.isOneLine_of_mem_findings (hanswer rows rfl) hmarker
    exact ⟨fun _ => hmessage, hauthor⟩
  · obtain ⟨function, hmem, -⟩ := Code.mem_complexityFindings.mp hfunction
    obtain ⟨-, source, -, hfunctions⟩ := exists_sourceOf?_of_functionsOf (List.ne_nil_of_mem hmem)
    rw [hfunctions] at hfunction
    obtain ⟨hmessage, hauthor⟩ :=
      Code.isOneLine_of_mem_complexityFindings (hanswer rows rfl) hfunction
    exact ⟨fun _ => hmessage, hauthor⟩

/-- What a scan says about its findings is on one line each, dependencies apart, and so are their
authors. -/
theorem isOneLine_of_scan {schedule : Schedule} {settings : Settings} {map : DebtMap}
    {steps : List Progress} (h : w.HasOneLineAuthors)
    (hscan : (scan schedule root settings w).1 = .ok (map, steps)) :
    ∀ f ∈ map.findings, f.IsOneLine := by
  have hstart {commit : Text} {start : World}
      (hcommit : currentCommit root w = (.ok commit, start)) :
      start.files = w.files ∧ start.HasOneLineAuthors := by
    have hblames := blames_currentCommit root w
    rw [hcommit] at hblames
    exact ⟨(currentCommit_settles hcommit).2.1, h.congr hblames⟩
  obtain ⟨names, event, results, dependencies, stale, -, -, hresults, haudit, hstale, hfindings⟩ :=
    parts_of_scan (oneLineInvariant w.files) hstart (ensures_oneLineBlame w.files root) hscan
  rw [hfindings]
  intro f hf
  rcases List.mem_append.mp hf with hf | hfile
  · rcases List.mem_append.mp hf with hinFile | hdependency
    · exact forall_found hresults (fun _ _ => isOneLine_of_isResult) f hinFile
    · -- a dependency may say anything, but it has no author
      have hshaped : f.IsShaped w.files root names settings.staleDays :=
        Audit.isShaped_of_scan haudit f hdependency
      have hkind := Audit.kind_of_scan haudit f hdependency
      rw [Finding.IsShaped, hkind] at hshaped
      refine ⟨fun hother => absurd hkind hother, fun author hauthor => ?_⟩
      rw [hshaped.2.author] at hauthor
      cases hauthor
  · obtain ⟨file, -, commit, days, hfinding⟩ := Staleness.exists_finding?_of_scan hstale f hfile
    obtain ⟨hmessage, hauthor⟩ := Staleness.isOneLine_of_finding? hfinding
    exact ⟨fun _ => hmessage, hauthor⟩

end Scan

end DebtSurvey
