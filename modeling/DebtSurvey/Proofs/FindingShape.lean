import DebtSurvey.Proofs.FileRun
import DebtSurvey.Proofs.FindingKeys
import DebtSurvey.Proofs.SourceLines
import Mathlib.Algebra.BigOperators.Group.Finset.Basic

/-!
# The shape of findings

Which parts of its place and its history a finding has is decided by its kind. The statistics and the
reports rely on that without a check, and whatever the commands answer, a scan keeps to it: a marker
or a function is on a line of a file of the scan, a package is in the manifest and has no history, and
a stale file has a commit and is old enough.

## Main results

* `Finding.IsShaped`: what a finding of each kind looks like.
* `Scan.shaped_of_scan`: all findings of a scan look like that, and the statistics count each of them
  once by kind and once by severity.
-/

namespace DebtSurvey

/-! ### Shapes -/

/-- A finding on a line of a file of the scan. The lines of a file are those of its source text, and
a newline at the end starts no other line. -/
def Finding.IsOnLine (files : Node) (root : Text) (names : List Text) (f : Finding) : Prop :=
  f.file ∈ names ∧ ∃ source, Scan.sourceOf? files root f.file = some source ∧
    ∃ n : Nat, f.line = some (n : Int) ∧ 1 ≤ n ∧ n ≤ (Workspace.keptLines source).length

/-- What a marker has of a history: an age in any case, and both an author and a commit or neither.
Without them it is brand new, and of low severity. -/
structure Finding.HasMarkerHistory (f : Finding) : Prop where
  age : f.ageInDays.isSome
  lastCommit : f.lastCommit.isSome = f.author.isSome
  unknown : f.author = none → f.ageInDays = some 0 ∧ f.severity = .low

/-- What a function has of a history: author, age and commit, or none of them. -/
structure Finding.HasFunctionHistory (f : Finding) : Prop where
  age : f.ageInDays.isSome = f.author.isSome
  lastCommit : f.lastCommit.isSome = f.author.isSome

/-- A finding without a line and a history. -/
structure Finding.IsBare (f : Finding) : Prop where
  line : f.line = none
  author : f.author = none
  age : f.ageInDays = none
  lastCommit : f.lastCommit = none

/-- The finding of a stale file: it has no line and no author, but the commit that makes it at least
so many days old. -/
structure Finding.IsStaleFile (staleDays : Int) (f : Finding) : Prop where
  line : f.line = none
  author : f.author = none
  lastCommit : f.lastCommit.isSome
  age : ∃ age, f.ageInDays = some age ∧ staleDays ≤ age

/-- What a finding of each kind looks like, in a scan of some files. -/
def Finding.IsShaped (files : Node) (root : Text) (names : List Text) (staleDays : Int)
    (f : Finding) : Prop :=
  match f.kind with
  | .todo => f.IsOnLine files root names ∧ f.HasMarkerHistory
  | .complexity =>
    f.IsOnLine files root names ∧ Imports.hasSourceExtension f.file ∧ f.HasFunctionHistory
  | .dep => f.file = Audit.manifest ∧ f.IsBare
  | .stale => f.file ∈ names ∧ f.IsStaleFile staleDays

variable {files : Node} {root : Text} {names : List Text} {staleDays : Int}

/-! ### Markers and functions -/

/-- Markers are found on the lines of their source. -/
theorem Marker.isShaped_of_mem_findings {words : List Text} {file source : Text}
    {blame : List BlameRow} {clock : Int} {f : Finding} (hfile : file ∈ names)
    (hsource : Scan.sourceOf? files root file = some source)
    (hf : f ∈ findings words file source blame clock) :
    f.IsShaped files root names staleDays := by
  obtain ⟨n, line, hline, hmarked, rfl⟩ := mem_findings.mp hf
  have hn := lt_length_keptLines hline hmarked
  refine ⟨⟨hfile, source, hsource, n + 1, rfl, by omega, by omega⟩, ?_⟩
  unfold finding
  cases Porcelain.rowOf? blame (n + 1 : Nat) with
  | none => exact ⟨rfl, rfl, fun _ => ⟨rfl, rfl⟩⟩
  | some row => exact ⟨rfl, rfl, nofun⟩

/-- Functions are found on the lines of their source. -/
theorem Code.isShaped_of_mem_complexityFindings {bands : Bands Int} {file : Text}
    {blame : List BlameRow} {clock : Int} {f : Finding} (hfile : file ∈ names)
    (hf : f ∈ complexityFindings bands file (Scan.functionsOf files root file) blame clock) :
    f.IsShaped files root names staleDays := by
  obtain ⟨function, hfunction, -, rfl⟩ := mem_complexityFindings.mp hf
  obtain ⟨hextension, source, hsource, hfunctions⟩ :=
    Scan.exists_sourceOf?_of_functionsOf (List.ne_nil_of_mem hfunction)
  rw [hfunctions] at hfunction
  have hstart : 1 ≤ function.line := by
    rw [(head_of_mem hfunction).1]
    omega
  refine ⟨⟨hfile, source, hsource, function.line, rfl, hstart, line_le_of_mem hfunction⟩,
    hextension, ?_⟩
  unfold complexityFinding
  cases Porcelain.rowOf? blame function.line <;> exact ⟨rfl, rfl⟩

/-! ### Packages and stale files -/

/-- The finding of a package is in the manifest. -/
theorem Audit.isShaped_of_item? {package : DocText} {vulnerability : Json} {f : Finding}
    (h : item? package vulnerability = some f) : f.IsShaped files root names staleDays := by
  obtain ⟨name, -, h⟩ := Option.bind_eq_some_iff.mp h
  obtain ⟨title, -, h⟩ := Option.bind_eq_some_iff.mp h
  obtain rfl := Option.some.inj h
  exact ⟨rfl, rfl, rfl, rfl, rfl⟩

/-- What an audit finds is in the manifest. -/
theorem Audit.isShaped_of_scan {directory : Text} {command : List Text} {limits : Limits}
    {w : World} {found : List Finding} (h : (scan directory command limits w).1 = .ok found) :
    ∀ f ∈ found, f.IsShaped files root names staleDays := by
  intro f hf
  obtain ⟨packages, -, hitems⟩ := exists_packages_of_scan h
  have hmem : some f ∈ packages.map fun e => item? e.1 e.2 :=
    hitems ▸ List.mem_map_of_mem hf
  obtain ⟨package, -, hitem⟩ := List.mem_map.mp hmem
  exact isShaped_of_item? hitem

namespace Staleness

variable {importThreshold clock : Int} {fanIn : FanIn}

/-- What is found in the history of a file is its finding at some commit and age. -/
theorem exists_finding?_of_inspect {file : Text} {w : World} {found : Option Finding}
    (h : (inspect root staleDays importThreshold fanIn clock file w).1 = .ok found) :
    ∀ f ∈ found, ∃ commit days,
      finding? staleDays importThreshold fanIn file commit days = some f := by
  unfold inspect at h
  rcases hlast : History.lastModified root file w with ⟨_ | ⟨commit, moment⟩, v⟩ <;> rw [hlast] at h
  · obtain rfl := Except.ok.inj h
    exact nofun
  · simp only at h
    cases hage : age moment clock with
    | error e =>
      rw [hage] at h
      cases h
    | ok days =>
      rw [hage] at h
      obtain rfl := Except.ok.inj h
      exact fun f hf => ⟨commit, days, hf⟩

/-- What is found in the histories of some files are findings of theirs. -/
theorem exists_finding?_of_inspectAll {looked : List Text} {w : World} {found : List Finding}
    (h : (inspectAll root staleDays importThreshold fanIn clock looked w).1 = .ok found) :
    ∀ f ∈ found, ∃ file ∈ looked, ∃ commit days,
      finding? staleDays importThreshold fanIn file commit days = some f := by
  induction looked generalizing w found with
  | nil =>
    obtain rfl := Except.ok.inj h
    exact List.forall_mem_nil _
  | cons file rest ih =>
    rw [inspectAll] at h
    rcases hfirst : inspect root staleDays importThreshold fanIn clock file w with ⟨_ | first, v⟩ <;>
      rw [hfirst] at h
    · cases h
    rcases hrest : inspectAll root staleDays importThreshold fanIn clock rest v
      with ⟨_ | others, u⟩ <;> simp only [hrest] at h
    · cases h
    obtain rfl := Except.ok.inj h
    intro f hf
    rcases List.mem_append.mp hf with hmem | hmem
    · have hfound := exists_finding?_of_inspect (congrArg Prod.fst hfirst) f
        (Option.mem_toList.mp hmem)
      exact ⟨file, List.mem_cons_self, hfound⟩
    · obtain ⟨other, hother, hfound⟩ := ih (congrArg Prod.fst hrest) f hmem
      exact ⟨other, List.mem_cons_of_mem _ hother, hfound⟩

/-- What the search for stale files finds are findings of these files. -/
theorem exists_finding?_of_scan {w : World} {found : List Finding}
    (h : (scan root staleDays importThreshold fanIn clock names w).1 = .ok found) :
    ∀ f ∈ found, ∃ file ∈ names, ∃ commit days,
      finding? staleDays importThreshold fanIn file commit days = some f := by
  unfold scan at h
  rcases hall : inspectAll root staleDays importThreshold fanIn clock names w with ⟨_ | all, v⟩ <;>
    rw [hall] at h
  · cases h
  · obtain rfl := Except.ok.inj h
    exact exists_finding?_of_inspectAll (congrArg Prod.fst hall)

/-- What the search for stale files finds are stale files. -/
theorem isShaped_of_scan {w : World} {found : List Finding}
    (h : (scan root staleDays importThreshold fanIn clock names w).1 = .ok found) :
    ∀ f ∈ found, f.IsShaped files root names staleDays := by
  intro f hf
  obtain ⟨file, hfile, commit, days, hfinding⟩ := exists_finding?_of_scan h f hf
  rw [finding?] at hfinding
  split at hfinding
  · rename_i hold
    obtain rfl := Option.some.inj hfinding
    exact ⟨hfile, rfl, rfl, rfl, days, rfl, hold.1⟩
  · cases hfinding

end Staleness

/-! ### Statistics -/

namespace Stats

/-- Findings that are counted by one of their properties are counted once each, provided that every
value of the property is listed once. -/
theorem sum_countP {α : Type} [DecidableEq α] {values : List α} (hnodup : values.Nodup)
    (hall : ∀ a, a ∈ values) (property : Finding → α) (findings : List Finding) :
    (values.map fun a => findings.countP (property · = a)).sum = findings.length := by
  -- counting findings by a property is counting in the multiset of its values
  have hcount : (fun a => findings.countP (property · = a)) =
      fun a => Multiset.count a (findings.map property : Multiset α) := by
    funext a
    rw [Multiset.coe_count, List.count_eq_countP, List.countP_map]
    rfl
  rw [hcount, ← List.sum_toFinset _ hnodup,
    Multiset.sum_count_eq_card fun a _ => List.mem_toFinset.mpr (hall a), Multiset.coe_card,
    List.length_map]

/-- The statistics count every finding once by its kind and once by its severity. -/
theorem counted_ofFindings (findings : List Finding) (fanIn : FanIn) :
    (ofFindings findings fanIn).total = findings.length ∧
      ((ofFindings findings fanIn).byKind.map (·.2)).sum = findings.length ∧
      ((ofFindings findings fanIn).bySeverity.map (·.2)).sum = findings.length := by
  refine ⟨rfl, ?_, ?_⟩
  · rw [ofFindings, List.map_map]
    exact sum_countP (by decide) Kind.mem_all (·.kind) findings
  · rw [ofFindings, List.map_map]
    exact sum_countP (by decide) Severity.mem_all (·.severity) findings

end Stats

/-! ### Scans -/

namespace Scan

/-- The statistics of a scan are those of its findings. -/
theorem exists_stats_of_scan {schedule : Schedule} {settings : Settings} {w : World}
    {map : DebtMap} {steps : List Progress}
    (h : (scan schedule root settings w).1 = .ok (map, steps)) :
    ∃ fanIn, map.stats = Stats.ofFindings map.findings fanIn := by
  rw [scan_eq_search] at h
  rcases hsearch : search schedule root settings w with ⟨_ | ⟨commit, names, inFiles⟩, after⟩ <;>
    rw [hsearch] at h
  · cases h
  rcases hend : conclude root settings commit w.clock names inFiles after
    with ⟨_ | concluded, last⟩ <;> simp only [hend] at h
  · cases h
  obtain ⟨rfl, -⟩ := Prod.mk.inj (Except.ok.inj h)
  obtain ⟨-, -, -, -, -, hstats⟩ := eq_of_conclude (congrArg Prod.fst hend)
  exact ⟨_, hstats⟩

/-- What is found in a file are markers in its source and functions, with rows that were answered. -/
theorem mem_of_isResult {settings : Settings} {clock : Int} {answered : Text → BlameResult → Prop}
    {file : Text} {result : FileResult} (h : IsResult files root settings clock answered file result)
    {f : Finding} (hf : f ∈ found result) :
    ∃ rows, answered file (.ok rows) ∧
      ((∃ source, sourceOf? files root file = some source ∧
          f ∈ Marker.findings settings.markerWords file source rows clock) ∨
        f ∈ Code.complexityFindings settings.bands file (functionsOf files root file) rows clock) := by
  obtain ⟨marked, complex, hmarked, hcomplex, rfl⟩ := h
  rw [fileResult] at hf
  -- where either search fails, the file counts as having nothing in it
  rcases hmarkers : markerResult settings.markerWords file clock
    (markerSource? files root file settings.markerWords) marked with _ | markers <;>
    rw [hmarkers] at hf
  · cases hf
  rcases hfunctions : functionResult settings.bands file clock (functionsOf files root file) complex
    with _ | functions <;> rw [hfunctions] at hf
  · cases hf
  rcases List.mem_append.mp hf with hmarker | hfunction
  · obtain ⟨source, rows, hsource, rfl, hmem⟩ := mem_findings_of_markerResult hmarkers hmarker
    exact ⟨rows, hmarked, .inl ⟨source, hsource, hmem⟩⟩
  · obtain ⟨rows, rfl, hmem⟩ := mem_complexityFindings_of_functionResult hfunctions hfunction
    exact ⟨rows, hcomplex, .inr hmem⟩

/-- What is found in a file has the shape of a marker or of a function. -/
theorem isShaped_of_isResult {settings : Settings} {clock : Int}
    {answered : Text → BlameResult → Prop} {file : Text} {result : FileResult}
    (hfile : file ∈ names) (h : IsResult files root settings clock answered file result) :
    ∀ f ∈ found result, f.IsShaped files root names staleDays := by
  intro f hf
  obtain ⟨rows, -, ⟨source, hsource, hmarker⟩ | hfunction⟩ := mem_of_isResult h hf
  · exact Marker.isShaped_of_mem_findings hfile hsource hmarker
  · exact Code.isShaped_of_mem_complexityFindings hfile hfunction

/-- What is found in the files of a scan has the shape of a marker or of a function. -/
theorem isShaped_of_results {settings : Settings} {clock : Int} {looked : List Text}
    {answered : Text → BlameResult → Prop} {results : List FileResult}
    (hlooked : ∀ file ∈ looked, file ∈ names)
    (h : List.Forall₂ (IsResult files root settings clock answered) looked results) :
    ∀ f ∈ results.flatMap found, f.IsShaped files root names staleDays := by
  induction h with
  | nil => exact List.forall_mem_nil _
  | cons hfirst _ ih =>
    rw [List.forall_mem_cons] at hlooked
    intro f hf
    rcases List.mem_append.mp hf with hmem | hmem
    · exact isShaped_of_isResult hlooked.1 hfirst f hmem
    · exact ih hlooked.2 f hmem

/-- All findings of a scan have the shape of their kind, whatever the commands answer. The
statistics count each of them once by its kind, and once by its severity. -/
theorem shaped_of_scan {schedule : Schedule} {settings : Settings} {w : World} {map : DebtMap}
    {steps : List Progress} (h : (scan schedule root settings w).1 = .ok (map, steps)) :
    ∃ names event, sourceFiles w.files root settings = .ok (names, event) ∧
      (∀ f ∈ map.findings, f.IsShaped w.files root names settings.staleDays) ∧
      (∀ f ∈ map.findings, f.kind ∈ map.stats.byKind.map (·.1) ∧
        f.severity ∈ map.stats.bySeverity.map (·.1)) ∧
      map.stats.total = map.findings.length ∧
      (map.stats.byKind.map (·.2)).sum = map.findings.length ∧
      (map.stats.bySeverity.map (·.2)).sum = map.findings.length := by
  obtain ⟨names, event, results, dependencies, stale, -, hsource, hresults, haudit, hstale,
    hfindings⟩ := parts_of_scan (filesInvariant w.files)
      (fun hcommit => (currentCommit_settles hcommit).2.1)
      (fun _ _ => ensures_blame_files w.files) h
  obtain ⟨fanIn, hstats⟩ := exists_stats_of_scan h
  refine ⟨names, event, hsource, ?_, ?_, ?_⟩
  · rw [hfindings]
    intro f hf
    -- files, audit and stale files, each with its own lemma
    rcases List.mem_append.mp hf with hf | hfile
    · rcases List.mem_append.mp hf with hinFile | hdependency
      · exact isShaped_of_results (fun _ hfile => hfile) hresults f hinFile
      · exact Audit.isShaped_of_scan haudit f hdependency
    · exact Staleness.isShaped_of_scan hstale f hfile
  · -- the statistics list every kind and every severity, so there is none that they do not know
    intro f _
    rw [hstats, Stats.ofFindings, List.map_map, List.map_map]
    exact ⟨List.mem_map.mpr ⟨f.kind, Kind.mem_all _, rfl⟩,
      List.mem_map.mpr ⟨f.severity, Severity.mem_all _, rfl⟩⟩
  · rw [hstats]
    exact Stats.counted_ofFindings map.findings fanIn

/-- A workspace with an old file that has a marker and a function. -/
def oldFile : World where
  files := .dir [("w", .dir [
    ("a.ts", .file (Text.Utf8.encode "// TODO\nfunction f() \x7b\x7d\n"))])]
  clock := 1700000000000
  host.script := [
    ("git rev-parse --git-dir", [.exited 0 ".git" []]),
    ("git blame --porcelain -- a.ts",
      [.exited 0 (List.replicate 40 'a' ++ " 1 1 1\nauthor Ann\nauthor-time 5\n\t// TODO\n") []]),
    ("git log -1 --format=%H%x09%cI -- a.ts", [.exited 0 "aa\t2020-01-01T00:00:00+00:00" []])]

/-- Settings under which every function and every old file counts. -/
def strictSettings : Settings := { staleImports := 0, bands := ⟨1, 2, 3, 4⟩ }

/-- The marker, the function and the file itself are found, and each has the shape of its kind. -/
theorem shaped_of_scan_old_file :
    ∃ map steps names, (scan {} "/w" strictSettings oldFile).1 = .ok (map, steps) ∧
      map.findings.map (·.kind) = [.todo, .complexity, .stale] ∧
      (∀ f ∈ map.findings, f.IsShaped oldFile.files "/w" names 365) ∧
      (map.stats.byKind.map (·.2)).sum = 3 := by
  have hkinds : (scan {} "/w" strictSettings oldFile).1.toOption.map
      (·.1.findings.map (·.kind)) = some [.todo, .complexity, .stale] := by decide +kernel
  rcases hscan : (scan {} "/w" strictSettings oldFile).1 with _ | ⟨map, steps⟩ <;>
    rw [hscan] at hkinds
  · cases hkinds
  have hmap : map.findings.map (·.kind) = [.todo, .complexity, .stale] :=
    Option.some.inj hkinds
  obtain ⟨names, -, -, hshaped, -, -, hsum, -⟩ := shaped_of_scan hscan
  refine ⟨map, steps, names, rfl, hmap, hshaped, ?_⟩
  rw [hsum, ← List.length_map (f := (·.kind)), hmap]
  rfl

end Scan

end DebtSurvey
