import DebtSurvey.Proofs.ConstantAnswers
import DebtSurvey.Proofs.MarkerWords

/-!
# Tighter settings

Settings are tightened by taking marker words away and by raising thresholds. A scan with tighter
settings finds less and nothing else: it leaves findings out, and it may find a function less severe.
Bands of complexity need not ascend for that, and where no marker word is left, files are not even
searched for markers, so that fewer blames are asked for.

## Main results

* `Code.Bands.severity_antitone`: with higher bands a function is at most as severe.
* `Scan.thins_fileResult`: what is left of the findings of a file.
* `Staleness.sublist_inspectAll`: what is left of the stale files.
* `Scan.scan_tightens`: what is left of the findings of a scan.
-/

namespace DebtSurvey

/-! ### Less findings -/

/-- A finding and what it is under tighter settings: the same, but that a function may be less
severe. -/
structure Finding.IsMilder (f g : Finding) : Prop where
  le : f.severity ≤ g.severity
  eq : f = { g with severity := f.severity }
  eq_of_ne : g.kind ≠ .complexity → f = g

/-- Every finding is at most as severe as itself. -/
theorem Finding.IsMilder.refl (f : Finding) : f.IsMilder f := ⟨Nat.le_refl _, rfl, fun _ => rfl⟩

/-- Findings that are what is left of others: some of them are left out, and the others may be
milder. -/
def Thins (few many : List Finding) : Prop :=
  ∃ kept, kept.Sublist many ∧ List.Forall₂ Finding.IsMilder few kept

namespace Thins

variable {few many few' many' : List Finding}

/-- Nothing is left of any findings, when all are left out. -/
theorem nil (many : List Finding) : Thins [] many := ⟨[], List.nil_sublist many, .nil⟩

/-- When findings are only left out, the others are what is left. -/
theorem of_sublist (h : few.Sublist many) : Thins few many :=
  ⟨few, h, List.forall₂_same.mpr fun f _ => Finding.IsMilder.refl f⟩

theorem append (h : Thins few many) (h' : Thins few' many') :
    Thins (few ++ few') (many ++ many') := by
  obtain ⟨kept, hkept, hmilder⟩ := h
  obtain ⟨kept', hkept', hmilder'⟩ := h'
  exact ⟨kept ++ kept', hkept.append hkept', List.rel_append hmilder hmilder'⟩

/-- What is left of the findings in some files is what is left in each of them. -/
theorem flatMap {α : Type} {items : List α} {found found' : α → List Finding}
    (h : ∀ item ∈ items, Thins (found item) (found' item)) :
    Thins (items.flatMap found) (items.flatMap found') := by
  induction items with
  | nil => exact nil []
  | cons item items ih =>
    rw [List.forall_mem_cons] at h
    rw [List.flatMap_cons, List.flatMap_cons]
    exact h.1.append (ih h.2)

end Thins

/-- Bands of which each starts where the same one of others does, or further up. Neither need
ascend. -/
structure Code.Bands.IsAbove (tight loose : Bands Int) : Prop where
  low : loose.low ≤ tight.low
  medium : loose.medium ≤ tight.medium
  high : loose.high ≤ tight.high
  critical : loose.critical ≤ tight.critical

/-- Settings are tighter than others: marker words are left out, thresholds are raised, and nothing
else is changed. -/
structure Settings.Tightens (tight loose : Settings) : Prop where
  words : tight.markerWords ⊆ loose.markerWords
  staleDays : loose.staleDays ≤ tight.staleDays
  staleImports : loose.staleImports ≤ tight.staleImports
  bands : tight.bands.IsAbove loose.bands
  excludes : tight.excludes = loose.excludes
  fileLimit : tight.fileLimit = loose.fileLimit
  auditCommand : tight.auditCommand = loose.auditCommand

/-! ### Markers -/

/-- With fewer words some findings of markers are left out. -/
theorem Marker.sublist_findings {fewer words : List Text} (hsubset : fewer ⊆ words)
    (hfewer : ¬fewer.all (·.isEmpty)) (file source : Text) (blame : List BlameRow) (clock : Int) :
    (findings fewer file source blame clock).Sublist (findings words file source blame clock) := by
  refine List.Sublist.map _ ?_
  refine List.monotone_filter_right _ fun entry hmarked => ?_
  exact isSome_search_of_subset hsubset hfewer hmarked

/-! ### Functions -/

namespace Code

variable {tight loose : Bands Int}

/-- With higher bands a function is at most as severe, whatever the order of the bands is. -/
theorem Bands.severity_antitone (h : tight.IsAbove loose) (score : Int) :
    tight.severity score ≤ loose.severity score := by
  unfold Bands.severity
  -- the band that the score reaches in the higher bands it reaches in the lower ones, where one
  -- that comes before it may be reached as well
  by_cases hcritical : tight.critical ≤ score
  · rw [if_pos hcritical, if_pos (h.critical.trans hcritical)]
    exact Nat.le_refl _
  rw [if_neg hcritical]
  by_cases hhigh : tight.high ≤ score
  · rw [if_pos hhigh, if_pos (h.high.trans hhigh)]
    split <;> decide
  rw [if_neg hhigh]
  by_cases hmedium : tight.medium ≤ score
  · rw [if_pos hmedium, if_pos (h.medium.trans hmedium)]
    split
    · decide
    · split <;> decide
  · rw [if_neg hmedium]
    exact Nat.zero_le _

variable (file : Text) (blame : List BlameRow) (clock : Int)

/-- With higher bands the finding of a function is at most milder. -/
theorem complexityFinding_isMilder (h : tight.IsAbove loose) (f : Function) (score : Nat) :
    (complexityFinding tight file blame clock f score).IsMilder
      (complexityFinding loose file blame clock f score) where
  le := Bands.severity_antitone h score
  eq := rfl
  eq_of_ne hkind := absurd rfl hkind

/-- With higher bands the finding of a function is left out or milder. -/
theorem thins_complexityFinding? (h : tight.IsAbove loose) (f : Function) :
    Thins (complexityFinding? tight file blame clock f).toList
      (complexityFinding? loose file blame clock f).toList := by
  rw [complexityFinding?]
  split
  · rename_i hlow
    rw [complexityFinding?, if_pos (h.low.trans hlow)]
    exact ⟨_, .refl _, .cons (complexityFinding_isMilder file blame clock h f _) .nil⟩
  · exact .nil _

/-- With higher bands some findings of functions are left out, and others are milder. -/
theorem thins_complexityFindings (h : tight.IsAbove loose) (functions : List Function) :
    Thins (complexityFindings tight file functions blame clock)
      (complexityFindings loose file functions blame clock) := by
  unfold complexityFindings
  rw [List.filterMap_eq_flatMap_toList, List.filterMap_eq_flatMap_toList]
  exact .flatMap fun f _ => thins_complexityFinding? file blame clock h f

end Code

/-! ### Files -/

namespace Scan

variable {tight loose : Settings} (files : Node) (directory : Text) (clock : Int) (file : Text)

/-- Where the blame of a file fails, nothing is found in it: either the blame is asked for, or there
is nothing to ask it for. -/
theorem found_fileResult_error (settings : Settings) (e : Porcelain.Error) :
    found (fileResult files directory settings clock file (.error e) (.error e)) = [] := by
  unfold fileResult markerResult functionResult
  by_cases hnone : functionsOf files directory file = []
  · rw [if_pos hnone]
    cases markerSource? files directory file settings.markerWords <;> rfl
  · rw [if_neg hnone]
    cases markerSource? files directory file settings.markerWords <;> rfl

/-- With fewer words some markers of a file are left out, or it is not searched for any. -/
theorem thins_markers (h : tight.markerWords ⊆ loose.markerWords) (rows : List BlameRow) :
    Thins (((markerSource? files directory file tight.markerWords).map fun source =>
        Marker.findings tight.markerWords file source rows clock).getD [])
      (((markerSource? files directory file loose.markerWords).map fun source =>
        Marker.findings loose.markerWords file source rows clock).getD []) := by
  unfold markerSource?
  split
  · exact .nil _
  · rename_i hfewer
    have hwords : ¬loose.markerWords.all (·.isEmpty) := Marker.not_all_isEmpty_of_subset h hfewer
    rw [if_neg hwords]
    cases sourceOf? files directory file with
    | none => exact .nil []
    | some source => exact .of_sublist (Marker.sublist_findings h hfewer file source rows clock)

/-- With tighter settings some findings of a file are left out, and others are milder. -/
theorem thins_fileResult (h : tight.Tightens loose) (blame : BlameResult) :
    Thins (found (fileResult files directory tight clock file blame blame))
      (found (fileResult files directory loose clock file blame blame)) := by
  cases blame with
  | error e =>
    rw [found_fileResult_error]
    exact .nil _
  | ok rows =>
    rw [fileResult_ok, fileResult_ok]
    exact (thins_markers files directory clock file h.words rows).append
      (Code.thins_complexityFindings file rows clock h.bands (functionsOf files directory file))

end Scan

/-! ### Stale files -/

namespace Staleness

variable {root : Text} {days days' imports imports' : Int} {fanIn : FanIn} {clock : Int}

/-- How many files must import a stale file makes no difference to its severity, as long as enough
do. -/
theorem severity_of_le {age fanIn : Int} (h : imports ≤ fanIn) (h' : imports' ≤ fanIn) :
    severity age fanIn imports = severity age fanIn imports' := by
  unfold severity
  simp only [h, h']

/-- A file that is stale for higher thresholds is so for lower ones, and it is the same finding. -/
theorem finding?_of_le (hdays : days ≤ days') (himports : imports ≤ imports') {file commit : Text}
    {age : Int} {f : Finding} (h : finding? days' imports' fanIn file commit age = some f) :
    finding? days imports fanIn file commit age = some f := by
  rw [finding?] at h ⊢
  split at h
  · rename_i hstale
    have himports' := himports.trans hstale.2
    rw [if_pos ⟨hdays.trans hstale.1, himports'⟩, ← h, severity_of_le himports' hstale.2]
  · cases h

/-- What the history of a file comes to, where it is asked for in a world that recalls the start. -/
def standingInspect (start : World) (root : Text) (days imports : Int) (fanIn : FanIn) (clock : Int)
    (file : Text) : Except NumberError (Option Finding) :=
  match (History.lastModified root file start).1 with
  | none => .ok none
  | some (commit, moment) => (age moment clock).map (finding? days imports fanIn file commit)

/-- With higher thresholds a stale file is the same finding, or left out. -/
theorem sublist_standingInspect {start : World} {file : Text} {found found' : Option Finding}
    (hdays : days ≤ days') (himports : imports ≤ imports')
    (h : standingInspect start root days imports fanIn clock file = .ok found)
    (h' : standingInspect start root days' imports' fanIn clock file = .ok found') :
    found'.toList.Sublist found.toList := by
  unfold standingInspect at h h'
  generalize (History.lastModified root file start).1 = last at h h'
  rcases last with _ | ⟨commit, moment⟩
  · obtain rfl := Except.ok.inj h'
    exact List.nil_sublist _
  simp only at h h'
  generalize age moment clock = old at h h'
  rcases old with e | old
  · cases h
  obtain rfl := Except.ok.inj h
  obtain rfl := Except.ok.inj h'
  rcases hstale : finding? days' imports' fanIn file commit old with _ | f
  · exact List.nil_sublist _
  · rw [finding?_of_le hdays himports hstale]

section Recalls

variable {start w w' : World} (hstart : Scan.Recalls start start)

include hstart

theorem gives_standingInspect (file : Text) :
    Scan.Gives start (standingInspect start root days imports fanIn clock file)
      (inspect root days imports fanIn clock file) := by
  intro w hw
  obtain ⟨v, hlast, hv⟩ := Scan.gives_lastModified start root file hstart w hw
  refine ⟨v, ?_, hv⟩
  rw [inspect, hlast, standingInspect]
  rcases (History.lastModified root file start).1 with _ | ⟨commit, moment⟩ <;> rfl

/-- With higher thresholds some stale files are left out, whatever the worlds are in which the
histories are asked for, provided that they recall the same start. -/
theorem sublist_inspectAll (hw : Scan.Recalls start w) (hw' : Scan.Recalls start w')
    (hdays : days ≤ days') (himports : imports ≤ imports') {files : List Text}
    {found found' : List Finding}
    (h : (inspectAll root days imports fanIn clock files w).1 = .ok found)
    (h' : (inspectAll root days' imports' fanIn clock files w').1 = .ok found') :
    found'.Sublist found := by
  induction files generalizing w w' found found' with
  | nil =>
    obtain rfl := Except.ok.inj h'
    exact List.nil_sublist found
  | cons file rest ih =>
    -- both runs are told the same about the file, and go on in worlds that still recall the start
    obtain ⟨v, hfirst, hv⟩ := gives_standingInspect hstart file w hw
    obtain ⟨v', hfirst', hv'⟩ := gives_standingInspect hstart file w' hw'
    rw [inspectAll, hfirst] at h
    rw [inspectAll, hfirst'] at h'
    rcases hone : standingInspect start root days imports fanIn clock file with _ | first <;>
      rw [hone] at h
    · cases h
    rcases hone' : standingInspect start root days' imports' fanIn clock file with _ | first' <;>
      rw [hone'] at h'
    · cases h'
    rcases hrest : inspectAll root days imports fanIn clock rest v with ⟨_ | others, u⟩ <;>
      simp only [hrest] at h
    · cases h
    rcases hrest' : inspectAll root days' imports' fanIn clock rest v' with ⟨_ | others', u'⟩ <;>
      simp only [hrest'] at h'
    · cases h'
    obtain rfl := Except.ok.inj h
    obtain rfl := Except.ok.inj h'
    exact (sublist_standingInspect hdays himports hone hone').append
      (ih hv hv' (congrArg Prod.fst hrest) (congrArg Prod.fst hrest'))

/-- With higher thresholds the search for stale files leaves some out. -/
theorem sublist_scan (hw : Scan.Recalls start w) (hw' : Scan.Recalls start w')
    (hdays : days ≤ days') (himports : imports ≤ imports') {files : List Text}
    {found found' : List Finding}
    (h : (scan root days imports fanIn clock files w).1 = .ok found)
    (h' : (scan root days' imports' fanIn clock files w').1 = .ok found') :
    found'.Sublist found := by
  unfold scan at h h'
  rcases hall : inspectAll root days imports fanIn clock files w with ⟨_ | all, v⟩ <;>
    rw [hall] at h
  · cases h
  rcases hall' : inspectAll root days' imports' fanIn clock files w' with ⟨_ | all', v'⟩ <;>
    rw [hall'] at h'
  · cases h'
  obtain rfl := Except.ok.inj h
  obtain rfl := Except.ok.inj h'
  exact sublist_inspectAll hstart hw hw' hdays himports (congrArg Prod.fst hall)
    (congrArg Prod.fst hall')

end Recalls

end Staleness

/-! ### Scans -/

namespace Scan

variable {tight loose : Settings} {schedule schedule' : Schedule} {root : Text} {w : World}

/-- Which files a scan looks at does not depend on what is tightened. -/
theorem sourceFiles_of_tightens (h : tight.Tightens loose) (files : Node) (directory : Text) :
    sourceFiles files directory tight = sourceFiles files directory loose := by
  unfold sourceFiles
  rw [h.excludes, h.fileLimit]

/-- The findings of a scan that starts with nothing to remember, when all answers are constant: what
stands in each file, then what the audit finds in the world of the start, and then stale files. -/
theorem standingParts_of_scan {settings : Settings} {map : DebtMap} {steps : List Progress}
    (hstart : Recalls w w) (h : (scan schedule root settings w).1 = .ok (map, steps)) :
    ∃ names event dependencies stale after, Recalls w after ∧
      sourceFiles w.files root settings = .ok (names, event) ∧
      (Audit.scan root settings.auditCommand Audit.limits w).1 = .ok dependencies ∧
      (Staleness.scan root settings.staleDays settings.staleImports
        (Imports.graph w.files root names).1 w.clock names after).1 = .ok stale ∧
      map.findings = (names.flatMap fun file => found (standingResult w root settings file)) ++
        dependencies ++ stale := by
  have hcommit {commit : Text} {after : World} (h : currentCommit root w = (.ok commit, after)) :
      Recalls w after := by
    obtain ⟨result, hgives⟩ := gives_currentCommit w root
    obtain ⟨last, hact, hlast⟩ := hgives w hstart
    obtain ⟨-, rfl⟩ := Prod.mk.inj (h.symm.trans hact)
    exact hlast
  obtain ⟨names, event, results, dependencies, stale, hsearched, hsource, hresults, haudit, hstale,
    hfindings⟩ := parts_of_scan (Recalls.workInvariant w) hcommit
      (fun file commit => ensures_standingBlame w root file commit) h
  obtain rfl := eq_map_standingResult hresults
  obtain ⟨after, hact, hafter⟩ :=
    gives_audit w root settings.auditCommand Audit.limits _ hsearched
  rw [hact] at haudit hstale
  rw [List.flatMap_map] at hfindings
  exact ⟨names, event, dependencies, stale, after, hafter, hsource, haudit, hstale, hfindings⟩

/-- A first scan with tighter settings finds what one with the looser settings does, except that some
findings are left out, and some functions are less severe; provided that the answers to commands are
constant. The schedules of the two scans may differ. -/
theorem scan_tightens {map map' : DebtMap} {steps steps' : List Progress}
    (hmemory : w.memory = {}) (hconstant : w.host.script.IsConstant) (h : tight.Tightens loose)
    (hloose : (scan schedule root loose w).1 = .ok (map, steps))
    (htight : (scan schedule' root tight w).1 = .ok (map', steps')) :
    Thins map'.findings map.findings := by
  have hstart := Recalls.refl hmemory hconstant
  obtain ⟨names, event, dependencies, stale, after, hafter, hsource, haudit, hstale, hfindings⟩ :=
    standingParts_of_scan hstart hloose
  obtain ⟨names', event', dependencies', stale', after', hafter', hsource', haudit', hstale',
    hfindings'⟩ := standingParts_of_scan hstart htight
  -- both look at the same files, and both audits are answered the same
  rw [sourceFiles_of_tightens h, hsource] at hsource'
  obtain ⟨rfl, -⟩ := Prod.mk.inj (Except.ok.inj hsource')
  rw [h.auditCommand, haudit] at haudit'
  obtain rfl := Except.ok.inj haudit'
  rw [hfindings, hfindings']
  refine Thins.append (Thins.append (.flatMap fun file _ => ?_) (.of_sublist (.refl _)))
    (.of_sublist ?_)
  · exact thins_fileResult w.files root w.clock file h _
  · exact Staleness.sublist_scan hstart hafter hafter' h.staleDays h.staleImports hstale hstale'

/-- A workspace with an old file that has two markers and a function. -/
def neglected : World where
  files := .dir [("w", .dir [
    ("a.ts", .file (Text.Utf8.encode "// TODO\n// HACK\nfunction f() \x7b\x7d\n"))])]
  clock := 1700000000000
  host.script := [
    ("git rev-parse --git-dir", [.exited 0 ".git" []]),
    ("git log -1 --format=%H%x09%cI -- a.ts", [.exited 0 "aa\t2020-01-01T00:00:00+00:00" []])]

/-- Settings under which every function is reported as of medium severity, and every old file. -/
def eagerSettings : Settings := { staleImports := 0, bands := ⟨1, 1, 5, 5⟩ }

/-- Settings that look for one word only, and under which the function is of low severity. -/
def lenientSettings : Settings :=
  { staleDays := 3650, bands := ⟨1, 2, 5, 5⟩, markerWords := ["TODO"] }

/-- Of both markers, the function and the file itself, one marker and the function are left, and
the function is less severe. -/
theorem scan_tightens_neglected :
    neglected.memory = {} ∧ neglected.host.script.IsConstant ∧
      lenientSettings.Tightens eagerSettings ∧
      ∃ map steps map' steps', (scan {} "/w" eagerSettings neglected).1 = .ok (map, steps) ∧
        (scan ⟨[0], [0]⟩ "/w" lenientSettings neglected).1 = .ok (map', steps') ∧
        (map.findings.map fun f => (f.kind, f.severity)) =
          [(.todo, .low), (.todo, .low), (.complexity, .medium), (.stale, .high)] ∧
        (map'.findings.map fun f => (f.kind, f.severity)) = [(.todo, .low), (.complexity, .low)] ∧
        Thins map'.findings map.findings := by
  have hconstant : neglected.host.script.IsConstant := Script.isConstant_of_forall (by decide)
  have htightens : lenientSettings.Tightens eagerSettings := by
    refine ⟨?_, by decide, by decide, ⟨by decide, by decide, by decide, by decide⟩, rfl, rfl, rfl⟩
    decide
  have heager : (scan {} "/w" eagerSettings neglected).1.toOption.map
      (·.1.findings.map fun f => (f.kind, f.severity)) =
        some [(.todo, .low), (.todo, .low), (.complexity, .medium), (.stale, .high)] := by
    decide +kernel
  have hlenient : (scan ⟨[0], [0]⟩ "/w" lenientSettings neglected).1.toOption.map
      (·.1.findings.map fun f => (f.kind, f.severity)) =
        some [(.todo, .low), (.complexity, .low)] := by decide +kernel
  rcases hloose : (scan {} "/w" eagerSettings neglected).1 with _ | ⟨map, steps⟩ <;>
    rw [hloose] at heager
  · cases heager
  rcases htight : (scan ⟨[0], [0]⟩ "/w" lenientSettings neglected).1 with _ | ⟨map', steps'⟩ <;>
    rw [htight] at hlenient
  · cases hlenient
  exact ⟨rfl, hconstant, htightens, map, steps, map', steps', rfl, rfl, Option.some.inj heager,
    Option.some.inj hlenient, scan_tightens rfl hconstant htightens hloose htight⟩

end Scan

end DebtSurvey
