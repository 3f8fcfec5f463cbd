import DebtSurvey.Proofs.BlameMemory
import DebtSurvey.Proofs.Elsewhere
import DebtSurvey.Proofs.FindingKinds
import DebtSurvey.Proofs.FunctionBody
import DebtSurvey.Proofs.Nearest
import DebtSurvey.Proofs.StaleAge

/-!
# Ageing never downgrades

The clock decides how old things are, and nothing else: whatever is asked of files, history and the
outside world is asked at any time, and is answered the same (`Timeless`). So a scan at a later time
has the same markers, functions and dependencies, each at least as old and as severe; and a file
that was stale is stale still.

## Main results

* `Marker.severity_mono` and `Staleness.severity_mono`: what is older is at least as severe.
* `Scan.fileFindings_ages`: what is found in a file, at two times.
* `Staleness.scan_grows`: stale files, at two times.
* `Scan.scan_ages`: a scan at a later time.
-/

namespace DebtSurvey

/-! ### Findings at two times -/

/-- A finding that another one is a later look at, as far as that is worse. -/
structure Finding.Grows (f g : Finding) : Prop where
  kind : f.kind = g.kind
  file : f.file = g.file
  older : Option.Rel (· ≤ ·) f.ageInDays g.ageInDays
  worse : f.severity ≤ g.severity

/-- A finding and the same one later: it has only grown older, and worse for that. -/
structure Finding.Ages (f g : Finding) : Prop extends Finding.Matches f g, Finding.Grows f g where
  author : f.author = g.author
  lastCommit : f.lastCommit = g.lastCommit

theorem Finding.Ages.refl (f : Finding) : f.Ages f where
  toMatches := Finding.Matches.refl f
  older := by
    cases f.ageInDays with
    | none => exact .none
    | some age => exact .some le_rfl
  worse := Nat.le_refl _
  author := rfl
  lastCommit := rfl

theorem Finding.Ages.exists_of_mem {findings findings' : List Finding}
    (h : List.Forall₂ Finding.Ages findings findings') :
    ∀ f ∈ findings, ∃ g ∈ findings', f.Ages g := by
  induction h with
  | nil => exact nofun
  | cons hfirst _ ih =>
    refine List.forall_mem_cons.mpr ⟨⟨_, List.mem_cons_self, hfirst⟩, fun f hf => ?_⟩
    obtain ⟨g, hg, hfg⟩ := ih f hf
    exact ⟨g, List.mem_cons_of_mem _ hg, hfg⟩

/-- A moment gets older. -/
theorem Age.days_mono (moment : Int) {clock clock' : Int} (h : clock ≤ clock') :
    Age.days moment clock ≤ Age.days moment clock' := by
  unfold Age.days
  have hday : (0 : Int) ≤ (Age.millisPerDay : Nat) := Int.natCast_nonneg _
  rw [Int.fdiv_eq_ediv_of_nonneg _ hday, Int.fdiv_eq_ediv_of_nonneg _ hday]
  exact Int.ediv_le_ediv (by decide) (by omega)

/-- Older markers are at least as severe. -/
theorem Marker.severity_mono {age age' : Int} (h : age ≤ age') :
    Marker.severity age ≤ Marker.severity age' := by
  unfold Marker.severity
  -- a bound that the younger one is beyond is behind the older one too
  split_ifs <;> first | decide | omega

/-- Older files are at least as severe, however many others import them. -/
theorem Staleness.severity_mono {age age' fanIn importThreshold : Int} (h : age ≤ age') :
    Staleness.severity age fanIn importThreshold ≤
      Staleness.severity age' fanIn importThreshold := by
  unfold Staleness.severity
  split_ifs <;> first | decide | omega

section Findings

variable {clock clock' : Int} (h : clock ≤ clock')

include h

/-- Markers with the same blame, at two times. -/
theorem Marker.findings_ages (words : List Text) (file source : Text) (blame : List BlameRow) :
    List.Forall₂ Finding.Ages (Marker.findings words file source blame clock)
      (Marker.findings words file source blame clock') := by
  refine List.forall₂_map_left_iff.mpr (List.forall₂_map_right_iff.mpr ?_)
  refine List.forall₂_same.mpr fun ⟨number, line⟩ _ => ?_
  -- a marker without blame is brand new at both times
  have hage : ((Porcelain.rowOf? blame number).map fun r => Age.days r.timestamp clock).getD 0 ≤
      ((Porcelain.rowOf? blame number).map fun r => Age.days r.timestamp clock').getD 0 := by
    cases Porcelain.rowOf? blame number with
    | none => exact le_rfl
    | some row => exact Age.days_mono row.timestamp h
  exact {
    id := rfl
    kind := rfl
    file := rfl
    line := rfl
    message := rfl
    severity := by rintro (hkind | hkind) <;> cases hkind
    older := .some hage
    worse := Marker.severity_mono hage
    author := rfl
    lastCommit := rfl }

/-- Functions with the same blame, at two times. -/
theorem Code.complexityFindings_ages (bands : Code.Bands Int) (file : Text)
    (functions : List Code.Function) (blame : List BlameRow) :
    List.Forall₂ Finding.Ages (Code.complexityFindings bands file functions blame clock)
      (Code.complexityFindings bands file functions blame clock') := by
  refine List.rel_filterMap ?_ (List.forall₂_same.mpr fun f _ => rfl)
  rintro f _ rfl
  simp only [Code.complexityFinding?]
  split
  · -- whether it is a finding, and how severe, depends on the code alone
    refine .some {
      id := rfl
      kind := rfl
      file := rfl
      line := rfl
      message := rfl
      severity := fun _ => rfl
      older := ?_
      worse := Nat.le_refl _
      author := rfl
      lastCommit := rfl }
    show Option.Rel _ ((Porcelain.rowOf? blame f.line).map _)
      ((Porcelain.rowOf? blame f.line).map _)
    cases Porcelain.rowOf? blame f.line with
    | none => exact .none
    | some row => exact .some (Age.days_mono row.timestamp h)
  · exact .none

end Findings

/-! ### What does not depend on the time -/

/-- A world at another time. -/
def World.atTime (w : World) (clock : Int) : World := { w with clock }

section AtTime

variable (w : World) (clock : Int)

@[simp] theorem World.files_atTime : (w.atTime clock).files = w.files := rfl

@[simp] theorem World.clock_atTime : (w.atTime clock).clock = clock := rfl

end AtTime

/-- An action that does the same at any time. -/
def Timeless {α : Type} (act : World → α × World) : Prop :=
  ∀ w clock, act (w.atTime clock) = ((act w).1, (act w).2.atTime clock)

/-- What can be done elsewhere can be done at another time, with the files that are there. -/
theorem Portable.timeless {α : Type} {act : World → α × World} (h : Portable act) :
    Timeless act := by
  intro w clock
  have hact := h w w.files clock (.refl _)
  have hfiles : (act w).2.elsewhere w.files clock = (act w).2.atTime clock := by
    rw [← h.files w]
    rfl
  rwa [hfiles] at hact

/-- Jobs that take the same steps at any time, and end with results that are related. -/
def Job.Keeps {α β : Type} (rel : α → β → Prop) (job : Job World α) (job' : Job World β) : Prop :=
  ∀ w clock, rel (job.run w).1 (job'.run (w.atTime clock)).1 ∧
    (job'.run (w.atTime clock)).2 = (job.run w).2.atTime clock

namespace Job.Keeps

variable {α β γ δ : Type} {rel : α → β → Prop} {job : Job World α} {job' : Job World β}

theorem done {a : α} {b : β} (h : rel a b) : Keeps rel (.done a) (.done b) := by
  intro w clock
  exact ⟨h, rfl⟩

theorem of_portable {job : Job World α} (h : Portable job.run) : Keeps (· = ·) job job := by
  intro w clock
  rw [h.timeless w clock]
  exact ⟨rfl, rfl⟩

theorem andThen {rel' : γ → δ → Prop} {next : α → Job World γ} {next' : β → Job World δ}
    (first : Keeps rel job job') (second : ∀ a b, rel a b → Keeps rel' (next a) (next' b)) :
    Keeps rel' (job.andThen next) (job'.andThen next') := by
  intro w clock
  obtain ⟨hrel, hworld⟩ := first w clock
  rw [Job.run_andThen, Job.run_andThen, hworld]
  exact second _ _ hrel (job.run w).2 clock

/-- Jobs that are done one after the other. -/
theorem finish {jobs : List (Job World α)} {jobs' : List (Job World β)}
    (h : List.Forall₂ (Keeps rel) jobs jobs') (w : World) (clock : Int) :
    (Pool.finish jobs' (w.atTime clock)).2 = (Pool.finish jobs w).2.atTime clock := by
  induction h generalizing w with
  | nil => rfl
  | @cons job job' rest rest' hjob _ ih =>
    show (Pool.finish rest' (job'.run (w.atTime clock)).2).2 =
      (Pool.finish rest (job.run w).2).2.atTime clock
    rw [(hjob w clock).2]
    exact ih _

end Job.Keeps

/-! ### What is found in files -/

namespace Scan

theorem timeless_currentCommit (root : Text) : Timeless (currentCommit root) :=
  (portable_currentCommit root).timeless

section Work

variable {clock clock' : Int} (h : clock ≤ clock')

include h

/-- The search for markers, at two times. -/
theorem keeps_markerWork (root file commit : Text) (words : List Text) :
    Job.Keeps (SameOutcome (List.Forall₂ Finding.Ages))
      (markerWork root file commit words clock) (markerWork root file commit words clock') := by
  unfold markerWork
  split
  · exact .done .nil
  · refine (Job.Keeps.of_portable (Portable.single (portable_readSource root file _))).andThen ?_
    rintro source _ rfl
    rcases source with _ | source
    · exact .done .nil
    · refine (Job.Keeps.of_portable (History.portable_blame root file commit)).andThen ?_
      rintro blame _ rfl
      rcases blame with e | rows
      · exact .done rfl
      · exact .done (Marker.findings_ages h words file source rows)

/-- The search for functions, at two times. -/
theorem keeps_functionWork (root file commit : Text) (bands : Code.Bands Int) :
    Job.Keeps (SameOutcome (List.Forall₂ Finding.Ages))
      (functionWork root file commit bands clock) (functionWork root file commit bands clock') := by
  unfold functionWork
  split
  · refine (Job.Keeps.of_portable (Portable.single (portable_readSource root file _))).andThen ?_
    rintro source _ rfl
    -- without a function, or without a source, no blame is asked for
    rcases source.map Code.functions with _ | _ | ⟨f, functions⟩
    · exact .done .nil
    · exact .done .nil
    · refine (Job.Keeps.of_portable (History.portable_blame root file commit)).andThen ?_
      rintro blame _ rfl
      rcases blame with e | rows
      · exact .done rfl
      · exact .done (Code.complexityFindings_ages h bands file (f :: functions) rows)
  · exact .done .nil

/-- The work on a file, at two times. -/
theorem keeps_fileWork (root file commit : Text) (settings : Settings) :
    Job.Keeps (SameOutcome (List.Forall₂ Finding.Ages))
      (fileWork root file commit settings clock) (fileWork root file commit settings clock') := by
  refine (keeps_markerWork h root file commit settings.markerWords).andThen ?_
  -- where the search for markers fails, there is none for functions
  rintro (e | marked) (e' | marked') hmarked
  · exact .done hmarked
  · cases hmarked
  · cases hmarked
  refine (keeps_functionWork h root file commit settings.bands).andThen ?_
  intro complex complex' hcomplex
  exact .done (hcomplex.map _ _ fun _ _ hsame => List.rel_append hmarked hsame)

/-- What is found in a file, at two times. -/
theorem fileFindings_ages (root commit : Text) (settings : Settings) (w : World) (t : Int)
    (file : Text) :
    List.Forall₂ Finding.Ages (fileFindings root commit settings clock w file)
      (fileFindings root commit settings clock' (w.atTime t) file) := by
  rw [← found_run_fileWork, ← found_run_fileWork]
  have hrun := (keeps_fileWork h root file commit settings w t).1
  generalize ((fileWork root file commit settings clock).run w).1 = result,
    ((fileWork root file commit settings clock').run (w.atTime t)).1 = result' at hrun ⊢
  rcases result with e | findings <;> rcases result' with e' | findings'
  · exact .nil
  · cases hrun
  · cases hrun
  · exact hrun

/-- Doing files one after the other, at two times. -/
theorem afterFiles_atTime (root commit : Text) (settings : Settings) (files : List Text) (w : World)
    (t : Int) :
    afterFiles root commit settings clock' files (w.atTime t) =
      (afterFiles root commit settings clock files w).atTime t := by
  have hjobs : List.Forall₂ (Job.Keeps (SameOutcome (List.Forall₂ Finding.Ages)))
      (fileJobs root commit settings clock files) (fileJobs root commit settings clock' files) :=
    List.forall₂_map_left_iff.mpr (List.forall₂_map_right_iff.mpr
      (List.forall₂_same.mpr fun file _ => keeps_fileWork h root file commit settings))
  exact Job.Keeps.finish hjobs w t

end Work

end Scan

/-! ### Stale files -/

namespace Staleness

section Stale

variable {clock clock' : Int} (hclock : |clock| < 2 ^ 53) (hclock' : |clock'| < 2 ^ 53)
  (h : clock ≤ clock') (root : Text) (daysThreshold importThreshold : Int) (fanIn : FanIn)

/-- A file that is stale is stale later. -/
theorem finding?_grows (file commit : Text) {days days' : Int} (h : days ≤ days') :
    ∀ f ∈ finding? daysThreshold importThreshold fanIn file commit days,
      ∃ g ∈ finding? daysThreshold importThreshold fanIn file commit days', f.Grows g := by
  intro f hf
  simp only [finding?] at hf ⊢
  split at hf
  · rename_i hstale
    -- the threshold was passed before, and no fewer files import it
    rw [if_pos ⟨hstale.1.trans h, hstale.2⟩]
    obtain rfl := Option.some.inj hf
    exact ⟨_, rfl, rfl, rfl, .some h, severity_mono h⟩
  · cases hf

include hclock hclock' h

/-- A moment of the calendar gets older. -/
theorem age_mono {moment : Calendar.Moment} (hmoment : moment.isValid) :
    ∃ days days', age moment clock = .ok days ∧ age moment clock' = .ok days' ∧ days ≤ days' := by
  obtain ⟨q, hq, hbound⟩ := within_millis hmoment
  exact Age.between_mono hq hbound hclock hclock' h

/-- Looking at the history of a file, at two times. -/
theorem inspect_grows (file : Text) (w : World) (t : Int) :
    ∃ found found' v,
      inspect root daysThreshold importThreshold fanIn clock file w = (.ok found, v) ∧
      inspect root daysThreshold importThreshold fanIn clock' file (w.atTime t) =
        (.ok found', v.atTime t) ∧
      ∀ f ∈ found, ∃ g ∈ found', f.Grows g := by
  unfold inspect
  rw [(History.portable_lastModified root file).timeless w t]
  rcases hlast : History.lastModified root file w with ⟨_ | ⟨commit, moment⟩, v⟩
  · exact ⟨none, none, v, rfl, rfl, nofun⟩
  · obtain ⟨days, days', hdays, hdays', hmono⟩ :=
      age_mono hclock hclock' h (History.isValid_of_lastModified hlast)
    simp only [hdays, hdays']
    exact ⟨_, _, v, rfl, rfl, finding?_grows daysThreshold importThreshold fanIn file commit hmono⟩

/-- Looking at the history of files, at two times. -/
theorem inspectAll_grows (files : List Text) (w : World) (t : Int) :
    ∃ found found' v,
      inspectAll root daysThreshold importThreshold fanIn clock files w = (.ok found, v) ∧
      inspectAll root daysThreshold importThreshold fanIn clock' files (w.atTime t) =
        (.ok found', v.atTime t) ∧
      ∀ f ∈ found, ∃ g ∈ found', f.Grows g := by
  -- from file to file, the two worlds go on differing by the clock alone
  induction files generalizing w with
  | nil => exact ⟨[], [], w, rfl, rfl, nofun⟩
  | cons file rest ih =>
    obtain ⟨found, found', v, hfile, hfile', hfirst⟩ :=
      inspect_grows hclock hclock' h root daysThreshold importThreshold fanIn file w t
    obtain ⟨others, others', u, hrest, hrest', hothers⟩ := ih v
    refine ⟨found.toList ++ others, found'.toList ++ others', u, ?_, ?_, ?_⟩
    · simp only [inspectAll, hfile, hrest]
      rfl
    · simp only [inspectAll, hfile', hrest']
      rfl
    · intro f hf
      rcases List.mem_append.mp hf with hf | hf
      · obtain ⟨g, hg, hgrows⟩ := hfirst f (Option.mem_toList.mp hf)
        exact ⟨g, List.mem_append_left _ (Option.mem_toList.mpr hg), hgrows⟩
      · obtain ⟨g, hg, hgrows⟩ := hothers f hf
        exact ⟨g, List.mem_append_right _ hg, hgrows⟩

/-- The search for stale files, at two times: what was stale is stale. -/
theorem scan_grows (files : List Text) (w : World) (t : Int) :
    ∃ found found',
      (scan root daysThreshold importThreshold fanIn clock files w).1 = .ok found ∧
      (scan root daysThreshold importThreshold fanIn clock' files (w.atTime t)).1 = .ok found' ∧
      ∀ f ∈ found, ∃ g ∈ found', f.Grows g := by
  obtain ⟨found, found', v, hfound, hfound', hgrows⟩ :=
    inspectAll_grows hclock hclock' h root daysThreshold importThreshold fanIn files w t
  refine ⟨found, found', ?_, ?_, hgrows⟩
  · rw [scan, hfound]
  · rw [scan, hfound']

end Stale

end Staleness

/-! ### Scans -/

/-- A map and one of the same workspace later: what is found in it has aged, and what was stale is
stale. -/
structure DebtMap.Ages (m n : DebtMap) : Prop where
  commit : m.commit = n.commit
  found : List.Forall₂ Finding.Ages (m.findings.filter (·.kind ≠ .stale))
    (n.findings.filter (·.kind ≠ .stale))
  stale : ∀ f ∈ m.findings, f.kind = .stale → ∃ g ∈ n.findings, f.Grows g

/-- What is found and what is stale make up a map, at two times. -/
theorem DebtMap.ages_of_parts {m n : DebtMap} {found found' stale stale' : List Finding}
    (hcommit : m.commit = n.commit) (hm : m.findings = found ++ stale)
    (hn : n.findings = found' ++ stale') (hfound : List.Forall₂ Finding.Ages found found')
    (hstale : ∀ f ∈ stale, f.kind = .stale) (hstale' : ∀ f ∈ stale', f.kind = .stale)
    (hgrows : ∀ f ∈ stale, ∃ g ∈ stale', f.Grows g) : m.Ages n where
  commit := hcommit
  found := by
    have hdrop {fs : List Finding} (hfs : ∀ f ∈ fs, f.kind = .stale) :
        fs.filter (·.kind ≠ .stale) = [] :=
      List.filter_eq_nil_iff.mpr fun f hf => by simp [hfs f hf]
    rw [hm, hn, List.filter_append, List.filter_append, hdrop hstale, hdrop hstale',
      List.append_nil, List.append_nil]
    -- what is left are the findings that match, and matching ones are of one kind
    refine List.rel_filter (fun f g hfg => ?_) hfound
    show decide (f.kind ≠ .stale) = true ↔ decide (g.kind ≠ .stale) = true
    rw [hfg.toMatches.kind]
  stale := by
    intro f hf _
    rw [hm] at hf
    rw [hn]
    rcases List.mem_append.mp hf with hf | hf
    · obtain ⟨g, hg, hfg⟩ := Finding.Ages.exists_of_mem hfound f hf
      exact ⟨g, List.mem_append_left _ hg, hfg.toGrows⟩
    · obtain ⟨g, hg, hfg⟩ := hgrows f hf
      exact ⟨g, List.mem_append_right _ hg, hfg⟩

namespace Scan

/-- The end of a scan, at two times. -/
theorem conclude_ages {clock clock' : Int} (hclock : |clock| < 2 ^ 53) (hclock' : |clock'| < 2 ^ 53)
    (h : clock ≤ clock') (root : Text) (settings : Settings) (commit : Text) (files : List Text)
    {inFiles inFiles' : List Finding} (hin : List.Forall₂ Finding.Ages inFiles inFiles') (w : World)
    (t : Int) :
    SameOutcome DebtMap.Ages (conclude root settings commit clock files inFiles w).1
      (conclude root settings commit clock' files inFiles' (w.atTime t)).1 := by
  unfold conclude
  rw [(Audit.portable_scan root settings.auditCommand Audit.limits).timeless w t]
  rcases Audit.scan root settings.auditCommand Audit.limits w with ⟨e | dependencies, v⟩
  · rfl
  -- imports are counted in the same files
  have hcount : countImports root files (v.atTime t) =
      ((countImports root files v).1, (countImports root files v).2.atTime t) := rfl
  simp only [hcount]
  obtain ⟨stale, stale', hstale, hstale', hgrows⟩ := Staleness.scan_grows hclock hclock' h root
    settings.staleDays settings.staleImports (countImports root files v).1 files
    (countImports root files v).2 t
  have hkind := Staleness.kind_of_scan hstale
  have hkind' := Staleness.kind_of_scan hstale'
  rcases hscan : Staleness.scan root settings.staleDays settings.staleImports
    (countImports root files v).1 clock files (countImports root files v).2 with ⟨result, u⟩
  rcases hscan' : Staleness.scan root settings.staleDays settings.staleImports
    (countImports root files v).1 clock' files ((countImports root files v).2.atTime t)
    with ⟨result', u'⟩
  rw [hscan] at hstale
  rw [hscan'] at hstale'
  obtain rfl : result = .ok stale := hstale
  obtain rfl : result' = .ok stale' := hstale'
  -- dependencies have no age, and stay what they are
  have hfound : List.Forall₂ Finding.Ages (inFiles ++ dependencies) (inFiles' ++ dependencies) :=
    List.rel_append hin (List.forall₂_same.mpr fun f _ => Finding.Ages.refl f)
  exact DebtMap.ages_of_parts rfl rfl rfl hfound hkind hkind' hgrows

/-- Scans of one workspace at two times, whatever their schedules: they fail for the same reason, or
the later one has the same markers, functions and dependencies in the same order, each at least as
old and as severe, and functions and dependencies exactly as severe; and a file that was stale is
stale, and at least as old and as severe. -/
theorem scan_ages (schedule schedule' : Schedule) (root : Text) (settings : Settings) {w : World}
    {t : Int} (hfiles : w.files.isWellFormed) (hclock : |w.clock| < 2 ^ 53) (ht : |t| < 2 ^ 53)
    (h : w.clock ≤ t) :
    SameOutcome DebtMap.Ages ((scan schedule root settings w).1.map (·.1))
      ((scan schedule' root settings { w with clock := t }).1.map (·.1)) := by
  rw [fst_scan_eq schedule root settings hfiles]
  show SameOutcome _ _ ((scan schedule' root settings (w.atTime t)).1.map (·.1))
  rw [fst_scan_eq schedule' root settings (show (w.atTime t).files.isWellFormed from hfiles),
    timeless_currentCommit root w t]
  -- the commit and the files are the same at both times, and so is failing to have them
  rcases currentCommit root w with ⟨e | commit, start⟩
  · rfl
  simp only [World.files_atTime, World.clock_atTime]
  rcases sourceFiles w.files root settings with cause | ⟨files, event⟩
  · rfl
  have hin : List.Forall₂ Finding.Ages
      (files.flatMap (fileFindings root commit settings w.clock start))
      (files.flatMap (fileFindings root commit settings t (start.atTime t))) :=
    List.rel_flatMap (List.forall₂_same.mpr fun _ _ => rfl)
      fun file _ hsame => hsame ▸ fileFindings_ages h root commit settings start t file
  have hend := conclude_ages hclock ht h root settings commit files hin
    (afterFiles root commit settings w.clock files start) t
  rw [← afterFiles_atTime h] at hend
  -- the reports of progress are not compared
  have hreported : SameOutcome (fun p q : DebtMap × List Progress => p.1.Ages q.1) (Except.map _ _)
      (Except.map _ _) :=
    hend.map (fun m => (m, progress schedule files)) (fun n => (n, progress schedule' files))
      fun _ _ hmn => hmn
  exact hreported.map (·.1) (·.1) fun _ _ hmn => hmn

/-- A workspace whose only marker is forty days old. -/
def recent : World where
  files := .dir [("w", .dir [("a.py", .file (Text.Utf8.encode "# TODO\n"))])]
  clock := 3456000000
  host.script := [
    ("git rev-parse --git-dir", [.exited 0 ".git" []]),
    ("git blame --porcelain -- a.py",
      [.exited 0 (List.replicate 40 'a' ++ " 1 1 1\nauthor Ann\nauthor-time 0\n\t# TODO\n") []])]

/-- A year later the marker is critical. -/
theorem scan_ages_recent :
    recent.files.isWellFormed ∧ |recent.clock| < 2 ^ 53 ∧ |(34992000000 : Int)| < 2 ^ 53 ∧
      recent.clock ≤ 34992000000 ∧
      ∃ m n, (scan {} "/w" {} recent).1.map (·.1) = .ok m ∧
        (scan ⟨[0, 0], []⟩ "/w" {} { recent with clock := 34992000000 }).1.map (·.1) = .ok n ∧
        m.findings.map (·.severity) = [.medium] ∧ n.findings.map (·.severity) = [.critical] ∧
        m.Ages n := by
  have hfiles : recent.files.isWellFormed := by decide
  have hages := scan_ages {} ⟨[0, 0], []⟩ "/w" {} hfiles (w := recent) (t := 34992000000)
    (by decide) (by decide) (by decide)
  have hmedium : (scan {} "/w" {} recent).1.toOption.map (·.1.findings.map (·.severity)) =
      some [.medium] := by decide +kernel
  have hcritical : (scan ⟨[0, 0], []⟩ "/w" {} { recent with clock := 34992000000 }).1.toOption.map
      (·.1.findings.map (·.severity)) = some [.critical] := by decide +kernel
  rcases hm : (scan {} "/w" {} recent).1 with _ | ⟨m, steps⟩ <;> rw [hm] at hmedium hages
  · cases hmedium
  rcases hn : (scan ⟨[0, 0], []⟩ "/w" {} { recent with clock := 34992000000 }).1 with
    _ | ⟨n, steps'⟩ <;> rw [hn] at hcritical hages
  · cases hcritical
  exact ⟨hfiles, by decide, by decide, by decide, m, n, rfl, rfl, Option.some.inj hmedium,
    Option.some.inj hcritical, hages⟩

end Scan

end DebtSurvey
