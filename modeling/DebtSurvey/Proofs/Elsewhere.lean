import DebtSurvey.Proofs.Scan

/-!
# Scans elsewhere

The files enter a scan in few ways: whether a path leads anywhere, which files are looked at, and
what source text a file has. Trees that agree in these (`Node.LooksLike`) cannot be told apart, so
whatever a scan does with one of them it does with the other; most of what it does is to ask for the
history, which depends neither on the files nor on the time (`Portable`).

## Main results

* `SameOutcome`: what it is for two runs to come to the same, up to a relation of their results.
* `Portable.andThen`, `Portable.finish`: jobs of portable steps are portable, one after the other.
* `History.portable_blame`, `History.portable_lastModified`, `Scan.portable_fileWork`,
  `Audit.portable_scan`, `Staleness.portable_scan`: the parts of a scan.
* `Scan.fst_scan_elsewhere`: a scan comes to the same with files that look alike.
-/

namespace DebtSurvey

/-- Outcomes of two runs: results that are related, or the same failure. -/
def SameOutcome {ε α β : Type} (rel : α → β → Prop) : Except ε α → Except ε β → Prop
  | .ok a, .ok b => rel a b
  | .error e, .error e' => e = e'
  | _, _ => False

/-- Two runs fail for the same reason, or have results that are related. -/
theorem SameOutcome.error_or_ok {ε α β : Type} {rel : α → β → Prop} {x : Except ε α}
    {y : Except ε β} (h : SameOutcome rel x y) :
    (∃ e, x = .error e ∧ y = .error e) ∨ ∃ a b, x = .ok a ∧ y = .ok b ∧ rel a b := by
  rcases x with e | a <;> rcases y with e' | b
  · exact .inl ⟨e, rfl, congrArg _ (show e = e' from h).symm⟩
  · cases h
  · cases h
  · exact .inr ⟨a, b, rfl, rfl, h⟩

theorem SameOutcome.map {ε α β γ δ : Type} {rel : α → β → Prop} {rel' : γ → δ → Prop}
    {x : Except ε α} {y : Except ε β} (h : SameOutcome rel x y) (f : α → γ) (g : β → δ)
    (hrel : ∀ a b, rel a b → rel' (f a) (g b)) : SameOutcome rel' (x.map f) (y.map g) := by
  rcases x with e | a <;> rcases y with e' | b
  · exact h
  · cases h
  · cases h
  · exact hrel a b h

/-! ### Elsewhere -/

/-- Trees that a scan cannot tell apart. -/
structure Node.LooksLike (files' files : Node) : Prop where
  /-- Paths lead somewhere in both or in neither. -/
  hasPath : ∀ path, files'.hasPath path = files.hasPath path
  /-- Paths lead to directories in both or in neither. -/
  hasDirectory : ∀ path, files'.hasDirectory path = files.hasDirectory path
  /-- Files have the same source texts. -/
  source : ∀ path, Source.read files' path = Source.read files path
  /-- The same files are looked at. -/
  sourceFiles : ∀ directory settings,
    Scan.sourceFiles files' directory settings = Scan.sourceFiles files directory settings

theorem Node.LooksLike.refl (files : Node) : files.LooksLike files where
  hasPath _ := rfl
  hasDirectory _ := rfl
  source _ := rfl
  sourceFiles _ _ := rfl

/-- Imports are counted alike in trees that look alike. -/
theorem Node.LooksLike.graph {files files' : Node} (h : files'.LooksLike files) (root : Text)
    (names : List Text) : Imports.graph files' root names = Imports.graph files root names := by
  have hfile : Imports.addFile files' root = Imports.addFile files root := by
    funext fanIn file
    simp only [Imports.addFile, h.source]
  unfold Imports.graph
  rw [hfile]

/-- A world with other files, at another time. -/
def World.elsewhere (w : World) (files : Node) (clock : Int) : World := { w with files, clock }

section Elsewhere

variable (w : World) (files : Node) (clock : Int)

@[simp] theorem World.files_elsewhere : (w.elsewhere files clock).files = files := rfl

@[simp] theorem World.clock_elsewhere : (w.elsewhere files clock).clock = clock := rfl

@[simp] theorem World.host_elsewhere : (w.elsewhere files clock).host = w.host := rfl

@[simp] theorem World.memory_elsewhere : (w.elsewhere files clock).memory = w.memory := rfl

@[simp] theorem World.noticed_elsewhere : (w.elsewhere files clock).noticed = w.noticed := rfl

end Elsewhere

/-- An action that does the same at any time, and with any files that look like those it has. -/
def Portable {α : Type} (act : World → α × World) : Prop :=
  ∀ w files clock, files.LooksLike w.files →
    act (w.elsewhere files clock) = ((act w).1, (act w).2.elsewhere files clock)

namespace Portable

variable {α β : Type} {act : World → α × World}

/-- A portable action leaves the files alone: where it is, it does what it does there. -/
theorem files (h : Portable act) (w : World) : (act w).2.files = w.files :=
  congrArg (·.2.files) (h w w.files w.clock (.refl _))

/-- A portable action leaves the clock alone. -/
theorem clock (h : Portable act) (w : World) : (act w).2.clock = w.clock :=
  congrArg (·.2.clock) (h w w.files w.clock (.refl _))

theorem done (a : α) : Portable (Job.done (σ := World) a).run := by
  intro w files clock _
  rfl

theorem single (h : Portable act) : Portable (Job.single act).run := h

/-- Jobs in sequence are portable when each of them is. -/
theorem andThen {job : Job World α} {next : α → Job World β} (first : Portable job.run)
    (second : ∀ a, Portable (next a).run) : Portable (job.andThen next).run := by
  intro w files clock h
  rw [Job.run_andThen, Job.run_andThen, first w files clock h]
  exact second _ _ files clock (by rwa [first.files w])

/-- Finishing portable jobs one after the other is portable. -/
theorem finish {jobs : List (Job World α)} (h : ∀ job ∈ jobs, Portable job.run) :
    Portable (Pool.finish jobs) := by
  induction jobs with
  | nil => exact fun _ _ _ _ => rfl
  | cons job rest ih =>
    obtain ⟨hjob, hrest⟩ := List.forall_mem_cons.mp h
    intro w files clock hfiles
    simp only [Pool.finish]
    rw [hjob w files clock hfiles, ih hrest _ files clock (by rwa [hjob.files w])]

end Portable

namespace History

theorem portable_ask (arguments : List Text) : Portable (ask arguments) := by
  intro w files clock _
  rfl

theorem portable_isRepository (root : Text) : Portable (isRepository root) := by
  intro w files clock h
  unfold isRepository
  rw [portable_ask probe w files clock h, World.memory_elsewhere]
  -- memories are the same in both places, and so is what fills them
  rcases w.memory.repository with _ | known
  · rcases ask probe w with ⟨_ | _, v⟩ <;> rfl
  · rfl

theorem portable_currentCommit (root : Text) : Portable (currentCommit root) := by
  intro w files clock h
  have hfiles := (portable_isRepository root).files w
  unfold currentCommit
  rw [portable_isRepository root w files clock h]
  rcases hknown : isRepository root w with ⟨_ | _, v⟩
  · rfl
  · rw [hknown] at hfiles
    simp only [portable_ask currentArguments v files clock (hfiles ▸ h)]
    rcases ask currentArguments v with ⟨_ | _, u⟩ <;> rfl

theorem portable_askBlame (file : Text) : Portable (askBlame file) := by
  intro w files clock h
  unfold askBlame
  rw [portable_ask _ w files clock h]
  rcases ask (blameArguments file) w with ⟨_ | output, v⟩
  · rfl
  · simp only
    split <;> rfl

theorem portable_remember (file commit : Text) (rows : List BlameRow) :
    Portable (remember file commit rows) := by
  intro w files clock _
  have hknown : remembered? file commit (w.elsewhere files clock) = remembered? file commit w := rfl
  unfold remember
  rw [hknown]
  rcases remembered? file commit w with _ | known <;> rfl

theorem portable_lastModified (root file : Text) : Portable (lastModified root file) := by
  intro w files clock h
  have hfiles := (portable_isRepository root).files w
  unfold lastModified
  rw [portable_isRepository root w files clock h]
  rcases hknown : isRepository root w with ⟨_ | _, v⟩
  · rfl
  rw [hknown] at hfiles
  simp only [portable_ask _ v files clock (hfiles ▸ h)]
  rcases ask (lastArguments file) v with ⟨_ | output, u⟩
  · rfl
  simp only
  split
  · rfl
  · split <;> rfl

/-- Asking for a blame, as a job. -/
theorem portable_blame (root file commit : Text) : Portable (blame root file commit).run := by
  refine Portable.andThen (Portable.single fun _ _ _ _ => rfl) fun known => ?_
  -- a blame is remembered in both places or in neither
  rcases known with _ | rows
  · refine (Portable.single (portable_isRepository root)).andThen fun isRepository => ?_
    rcases isRepository with _ | _
    · exact .done _
    · refine (Portable.single (portable_askBlame file)).andThen fun answer => ?_
      rcases answer with e | _ | rows
      · exact .done _
      · exact .done _
      · exact (Portable.single (portable_remember file commit rows)).andThen fun rows => .done _
  · exact .done _

end History

/-- Auditing dependencies. -/
theorem Audit.portable_scan (root : Text) (command : List Text) (limits : Audit.Limits) :
    Portable (Audit.scan root command limits) := by
  intro w files clock h
  unfold Audit.scan
  rw [World.host_elsewhere, World.files_elsewhere, h.hasPath]
  split
  · rcases w.host.runLine command limits.seconds with ⟨(_ | _) | output, host⟩
    · rfl
    · rfl
    · simp only
      split <;> rfl
  · rfl

namespace Scan

theorem tellNoHistory_elsewhere (w : World) (files : Node) (clock : Int) :
    tellNoHistory (w.elsewhere files clock) = (tellNoHistory w).elsewhere files clock := by
  unfold tellNoHistory
  rw [World.noticed_elsewhere]
  split <;> rfl

theorem portable_currentCommit (root : Text) : Portable (currentCommit root) := by
  intro w files clock h
  have hfiles := (History.portable_isRepository root).files w
  unfold currentCommit
  rw [World.files_elsewhere, h.hasDirectory]
  split
  · rw [History.portable_isRepository root w files clock h]
    rcases hknown : History.isRepository root w with ⟨_ | _, v⟩
    · simp only [tellNoHistory_elsewhere]
    · rw [hknown] at hfiles
      simp only [History.portable_currentCommit root v files clock (hfiles ▸ h)]
  · rfl

theorem portable_readSource (directory file : Text) (failure : Event) :
    Portable (readSource directory file failure) := by
  intro w files clock h
  unfold readSource
  rw [World.files_elsewhere, h.source]
  rcases Source.read w.files (Path.append directory file) with _ | source <;> rfl

theorem portable_markerWork (root file commit : Text) (words : List Text) (clock : Int) :
    Portable (markerWork root file commit words clock).run := by
  unfold markerWork
  split
  · exact .done _
  · refine (Portable.single (portable_readSource root file _)).andThen fun source => ?_
    rcases source with _ | source
    · exact .done _
    · exact (History.portable_blame root file commit).andThen fun blame => .done _

theorem portable_functionWork (root file commit : Text) (bands : Code.Bands Int) (clock : Int) :
    Portable (functionWork root file commit bands clock).run := by
  unfold functionWork
  split
  · refine (Portable.single (portable_readSource root file _)).andThen fun source => ?_
    -- without a function, or without a source, no blame is asked for
    rcases source.map Code.functions with _ | _ | ⟨f, functions⟩
    · exact .done _
    · exact .done _
    · exact (History.portable_blame root file commit).andThen fun blame => .done _
  · exact .done _

/-- The work on a file, with the time that it is told. -/
theorem portable_fileWork (root file commit : Text) (settings : Settings) (clock : Int) :
    Portable (fileWork root file commit settings clock).run := by
  refine (portable_markerWork root file commit settings.markerWords clock).andThen fun marked => ?_
  rcases marked with e | marked
  · exact .done _
  · exact (portable_functionWork root file commit settings.bands clock).andThen fun complex =>
      .done _

theorem portable_countImports (root : Text) (names : List Text) :
    Portable (countImports root names) := by
  intro w files clock h
  unfold countImports
  rw [World.files_elsewhere, h.graph]
  rfl

end Scan

namespace Staleness

variable (root : Text) (daysThreshold importThreshold : Int) (fanIn : FanIn) (clock : Int)

theorem portable_inspect (file : Text) :
    Portable (inspect root daysThreshold importThreshold fanIn clock file) := by
  intro w files t h
  unfold inspect
  rw [History.portable_lastModified root file w files t h]
  rcases History.lastModified root file w with ⟨_ | ⟨commit, moment⟩, v⟩ <;> rfl

theorem portable_inspectAll (names : List Text) :
    Portable (inspectAll root daysThreshold importThreshold fanIn clock names) := by
  induction names with
  | nil => exact fun _ _ _ _ => rfl
  | cons file rest ih =>
    intro w files t h
    have hfile := portable_inspect root daysThreshold importThreshold fanIn clock file
    have hfiles := hfile.files w
    simp only [inspectAll]
    rw [hfile w files t h]
    rcases hfound : inspect root daysThreshold importThreshold fanIn clock file w with
      ⟨_ | found, v⟩
    · rfl
    · rw [hfound] at hfiles
      simp only [ih v files t (hfiles ▸ h)]

/-- The search for stale files, with the time that it is told. -/
theorem portable_scan (names : List Text) :
    Portable (scan root daysThreshold importThreshold fanIn clock names) := by
  intro w files t h
  unfold scan
  rw [portable_inspectAll root daysThreshold importThreshold fanIn clock names w files t h]
  rcases inspectAll root daysThreshold importThreshold fanIn clock names w with ⟨_ | found, v⟩ <;>
    rfl

end Staleness

/-! ### Scans -/

namespace Scan

section Files

variable (root commit : Text) (settings : Settings) (clock : Int)

/-- What is found in a file, with other files that look alike. -/
theorem fileFindings_elsewhere {w : World} {files : Node} (h : files.LooksLike w.files) (t : Int)
    (file : Text) :
    fileFindings root commit settings clock (w.elsewhere files t) file =
      fileFindings root commit settings clock w file := by
  rw [← found_run_fileWork, ← found_run_fileWork,
    portable_fileWork root file commit settings clock w files t h]

/-- Doing files one after the other. -/
theorem portable_finish_fileJobs (names : List Text) :
    Portable (Pool.finish (fileJobs root commit settings clock names)) :=
  Portable.finish (List.forall_mem_map.mpr fun file _ =>
    portable_fileWork root file commit settings clock)

/-- The end of a scan, with other files that look alike. -/
theorem conclude_elsewhere (names : List Text) (inFiles : List Finding) {w : World} {files : Node}
    {t : Int} (h : files.LooksLike w.files) (ht : w.clock = t) :
    (conclude root settings commit clock names inFiles (w.elsewhere files t)).1 =
      (conclude root settings commit clock names inFiles w).1 := by
  have haudit := Audit.portable_scan root settings.auditCommand Audit.limits
  have hfiles := haudit.files w
  have hclock := haudit.clock w
  unfold conclude
  rw [haudit w files t h]
  rcases hdependencies : Audit.scan root settings.auditCommand Audit.limits w with
    ⟨e | dependencies, v⟩
  · rfl
  rw [hdependencies] at hfiles hclock
  simp only [portable_countImports root names v files t (hfiles ▸ h)]
  -- counting imports has only noted something
  generalize hfanIn : (countImports root names v).1 = fanIn
  have hstale := Staleness.portable_scan root settings.staleDays settings.staleImports fanIn clock
    names
  have hclock' := hstale.clock (countImports root names v).2
  rw [hstale (countImports root names v).2 files t (hfiles ▸ h)]
  rcases hfound : Staleness.scan root settings.staleDays settings.staleImports fanIn clock names
    (countImports root names v).2 with ⟨e | stale, u⟩
  · rfl
  rw [hfound] at hclock'
  have hsame : u.clock = t := hclock'.trans (hclock.trans ht)
  simp only [World.clock_elsewhere, hsame]

end Files

/-- With files that look alike a scan comes to the same, whatever the schedules. -/
theorem fst_scan_elsewhere (schedule schedule' : Schedule) (root : Text) (settings : Settings)
    {w : World} {files : Node} (hw : w.files.isWellFormed) (hfiles : files.isWellFormed)
    (h : files.LooksLike w.files) :
    (scan schedule' root settings { w with files }).1.map (·.1) =
      (scan schedule root settings w).1.map (·.1) := by
  rw [fst_scan_eq schedule root settings hw]
  show (scan schedule' root settings (w.elsewhere files w.clock)).1.map (·.1) = _
  have hcurrent := portable_currentCommit root
  have hstart := hcurrent.files w
  have hclock := hcurrent.clock w
  rw [fst_scan_eq schedule' root settings
    (show (w.elsewhere files w.clock).files.isWellFormed from hfiles), hcurrent w files w.clock h]
  rcases hcommit : currentCommit root w with ⟨e | commit, start⟩
  · rfl
  rw [hcommit] at hstart hclock
  simp only [World.files_elsewhere, World.clock_elsewhere, h.sourceFiles]
  rcases sourceFiles w.files root settings with cause | ⟨names, event⟩
  · rfl
  have hlike : files.LooksLike start.files := hstart ▸ h
  have hfinish := portable_finish_fileJobs root commit settings w.clock names
  have hafter : afterFiles root commit settings w.clock names (start.elsewhere files w.clock) =
      (afterFiles root commit settings w.clock names start).elsewhere files w.clock :=
    congrArg (·.2) (hfinish start files w.clock hlike)
  have hend := conclude_elsewhere root commit settings w.clock names
    (names.flatMap (fileFindings root commit settings w.clock start))
    (w := afterFiles root commit settings w.clock names start)
    (hfinish.files start ▸ hlike) ((hfinish.clock start).trans hclock)
  simp only [hafter, funext (fileFindings_elsewhere root commit settings w.clock hlike w.clock),
    hend]
  -- the reports of progress are not compared
  rcases (conclude root settings commit w.clock names
    (names.flatMap (fileFindings root commit settings w.clock start))
    (afterFiles root commit settings w.clock names start)).1 with e | map <;> rfl

end Scan

end DebtSurvey
