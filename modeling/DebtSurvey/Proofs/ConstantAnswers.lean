import DebtSurvey.Proofs.Decoration
import DebtSurvey.Proofs.Session

/-!
# Where every answer stays the same

When the outside world answers every command line the same each time, it makes no difference when it
is asked, or whether it is asked again instead of a memory. A world that a session has come to
recalls its start (`Scan.Recalls`): the answers are still those of the start, and whatever is
remembered is what would be answered.

So every part of a scan gives one thing, wherever the session has come to (`Scan.Gives`), and leaves
a world that recalls the start as well. For the pool this holds of every step of its jobs, and thus
under every schedule.

## Main results

* `Scan.ensures_standingBlame`: a blame is the same, remembered or not.
* `Scan.gives_scan` and `Scan.gives_scanFile`: what a scan gives, and what a scan of one file gives.
* `Scan.session_recalls`: every request of a session meets a world that recalls its start.
-/

namespace DebtSurvey

namespace Script

variable {script : Script}

/-- A script that has only one answer to each command line, as often as it is asked. -/
def IsConstant (script : Script) : Prop :=
  ∀ key answers, script.answers? key = some answers → ∀ a ∈ answers, ∀ b ∈ answers, a = b

theorem isConstant_of_forall (h : ∀ entry ∈ script, ∀ a ∈ entry.2, ∀ b ∈ entry.2, a = b) :
    script.IsConstant := by
  intro key answers hanswers
  exact h _ (mem_of_answers? hanswers)

theorem IsConstant.ask (h : script.IsConstant) (key : Text) : (script.ask key).2.IsConstant := by
  intro other answers hanswers a ha b hb
  rw [answers?_snd_ask] at hanswers
  split at hanswers
  · obtain ⟨before, hbefore, rfl⟩ := Option.map_eq_some_iff.mp hanswers
    exact h key before hbefore a (mem_of_mem_advance ha) b (mem_of_mem_advance hb)
  · exact h other answers hanswers a ha b hb

/-- Asking for something changes no answer, not even the one it was given. -/
theorem IsConstant.fst_ask_ask (h : script.IsConstant) (key other : Text) :
    ((script.ask key).2.ask other).1 = (script.ask other).1 := by
  rw [fst_ask, fst_ask, answers?_snd_ask]
  split
  · rename_i hkey
    subst hkey
    rcases hanswers : script.answers? other with _ | _ | ⟨first, _ | ⟨second, rest⟩⟩
    · rfl
    · rfl
    · rfl
    · -- the answer that is used up makes way for another, which is the same
      have hsame : first = second := h other _ hanswers _ (by simp) _ (by simp)
      rw [hsame]
      rfl
  · rfl

end Script

namespace Scan

/-! ### Worlds that recall the start -/

/-- The blame of a file when nothing is remembered. -/
def standingBlame (start : World) (file : Text) : BlameResult :=
  if (History.ask History.probe start).1.isOk then
    (History.askBlame file start).1.map fun rows => rows.getD []
  else .ok []

/-- A world that a session has come to from its start: files, clock and answers are those of the
start, and what is remembered is what is answered there. -/
structure Recalls (start w : World) : Prop where
  files : w.files = start.files
  clock : w.clock = start.clock
  constant : w.host.script.IsConstant
  answer : ∀ key, (w.host.ask key).1 = (start.host.ask key).1
  repository : ∀ known, w.memory.repository = some known →
    (History.ask History.probe start).1.isOk = known
  blames : ∀ file commit rows, ((file, commit), rows) ∈ w.memory.blames →
    standingBlame start file = .ok rows

/-- An action that gives one thing in every world that recalls the start, and leaves another such
world. -/
def Gives {α : Type} (start : World) (a : α) (act : World → α × World) : Prop :=
  ∀ w, Recalls start w → ∃ v, act w = (a, v) ∧ Recalls start v

section Recalls

variable {start w : World}

/-- With nothing to remember, a world recalls itself. -/
theorem Recalls.refl (hmemory : w.memory = {}) (hconstant : w.host.script.IsConstant) :
    Recalls w w where
  files := rfl
  clock := rfl
  constant := hconstant
  answer _ := rfl
  repository known hknown := by
    rw [hmemory] at hknown
    cases hknown
  blames file commit rows hmem := by
    rw [hmemory] at hmem
    cases hmem

theorem Recalls.note (h : Recalls start w) (event : Event) : Recalls start (w.note event) :=
  ⟨h.files, h.clock, h.constant, h.answer, h.repository, h.blames⟩

/-- Running a command line changes no answer. -/
theorem Recalls.ask (h : Recalls start w) (line : Text) :
    Recalls start { w with host := (w.host.ask line).2 } where
  files := h.files
  clock := h.clock
  constant := h.constant.ask line
  answer key := (h.constant.fst_ask_ask line key).trans (h.answer key)
  repository := h.repository
  blames := h.blames

theorem Recalls.tellNoHistory (h : Recalls start w) : Recalls start (tellNoHistory w) := by
  unfold Scan.tellNoHistory
  split
  · exact h
  · exact ⟨h.files, h.clock, h.constant, h.answer, h.repository, h.blames⟩

/-- A remembered blame is the one that stands. -/
theorem Recalls.remembered (h : Recalls start w) {file commit : Text} {rows : List BlameRow}
    (hknown : History.remembered? file commit w = some rows) :
    standingBlame start file = .ok rows := by
  obtain ⟨⟨key, known⟩, hfind, rfl⟩ := Option.map_eq_some_iff.mp hknown
  have hkey : key = (file, commit) := by simpa using List.find?_some hfind
  subst hkey
  exact h.blames file commit known (List.mem_of_find?_eq_some hfind)

end Recalls

/-! ### Asking for history -/

section History

variable (start : World) (root file commit : Text)

theorem gives_ask (arguments : List Text) :
    Gives start (History.ask arguments start).1 (History.ask arguments) := by
  intro w hw
  -- an answer is interpreted by itself, whatever else the world holds
  refine ⟨_, Prod.ext ?_ rfl, hw.ask (History.line arguments)⟩
  show Host.interpret _ _ _ (w.host.ask (History.line arguments)).1 = _
  rw [hw.answer]
  rfl

/-- Whether there is a history is the same, remembered or not. -/
theorem gives_isRepository :
    Gives start (History.ask History.probe start).1.isOk (History.isRepository root) := by
  intro w hw
  unfold History.isRepository
  rcases hmemory : w.memory.repository with _ | known
  · obtain ⟨v, hask, hv⟩ := gives_ask start History.probe w hw
    simp only [hask]
    -- from here on the answer is remembered
    rcases hanswer : (History.ask History.probe start).1 with cause | output
    · refine ⟨_, rfl, ⟨hv.files, hv.clock, hv.constant, hv.answer, ?_, hv.blames⟩⟩
      rintro known ⟨⟩
      rw [hanswer]
      rfl
    · refine ⟨_, rfl, ⟨hv.files, hv.clock, hv.constant, hv.answer, ?_, hv.blames⟩⟩
      rintro known ⟨⟩
      rw [hanswer]
      rfl
  · rw [hw.repository known hmemory]
    exact ⟨w, rfl, hw⟩

theorem gives_historyCommit : ∃ commit, Gives start commit (History.currentCommit root) := by
  have hrepository := gives_isRepository start root
  cases hknown : (History.ask History.probe start).1.isOk <;> rw [hknown] at hrepository
  · refine ⟨[], fun w hw => ?_⟩
    obtain ⟨v, hact, hv⟩ := hrepository w hw
    exact ⟨v, by rw [History.currentCommit, hact], hv⟩
  · have hask := gives_ask start History.currentArguments
    rcases hanswer : (History.ask History.currentArguments start).1 with cause | output <;>
      rw [hanswer] at hask
    · refine ⟨[], fun w hw => ?_⟩
      obtain ⟨v, hact, hv⟩ := hrepository w hw
      obtain ⟨u, hasked, hu⟩ := hask v hv
      exact ⟨u.note (.noCurrentCommit cause), by simp only [History.currentCommit, hact, hasked],
        hu.note _⟩
    · refine ⟨Text.trim output, fun w hw => ?_⟩
      obtain ⟨v, hact, hv⟩ := hrepository w hw
      obtain ⟨u, hasked, hu⟩ := hask v hv
      exact ⟨u, by simp only [History.currentCommit, hact, hasked], hu⟩

/-- The commit of a scan. -/
theorem gives_currentCommit : ∃ result, Gives start result (currentCommit root) := by
  by_cases hroot : start.files.hasDirectory root
  · have hrepository := gives_isRepository start root
    obtain ⟨commit, hcommit⟩ := gives_historyCommit start root
    cases hknown : (History.ask History.probe start).1.isOk <;> rw [hknown] at hrepository
    · refine ⟨.ok [], fun w hw => ?_⟩
      obtain ⟨v, hact, hv⟩ := hrepository w hw
      exact ⟨_, by rw [currentCommit, if_pos (hw.files ▸ hroot), hact], hv.tellNoHistory⟩
    · refine ⟨.ok commit, fun w hw => ?_⟩
      obtain ⟨v, hact, hv⟩ := hrepository w hw
      obtain ⟨u, hasked, hu⟩ := hcommit v hv
      exact ⟨u, by simp only [currentCommit, if_pos (hw.files ▸ hroot), hact, hasked], hu⟩
  · exact ⟨_, fun w hw => ⟨w, currentCommit_of_missing (hw.files ▸ hroot), hw⟩⟩

theorem gives_askBlame :
    Gives start (History.askBlame file start).1 (History.askBlame file) := by
  intro w hw
  obtain ⟨v, hact, hv⟩ := gives_ask start (History.blameArguments file) w hw
  unfold History.askBlame
  rw [hact]
  rcases History.ask (History.blameArguments file) start with ⟨cause | output, u⟩
  · exact ⟨_, rfl, hv.note _⟩
  · simp only
    rcases Porcelain.parse output with e | rows
    · exact ⟨v, rfl, hv⟩
    · exact ⟨v, rfl, hv⟩

variable {file}

/-- Rows that stand are what is remembered, sooner or later. -/
theorem gives_remember {rows : List BlameRow} (h : standingBlame start file = .ok rows) :
    Gives start rows (History.remember file commit rows) := by
  intro w hw
  unfold History.remember
  rcases hknown : History.remembered? file commit w with _ | known
  · refine ⟨_, rfl, ⟨hw.files, hw.clock, hw.constant, hw.answer, hw.repository, ?_⟩⟩
    intro other key old hmem
    -- all that is new among what is remembered are the rows that stand
    rcases List.mem_append.mp hmem with hbefore | hnew
    · exact hw.blames other key old hbefore
    · obtain ⟨hkey, rfl⟩ := Prod.mk.inj (List.mem_singleton.mp hnew)
      obtain ⟨rfl, -⟩ := Prod.mk.inj hkey
      exact h
  · have hsame : rows = known := Except.ok.inj (h.symm.trans (hw.remembered hknown))
    exact ⟨w, by rw [hsame], hw⟩

variable (file)

/-- The last commit of a file. -/
theorem gives_lastModified (hstart : Recalls start start) :
    Gives start (History.lastModified root file start).1 (History.lastModified root file) := by
  intro w hw
  -- what is given is what the start itself would be given, so both are followed side by side
  obtain ⟨v, hact, hv⟩ := gives_isRepository start root w hw
  obtain ⟨v', hact', hv'⟩ := gives_isRepository start root start hstart
  unfold History.lastModified
  rw [hact, hact']
  cases (History.ask History.probe start).1.isOk
  · exact ⟨v, rfl, hv⟩
  obtain ⟨u, hasked, hu⟩ := gives_ask start (History.lastArguments file) v hv
  obtain ⟨u', hasked', -⟩ := gives_ask start (History.lastArguments file) v' hv'
  simp only [hasked, hasked']
  rcases (History.ask (History.lastArguments file) start).1 with cause | output
  · exact ⟨_, rfl, hu.note _⟩
  · simp only
    split
    · exact ⟨u, rfl, hu⟩
    · split
      · exact ⟨u, rfl, hu⟩
      · exact ⟨_, rfl, hu.note _⟩

theorem Gives.ensures {α : Type} {start : World} {a : α} {act : World → α × World}
    (h : Gives start a act) : Job.Ensures (Recalls start) (· = a) (Job.single act) := by
  refine .single _ fun w hw => ?_
  obtain ⟨v, hact, hv⟩ := h w hw
  rw [hact]
  exact ⟨rfl, hv⟩

/-- As a job among others, asking for a blame gives the one that stands. -/
theorem ensures_standingBlame :
    Job.Ensures (Recalls start) (· = standingBlame start file)
      (History.blame root file commit) := by
  refine (Job.Ensures.single
    (fun known => ∀ rows, known = some rows → standingBlame start file = .ok rows)
    fun w hw => ⟨fun rows => hw.remembered, hw⟩).andThen fun known hstands => ?_
  -- a file whose blame fails is never remembered, and is asked for each time
  rcases known with _ | rows
  · refine (gives_isRepository start root).ensures.andThen ?_
    rintro _ rfl
    cases hknown : (History.ask History.probe start).1.isOk
    · exact .done (by rw [standingBlame, hknown]; rfl)
    · have hstanding : standingBlame start file =
          (History.askBlame file start).1.map fun rows => rows.getD [] := by
        rw [standingBlame, if_pos hknown]
      refine (gives_askBlame start file).ensures.andThen ?_
      rintro _ rfl
      rcases hanswer : (History.askBlame file start).1 with e | _ | rows <;>
        rw [hanswer] at hstanding
      · exact .done hstanding.symm
      · exact .done hstanding.symm
      · refine (gives_remember start commit hstanding).ensures.andThen ?_
        rintro _ rfl
        exact .done hstanding.symm
  · exact .done (hstands rows rfl).symm

end History

/-! ### Files -/

section Files

variable {start : World} {root : Text} {settings : Settings}

/-- The work on files can rely on this, and on blames being those that stand. -/
theorem Recalls.workInvariant (start : World) :
    WorkInvariant (Recalls start) start.files fun file answer =>
      answer = standingBlame start file :=
  ⟨fun hw => hw.files, fun event hw => hw.note event, fun _ => ⟨_, rfl⟩⟩

/-- What is found in a file, with the blame that stands. -/
def standingResult (start : World) (root : Text) (settings : Settings) (file : Text) : FileResult :=
  fileResult start.files root settings start.clock file (standingBlame start file)
    (standingBlame start file)

theorem eq_standingResult {file : Text} {result : FileResult}
    (h : IsResult start.files root settings start.clock
      (fun file answer => answer = standingBlame start file) file result) :
    result = standingResult start root settings file := by
  obtain ⟨marked, complex, rfl, rfl, rfl⟩ := h
  rfl

theorem eq_map_standingResult {names : List Text} {results : List FileResult}
    (h : List.Forall₂ (IsResult start.files root settings start.clock
      fun file answer => answer = standingBlame start file) names results) :
    results = names.map (standingResult start root settings) := by
  induction h with
  | nil => rfl
  | cons hfile _ ih => rw [List.map_cons, eq_standingResult hfile, ih]

/-- A scan of a file gives what is found there with the blame that stands, unless there is no
workspace. -/
theorem gives_scanFile (start : World) (root file : Text) (settings : Settings) :
    Gives start
      (if start.files.hasDirectory root then
        (standingResult start root settings file).mapError .blame
      else .error (.noWorkspace root))
      (scanFile root file settings) := by
  intro w hw
  -- with a workspace there is always a commit, if only an empty one
  by_cases hroot : start.files.hasDirectory root
  · obtain ⟨result, hcommit⟩ := gives_currentCommit start root
    obtain ⟨v, hact, hv⟩ := hcommit w hw
    obtain ⟨commit, hok⟩ := currentCommit_ok (w := w) (hw.files ▸ hroot)
    rw [hact] at hok
    obtain rfl : result = .ok commit := hok
    have hwork := ensures_fileWork (Recalls.workInvariant start)
      (ensures_standingBlame start root file commit) settings start.clock
    obtain ⟨hresult, hafter⟩ := hwork.run hv
    refine ⟨_, ?_, hafter⟩
    rw [scanFile_eq, hact, if_pos hroot, ← eq_standingResult hresult, ← hv.clock]
  · refine ⟨w, ?_, hw⟩
    rw [scanFile_eq, currentCommit_of_missing (hw.files ▸ hroot), if_neg hroot]

/-- The search of a scan gives one thing under every schedule: what is found in each of its files
with the blame that stands. -/
theorem gives_search (start : World) (root : Text) (settings : Settings) :
    ∃ result, ∀ schedule, Gives start result (search schedule root settings) := by
  obtain ⟨commit, hcommit⟩ := gives_currentCommit start root
  rcases commit with e | commit
  · refine ⟨.error e, fun schedule w hw => ?_⟩
    obtain ⟨v, hact, hv⟩ := hcommit w hw
    exact ⟨v, by rw [search, hact], hv⟩
  have hsearch (schedule : Schedule) {v w : World} (hact : currentCommit root w = (.ok commit, v))
      (hv : Recalls start v) :=
    search_ensures (Recalls.workInvariant start) hact
      (fun file => ensures_standingBlame start root file commit) schedule settings hv
  rcases hsource : sourceFiles start.files root settings with cause | ⟨names, event⟩ <;>
    simp only [hsource] at hsearch
  · refine ⟨.error (.discovery cause), fun schedule w hw => ?_⟩
    obtain ⟨v, hact, hv⟩ := hcommit w hw
    obtain ⟨after, hafter, hsearch⟩ := hsearch schedule hact hv
    exact ⟨after, hsearch, hafter⟩
  · refine ⟨.ok (commit, names, (names.map (standingResult start root settings)).flatMap found),
      fun schedule w hw => ?_⟩
    obtain ⟨v, hact, hv⟩ := hcommit w hw
    obtain ⟨after, hafter, results, hsearch, hresults⟩ := hsearch schedule hact hv
    rw [hv.clock] at hresults
    exact ⟨after, eq_map_standingResult hresults ▸ hsearch, hafter⟩

end Files

/-! ### Scans -/

section Scan

variable {start : World} (hstart : Recalls start start) (root : Text)

theorem gives_audit (start : World) (root : Text) (command : List Text) (limits : Audit.Limits) :
    Gives start (Audit.scan root command limits start).1 (Audit.scan root command limits) := by
  intro w hw
  have hsame := fst_audit_congr hw.files root command limits (hw.answer _)
  refine ⟨(Audit.scan root command limits w).2, Prod.ext hsame rfl, ?_⟩
  have hrun := hw.ask (Host.key command)
  unfold Audit.scan
  split
  · simp only [Host.runLine_eq]
    split
    · exact hrun
    · exact hrun.note _
    · split
      · exact hrun
      · exact hrun
      · exact hrun.note _
  · exact hw

theorem gives_countImports (start : World) (root : Text) (files : List Text) :
    Gives start (Imports.graph start.files root files).1 (countImports root files) := by
  intro w hw
  have hsame : (countImports root files w).1 = (Imports.graph start.files root files).1 := by
    rw [← hw.files]
    rfl
  exact ⟨(countImports root files w).2, Prod.ext hsame rfl,
    ⟨hw.files, hw.clock, hw.constant, hw.answer, hw.repository, hw.blames⟩⟩

include hstart

theorem gives_inspect (daysThreshold importThreshold : Int) (fanIn : FanIn) (clock : Int)
    (file : Text) :
    ∃ result, Gives start result
      (Staleness.inspect root daysThreshold importThreshold fanIn clock file) := by
  have hlast := gives_lastModified start root file hstart
  generalize (History.lastModified root file start).1 = last at hlast
  rcases last with _ | ⟨commit, moment⟩
  · refine ⟨.ok none, fun w hw => ?_⟩
    obtain ⟨v, hact, hv⟩ := hlast w hw
    exact ⟨v, by rw [Staleness.inspect, hact], hv⟩
  · refine ⟨(Staleness.age moment clock).map
      (Staleness.finding? daysThreshold importThreshold fanIn file commit), fun w hw => ?_⟩
    obtain ⟨v, hact, hv⟩ := hlast w hw
    exact ⟨v, by rw [Staleness.inspect, hact], hv⟩

theorem gives_inspectAll (daysThreshold importThreshold : Int) (fanIn : FanIn) (clock : Int)
    (files : List Text) :
    ∃ result, Gives start result
      (Staleness.inspectAll root daysThreshold importThreshold fanIn clock files) := by
  induction files with
  | nil => exact ⟨.ok [], fun w hw => ⟨w, rfl, hw⟩⟩
  | cons file rest ih =>
    obtain ⟨first, hfirst⟩ :=
      gives_inspect hstart root daysThreshold importThreshold fanIn clock file
    obtain ⟨others, hothers⟩ := ih
    -- the first failure is the failure of the whole
    rcases first with e | found
    · refine ⟨.error e, fun w hw => ?_⟩
      obtain ⟨v, hact, hv⟩ := hfirst w hw
      exact ⟨v, by rw [Staleness.inspectAll, hact], hv⟩
    · refine ⟨others.map (found.toList ++ ·), fun w hw => ?_⟩
      obtain ⟨v, hact, hv⟩ := hfirst w hw
      obtain ⟨u, hrest, hu⟩ := hothers v hv
      exact ⟨u, by simp only [Staleness.inspectAll, hact, hrest], hu⟩

theorem gives_staleness (daysThreshold importThreshold : Int) (fanIn : FanIn) (clock : Int)
    (files : List Text) :
    ∃ result, Gives start result
      (Staleness.scan root daysThreshold importThreshold fanIn clock files) := by
  obtain ⟨result, hall⟩ := gives_inspectAll hstart root daysThreshold importThreshold fanIn clock
    files
  refine ⟨result, fun w hw => ?_⟩
  obtain ⟨v, hact, hv⟩ := hall w hw
  unfold Staleness.scan
  rw [hact]
  rcases result with e | found
  · exact ⟨v, rfl, hv⟩
  · exact ⟨_, rfl, hv.note _⟩

theorem gives_conclude (settings : Settings) (commit : Text) (clock : Int) (files : List Text)
    (inFiles : List Finding) :
    ∃ result, Gives start result (conclude root settings commit clock files inFiles) := by
  have haudit := gives_audit start root settings.auditCommand Audit.limits
  have hfanIn := gives_countImports start root files
  obtain ⟨stale, hstale⟩ := gives_staleness hstart root settings.staleDays settings.staleImports
    (Imports.graph start.files root files).1 clock files
  generalize (Audit.scan root settings.auditCommand Audit.limits start).1 = audited at haudit
  rcases audited with e | dependencies
  · refine ⟨.error (.audit e), fun w hw => ?_⟩
    obtain ⟨v, hact, hv⟩ := haudit w hw
    exact ⟨v, by rw [conclude, hact], hv⟩
  rcases stale with e | stale
  · refine ⟨.error (.age e), fun w hw => ?_⟩
    obtain ⟨v, hact, hv⟩ := haudit w hw
    obtain ⟨u, hcount, hu⟩ := hfanIn v hv
    obtain ⟨t, hscan, ht⟩ := hstale u hu
    exact ⟨t, by simp only [conclude, hact, hcount, hscan], ht⟩
  · refine ⟨.ok ⟨inFiles ++ dependencies ++ stale, start.clock, commit,
      Stats.ofFindings (inFiles ++ dependencies ++ stale) (Imports.graph start.files root files).1⟩,
      fun w hw => ?_⟩
    obtain ⟨v, hact, hv⟩ := haudit w hw
    obtain ⟨u, hcount, hu⟩ := hfanIn v hv
    obtain ⟨t, hscan, ht⟩ := hstale u hu
    -- the clock that the map is dated by is still that of the start
    exact ⟨t, by simp only [conclude, hact, hcount, hscan, ht.clock], ht⟩

/-- A scan gives one thing, whatever its schedule: only the reports of its progress depend on
that. -/
theorem gives_scan (settings : Settings) :
    ∃ result : Except Fault DebtMap, ∀ schedule,
      Gives start result fun w =>
        ((scan schedule root settings w).1.map (·.1), (scan schedule root settings w).2) := by
  obtain ⟨searched, hsearch⟩ := gives_search start root settings
  rcases searched with e | ⟨commit, names, inFiles⟩
  · refine ⟨.error e, fun schedule w hw => ?_⟩
    obtain ⟨v, hact, hv⟩ := hsearch schedule w hw
    refine ⟨v, ?_, hv⟩
    simp only [scan_eq_search, hact]
    rfl
  · obtain ⟨result, hconclude⟩ :=
      gives_conclude hstart root settings commit start.clock names inFiles
    refine ⟨result, fun schedule w hw => ?_⟩
    obtain ⟨v, hact, hv⟩ := hsearch schedule w hw
    obtain ⟨u, hend, hu⟩ := hconclude v hv
    refine ⟨u, ?_, hu⟩
    simp only [scan_eq_search, hact, hw.clock, hend]
    cases result <;> rfl

end Scan

/-! ### Sessions -/

/-- A request that only reads: the files, the outside world and the clock stay as they are. -/
def Request.IsReading : Request → Prop
  | .scan .. | .scanFile .. | .clear => True
  | .refile _ | .rescript _ | .setClock _ => False

section Session

variable {start w : World}

theorem Recalls.clear (h : Recalls start w) : Recalls start (History.clear w) where
  files := h.files
  clock := h.clock
  constant := h.constant
  answer := h.answer
  repository := h.repository
  blames file commit rows hmem := by cases hmem

/-- A request that only reads leaves a world that recalls the start. -/
theorem Recalls.perform (hstart : Recalls start start) (h : Recalls start w) (root : Text)
    {request : Request} (hreading : request.IsReading) :
    Recalls start (request.perform root w).2 := by
  cases request with
  | scan schedule settings =>
    obtain ⟨result, hgives⟩ := gives_scan hstart root settings
    obtain ⟨v, hact, hv⟩ := hgives schedule w h
    obtain ⟨-, rfl⟩ := Prod.mk.inj hact
    exact hv
  | scanFile file settings =>
    obtain ⟨v, hact, hv⟩ := gives_scanFile start root file settings w h
    rw [Request.perform, hact]
    exact hv
  | clear => exact h.clear
  | refile | rescript | setClock => cases hreading

/-- Every request of a session that only reads is met by a world that recalls the start. -/
theorem session_recalls (hstart : Recalls start start) (root : Text) {requests : List Request}
    (hreading : ∀ request ∈ requests, request.IsReading) {i : Nat} {request : Request}
    (hi : requests[i]? = some request) (h : Recalls start w) :
    ∃ v, Recalls start v ∧
      (session root requests w).1[i]? = some (request.perform root v).1 := by
  -- on the requests; every one of them is met where those before it have led
  induction requests generalizing i w with
  | nil => cases hi
  | cons first rest ih =>
    obtain ⟨hfirst, hrest⟩ := List.forall_mem_cons.mp hreading
    cases i with
    | zero =>
      obtain rfl : first = request := Option.some.inj hi
      exact ⟨w, h, rfl⟩
    | succ i => exact ih hrest hi (hstart.perform h root hfirst)

end Session

end Scan

end DebtSurvey
