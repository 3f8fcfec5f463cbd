import DebtSurvey.Proofs.PoolInvariant
import DebtSurvey.Proofs.Scan

/-!
# What the work on a file comes to

What is found in a file is decided by its source and by what was answered when its blame was asked
for: once for the markers, and once for the functions. So a property of the answers that holds under
an invariant of the world is all that has to be known of the steps of the work, and of those that
others take in between.

## Main results

* `Scan.ensures_fileWork`: the findings of a file, from its source and two answers.
* `Scan.inspectFiles_ensures`: the same for the files of a scan, under every schedule.
* `Scan.scan_eq_search`: a scan searches its files, and concludes; `Scan.search_ensures` is what the
  search comes to, and `Scan.parts_of_scan` what the findings of the scan are made of.
-/

namespace DebtSurvey

namespace History

/-- The command for a blame leaves the files alone. -/
theorem files_askBlame (file : Text) (w : World) :
    (askBlame file w).2.files = w.files := by
  obtain ⟨result, host, hask⟩ := exists_ask (blameArguments file) w
  unfold askBlame
  simp only [hask]
  cases result with
  | error cause => rfl
  | ok output =>
    simp only
    split <;> rfl

/-- Remembering a blame leaves the files alone. -/
theorem files_remember (file commit : Text) (rows : List BlameRow) (w : World) :
    (remember file commit rows w).2.files = w.files := by
  unfold remember
  split <;> rfl

end History

namespace Scan

/-- What is answered when a blame is asked for. -/
abbrev BlameResult := Except Porcelain.Error (List BlameRow)

/-- The source of a file, if it can be read. -/
def sourceOf? (files : Node) (directory file : Text) : Option Text :=
  (Source.read files (Path.append directory file)).toOption

/-- The source that is searched for markers; without any word there is none. -/
def markerSource? (files : Node) (directory file : Text) (words : List Text) : Option Text :=
  if words.all (·.isEmpty) then none else sourceOf? files directory file

/-- The functions that are looked for in a file; there are none in files of other languages. -/
def functionsOf (files : Node) (directory file : Text) : List Code.Function :=
  if Imports.hasSourceExtension file then
    ((sourceOf? files directory file).map Code.functions).getD []
  else []

/-- The findings of markers in a source, once its blame was answered. -/
def markerResult (words : List Text) (file : Text) (clock : Int) (source : Option Text)
    (blame : BlameResult) : FileResult :=
  match source with
  | none => .ok []
  | some source => blame.map fun rows => Marker.findings words file source rows clock

/-- The findings among some functions, once their blame was answered. -/
def functionResult (bands : Code.Bands Int) (file : Text) (clock : Int)
    (functions : List Code.Function) (blame : BlameResult) : FileResult :=
  if functions = [] then .ok []
  else blame.map fun rows => Code.complexityFindings bands file functions rows clock

/-- The findings of a file, from what was answered to the search for markers and to that for
functions. -/
def fileResult (files : Node) (directory : Text) (settings : Settings) (clock : Int) (file : Text)
    (marked complex : BlameResult) : FileResult := do
  return (← markerResult settings.markerWords file clock
      (markerSource? files directory file settings.markerWords) marked) ++
    (← functionResult settings.bands file clock (functionsOf files directory file) complex)

/-- A result of the work on a file, with its blame as it was answered each time. -/
def IsResult (files : Node) (directory : Text) (settings : Settings) (clock : Int)
    (answered : Text → BlameResult → Prop) (file : Text) (result : FileResult) : Prop :=
  ∃ marked complex, answered file marked ∧ answered file complex ∧
    result = fileResult files directory settings clock file marked complex

/-- With answers that are blames, a file has the findings of markers and those of functions. -/
theorem fileResult_ok (files : Node) (directory : Text) (settings : Settings) (clock : Int)
    (file : Text) (marked complex : List BlameRow) :
    fileResult files directory settings clock file (.ok marked) (.ok complex) =
      .ok (((markerSource? files directory file settings.markerWords).map fun source =>
          Marker.findings settings.markerWords file source marked clock).getD [] ++
        Code.complexityFindings settings.bands file (functionsOf files directory file) complex
          clock) := by
  have hcomplex : functionResult settings.bands file clock (functionsOf files directory file)
      (.ok complex) = .ok (Code.complexityFindings settings.bands file
        (functionsOf files directory file) complex clock) := by
    unfold functionResult
    cases functionsOf files directory file <;> rfl
  rw [fileResult, hcomplex]
  cases markerSource? files directory file settings.markerWords <;> rfl

/-- With answers that are blames, what is found in a file is a marker or a function. -/
theorem mem_found_fileResult {files : Node} {directory file : Text} {settings : Settings}
    {clock : Int} {marked complex : List BlameRow} {f : Finding}
    (h : f ∈ found (fileResult files directory settings clock file (.ok marked) (.ok complex))) :
    (∃ source, f ∈ Marker.findings settings.markerWords file source marked clock) ∨
      f ∈ Code.complexityFindings settings.bands file (functionsOf files directory file) complex
        clock := by
  rw [fileResult_ok] at h
  refine (List.mem_append.mp h).imp_left fun hmarker => ?_
  cases hsource : markerSource? files directory file settings.markerWords with
  | none =>
    rw [hsource] at hmarker
    cases hmarker
  | some source =>
    rw [hsource] at hmarker
    exact ⟨source, hmarker⟩

/-- What holds of the findings of each file holds of the findings of all. -/
theorem forall_found {names : List Text} {results : List FileResult}
    {outcome : Text → FileResult → Prop} {p : Finding → Prop}
    (h : List.Forall₂ outcome names results)
    (hp : ∀ file result, outcome file result → ∀ f ∈ found result, p f) :
    ∀ f ∈ results.flatMap found, p f := by
  induction h with
  | nil => exact List.forall_mem_nil _
  | cons hfile _ ih =>
    intro f hf
    rcases List.mem_append.mp hf with hfirst | hrest
    · exact hp _ _ hfile f hfirst
    · exact ih f hrest

/-- An invariant of the world that the work on files can rely on, whatever the steps between its own
do: the files stay as they are, events may be noted, and for every file there is something that may
be answered to the question for its blame. -/
structure WorkInvariant (inv : World → Prop) (files : Node)
    (answered : Text → BlameResult → Prop) : Prop where
  files_eq : ∀ {w}, inv w → w.files = files
  note : ∀ {w} event, inv w → inv (w.note event)
  exists_answer : ∀ file, ∃ blame, answered file blame

section Blame

variable {inv : World → Prop} {answered : BlameResult → Prop} {root file commit : Text}

/-- Asking for a blame keeps an invariant that its steps keep. What is answered is what its steps
answer: rows that are remembered, no rows, or what the command brings. -/
theorem ensures_blame_of_answers (fresh : List BlameRow → Prop) (hempty : answered (.ok []))
    (hremembered : ∀ rows w, inv w → History.remembered? file commit w = some rows →
      answered (.ok rows))
    (hrepository : ∀ w, inv w → inv (History.isRepository root w).2)
    (hask : ∀ w, inv w → (∀ e, (History.askBlame file w).1 = .error e → answered (.error e)) ∧
      (∀ rows, (History.askBlame file w).1 = .ok (some rows) → fresh rows) ∧
      inv (History.askBlame file w).2)
    (hremember : ∀ rows w, fresh rows → inv w →
      answered (.ok (History.remember file commit rows w).1) ∧
        inv (History.remember file commit rows w).2) :
    Job.Ensures inv answered (History.blame root file commit) := by
  refine (Job.Ensures.single (fun known => ∀ rows, known = some rows → answered (.ok rows))
    fun w hw => ⟨fun rows => hremembered rows w hw, hw⟩).andThen fun known hknown => ?_
  cases known with
  | some rows => exact .done (hknown rows rfl)
  | none =>
    refine (Job.Ensures.single (fun _ => True) fun w hw =>
      ⟨trivial, hrepository w hw⟩).andThen fun isRepository _ => ?_
    cases isRepository with
    | false => exact .done hempty
    | true =>
      refine (Job.Ensures.single (fun answer => (∀ e, answer = .error e → answered (.error e)) ∧
        ∀ rows, answer = .ok (some rows) → fresh rows) fun w hw =>
          ⟨⟨(hask w hw).1, (hask w hw).2.1⟩, (hask w hw).2.2⟩).andThen fun answer hanswer => ?_
      rcases answer with e | _ | rows
      · exact .done (hanswer.1 e rfl)
      · exact .done hempty
      · exact (Job.Ensures.single (fun rows => answered (.ok rows)) fun w hw =>
          hremember rows w (hanswer.2 rows rfl) hw).andThen fun rows hrows => .done hrows

/-- Asking for a blame keeps an invariant that its steps keep, and what is answered is rows or what
asking fails with. -/
theorem ensures_blame_of_steps (hrows : ∀ rows, answered (.ok rows))
    (hrepository : ∀ w, inv w → inv (History.isRepository root w).2)
    (hask : ∀ w, inv w → (∀ e, (History.askBlame file w).1 = .error e → answered (.error e)) ∧
      inv (History.askBlame file w).2)
    (hremember : ∀ rows w, inv w → inv (History.remember file commit rows w).2) :
    Job.Ensures inv answered (History.blame root file commit) :=
  ensures_blame_of_answers (fun _ => True) (hrows []) (fun rows _ _ _ => hrows rows) hrepository
    (fun w hw => ⟨(hask w hw).1, fun _ _ => trivial, (hask w hw).2⟩)
    fun rows w _ hw => ⟨hrows _, hremember rows w hw⟩

/-- Asking for a blame leaves the files alone. -/
theorem ensures_blame_files (files : Node) :
    Job.Ensures (·.files = files) (fun _ => True) (History.blame root file commit) :=
  ensures_blame_of_steps (fun _ => trivial)
    (fun w hw => (History.isRepository_settles root w).2.1.trans hw)
    (fun w hw => ⟨fun _ _ => trivial, (History.files_askBlame file w).trans hw⟩)
    fun rows w hw => (History.files_remember file commit rows w).trans hw

/-- The work on files can rely on them. -/
theorem filesInvariant (files : Node) :
    WorkInvariant (·.files = files) files (fun _ _ => True) :=
  ⟨id, fun _ hw => hw, fun _ => ⟨.ok [], trivial⟩⟩

end Blame

section Work

variable {inv : World → Prop} {files : Node} {directory file commit : Text}
  {answered : Text → BlameResult → Prop} (h : WorkInvariant inv files answered)

include h

/-- Reading a source gives that of the file, and changes nothing but the notes. -/
theorem ensures_readSource (directory file : Text) (failure : Event) :
    Job.Ensures inv (· = sourceOf? files directory file)
      (Job.single (readSource directory file failure)) := by
  refine .single _ fun w hw => ?_
  rw [← h.files_eq hw, sourceOf?, readSource]
  cases Source.read w.files (Path.append directory file) with
  | error cause => exact ⟨rfl, h.note failure hw⟩
  | ok source => exact ⟨rfl, hw⟩

/-- The search for markers gives what is found in the source, with the blame as it was answered. -/
theorem ensures_markerWork
    (hblame : Job.Ensures inv (answered file) (History.blame directory file commit))
    (words : List Text) (clock : Int) :
    Job.Ensures inv (fun result => ∃ blame, answered file blame ∧
        result = markerResult words file clock (markerSource? files directory file words) blame)
      (markerWork directory file commit words clock) := by
  obtain ⟨any, hany⟩ := h.exists_answer file
  unfold markerWork markerSource?
  split
  · exact .done ⟨any, hany, rfl⟩
  · -- the blame is asked for only when there is a source to go with it
    refine (ensures_readSource h directory file _).andThen fun source hsource => ?_
    rw [← hsource]
    cases source with
    | none => exact .done ⟨any, hany, rfl⟩
    | some source => exact hblame.andThen fun blame hanswer => .done ⟨blame, hanswer, rfl⟩

/-- The search for functions gives what is found among them, with the blame as it was answered. -/
theorem ensures_functionWork
    (hblame : Job.Ensures inv (answered file) (History.blame directory file commit))
    (bands : Code.Bands Int) (clock : Int) :
    Job.Ensures inv (fun result => ∃ blame, answered file blame ∧
        result = functionResult bands file clock (functionsOf files directory file) blame)
      (functionWork directory file commit bands clock) := by
  obtain ⟨any, hany⟩ := h.exists_answer file
  unfold functionWork functionsOf
  split
  · refine (ensures_readSource h directory file _).andThen fun source hsource => ?_
    rw [← hsource]
    -- nor is it asked for when there are no functions
    cases source.map Code.functions with
    | none => exact .done ⟨any, hany, rfl⟩
    | some functions =>
      cases functions with
      | nil => exact .done ⟨any, hany, rfl⟩
      | cons f rest => exact hblame.andThen fun blame hanswer => .done ⟨blame, hanswer, rfl⟩
  · exact .done ⟨any, hany, rfl⟩

/-- The work on a file gives what is found in it, with the blame as it was answered each time. -/
theorem ensures_fileWork
    (hblame : Job.Ensures inv (answered file) (History.blame directory file commit))
    (settings : Settings) (clock : Int) :
    Job.Ensures inv (IsResult files directory settings clock answered file)
      (fileWork directory file commit settings clock) := by
  have hmarkers := ensures_markerWork h hblame settings.markerWords clock
  have hfunctions := ensures_functionWork h hblame settings.bands clock
  refine hmarkers.andThen ?_
  rintro result ⟨marked, hmarked, hresult⟩
  cases result with
  | error e =>
    -- the functions are not looked for, so any answer stands for the one they would have been given
    exact .done ⟨marked, marked, hmarked, hmarked, by rw [fileResult, ← hresult]; rfl⟩
  | ok found =>
    refine hfunctions.andThen ?_
    rintro result ⟨complex, hcomplex, rfl⟩
    refine .done ⟨marked, complex, hmarked, hcomplex, ?_⟩
    rw [fileResult, ← hresult]
    cases functionResult settings.bands file clock (functionsOf files directory file) complex <;>
      rfl

/-- Noting lost files keeps what noting an event keeps. -/
theorem noteLost_keeps (lost : List Text) {w : World} (hw : inv w) :
    inv (lost.foldl (fun w file => w.note (.fileLost file)) w) := by
  induction lost generalizing w with
  | nil => exact hw
  | cons file rest ih => exact ih (h.note _ hw)

/-- Under every schedule the files of a scan give what is found in each of them, with the blame as
it was answered each time, and the invariant is kept. -/
theorem inspectFiles_ensures
    (hblame : ∀ file, Job.Ensures inv (answered file) (History.blame directory file commit))
    (schedule : Schedule) (settings : Settings) (clock : Int) (names : List Text) {w : World}
    (hw : inv w) :
    (∃ results, (inspectFiles schedule directory commit settings clock names w).1 =
        results.flatMap found ∧
      List.Forall₂ (IsResult files directory settings clock answered) names results) ∧
      inv (inspectFiles schedule directory commit settings clock names w).2 := by
  have hjobs : Pool.Ensures inv (IsResult files directory settings clock answered) names
      (names.map fun file => fileWork directory file commit settings clock) :=
    List.forall₂_map_right_iff.mpr (List.forall₂_same.mpr fun file _ =>
      ensures_fileWork h (hblame file) settings clock)
  obtain ⟨hresults, hinv⟩ := Pool.run_ensures hjobs hw schedule
  exact ⟨⟨_, rfl, hresults⟩, noteLost_keeps h _ hinv⟩

/-- Choosing the files of a scan is only noted. -/
theorem selectFiles_keeps (directory : Text) (settings : Settings) {w : World} (hw : inv w) :
    inv (selectFiles directory settings w).2 := by
  unfold selectFiles
  rcases sourceFiles w.files directory settings with _ | ⟨names, _ | event⟩
  · exact hw
  · show inv { w with events := w.events ++ [] }
    rwa [List.append_nil]
  · exact h.note event hw

end Work

/-- The first half of a scan: its commit, its files, and what is found in them. -/
def search (schedule : Schedule) (root : Text) (settings : Settings) (w : World) :
    Except Fault (Text × List Text × List Finding) × World :=
  match currentCommit root w with
  | (.error e, w) => (.error e, w)
  | (.ok commit, start) =>
    match selectFiles root settings start with
    | (.error e, w) => (.error (.discovery e), w)
    | (.ok files, w) =>
      let (inFiles, w) := inspectFiles schedule root commit settings start.clock files
        (w.note (.scanStarted files.length commit))
      (.ok (commit, files, inFiles), w)

/-- A scan searches its files, and then concludes. -/
theorem scan_eq_search (schedule : Schedule) (root : Text) (settings : Settings) (w : World) :
    scan schedule root settings w =
      match search schedule root settings w with
      | (.error e, w) => (.error e, w)
      | (.ok (commit, files, inFiles), after) =>
        let (result, after) := conclude root settings commit w.clock files inFiles after
        (result.map fun map => (map, progress schedule files), after) := by
  rw [scan_eq, search]
  rcases hcommit : currentCommit root w with ⟨_ | commit, start⟩
  · rfl
  rw [← (currentCommit_settles hcommit).2.2]
  simp only
  rcases selectFiles root settings start with ⟨_ | files, chosen⟩ <;> rfl

/-- Without a workspace there is no commit to find. -/
theorem currentCommit_of_missing {root : Text} {w : World} (hroot : ¬w.files.hasDirectory root) :
    currentCommit root w = (.error (.noWorkspace root), w) := by
  rw [currentCommit, if_neg hroot]

/-- The search of a scan fails for want of its files only, once there is a commit. Else it gives
what is found in each of the files, with the blame as it was answered each time. The invariant is
kept. -/
theorem search_ensures {inv : World → Prop} {files : Node} {root commit : Text}
    {answered : Text → BlameResult → Prop} {w start : World}
    (h : WorkInvariant inv files answered) (hcommit : currentCommit root w = (.ok commit, start))
    (hblame : ∀ file, Job.Ensures inv (answered file) (History.blame root file commit))
    (schedule : Schedule) (settings : Settings) (hstart : inv start) :
    ∃ after, inv after ∧
      match sourceFiles files root settings with
      | .error cause => search schedule root settings w = (.error (.discovery cause), after)
      | .ok (names, _) => ∃ results,
          search schedule root settings w = (.ok (commit, names, results.flatMap found), after) ∧
          List.Forall₂ (IsResult files root settings start.clock answered) names results := by
  have hchosen := selectFiles_keeps h root settings hstart
  rw [search, hcommit, ← h.files_eq hstart]
  simp only
  rcases hselect : selectFiles root settings start with ⟨cause | names, chosen⟩ <;>
    rw [hselect] at hchosen
  · rw [error_of_selectFiles hselect]
    exact ⟨chosen, hchosen, rfl⟩
  · -- that the scan has started is noted, and then the pool takes over
    obtain ⟨⟨event, hsource⟩, -⟩ := eq_of_selectFiles hselect
    obtain ⟨⟨results, hfound, hresults⟩, hinv⟩ := inspectFiles_ensures h hblame schedule settings
      start.clock names (h.note (.scanStarted names.length commit) hchosen)
    rw [hsource, h.files_eq hstart]
    refine ⟨_, hinv, results, ?_, hresults⟩
    rw [← hfound]

/-- The findings of a scan are those of its files, each as it was searched, those of its audit, in
the world that the search leaves, and the stale ones of its files. -/
theorem parts_of_scan {inv : World → Prop} {files : Node} {answered : Text → BlameResult → Prop}
    {schedule : Schedule} {root : Text} {settings : Settings} {w : World} {map : DebtMap}
    {steps : List Progress} (h : WorkInvariant inv files answered)
    (hstart : ∀ {commit start}, currentCommit root w = (.ok commit, start) → inv start)
    (hblame : ∀ file commit, Job.Ensures inv (answered file) (History.blame root file commit))
    (hscan : (scan schedule root settings w).1 = .ok (map, steps)) :
    ∃ names event results dependencies stale,
      inv (search schedule root settings w).2 ∧
      sourceFiles files root settings = .ok (names, event) ∧
      List.Forall₂ (IsResult files root settings w.clock answered) names results ∧
      (Audit.scan root settings.auditCommand Audit.limits
        (search schedule root settings w).2).1 = .ok dependencies ∧
      (Staleness.scan root settings.staleDays settings.staleImports
        (Imports.graph files root names).1 w.clock names
        (Audit.scan root settings.auditCommand Audit.limits
          (search schedule root settings w).2).2).1 = .ok stale ∧
      map.findings = results.flatMap found ++ dependencies ++ stale := by
  rw [scan_eq_search] at hscan
  rcases hcommit : currentCommit root w with ⟨_ | commit, start⟩
  · rw [search, hcommit] at hscan
    cases hscan
  obtain ⟨after, hafter, hsearch⟩ := search_ensures h hcommit (fun file => hblame file commit)
    schedule settings (hstart hcommit)
  rw [(currentCommit_settles hcommit).2.2] at hsearch
  rcases hsource : sourceFiles files root settings with cause | ⟨names, event⟩ <;>
    rw [hsource] at hsearch
  · rw [hsearch] at hscan
    cases hscan
  obtain ⟨results, hsearch, hresults⟩ := hsearch
  rw [hsearch] at hscan ⊢
  rcases hend : conclude root settings commit w.clock names (results.flatMap found) after
    with ⟨_ | concluded, last⟩ <;> simp only [hend] at hscan
  · cases hscan
  obtain ⟨rfl, -⟩ := Prod.mk.inj (Except.ok.inj hscan)
  obtain ⟨dependencies, stale, haudit, hstale, hfindings, -⟩ :=
    eq_of_conclude (congrArg Prod.fst hend)
  rw [h.files_eq hafter] at hstale
  exact ⟨names, event, results, dependencies, stale, hafter, rfl, hresults, haudit, hstale,
    hfindings⟩

end Scan

end DebtSurvey
