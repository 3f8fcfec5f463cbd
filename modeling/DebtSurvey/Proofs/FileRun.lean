import DebtSurvey.Proofs.FileOutcome

/-!
# The work on a file, run on its own

Run on its own, the search for markers is one look at the blame, if there is a source to search; and
so is the search for functions, if there are functions. Otherwise nothing happens but that a file that
cannot be read is noted.

## Main results

* `Scan.run_markerWork_of_some`, `Scan.run_markerWork_of_none`: the search for markers.
* `Scan.run_functionWork_of_cons`, `Scan.run_functionWork_of_nil`: the search for functions.
* `Scan.fst_run_markerWork`, `Scan.fst_run_functionWork`: what either comes to.
* `Scan.run_fileWork`: both, one after the other.
-/

namespace DebtSurvey.Scan

variable {directory file commit : Text} {clock : Int} {w : World}

/-- A source that is searched for markers can be read. -/
theorem sourceOf?_of_markerSource? {files : Node} {words : List Text} {source : Text}
    (h : markerSource? files directory file words = some source) :
    sourceOf? files directory file = some source := by
  unfold markerSource? at h
  split at h
  · cases h
  · exact h

/-- Functions are those of a source that can be read, in a language that they are looked for in. -/
theorem exists_sourceOf?_of_functionsOf {files : Node} (h : functionsOf files directory file ≠ []) :
    Imports.hasSourceExtension file ∧ ∃ source, sourceOf? files directory file = some source ∧
      functionsOf files directory file = Code.functions source := by
  unfold functionsOf at h ⊢
  split at h
  · rename_i hextension
    refine ⟨hextension, ?_⟩
    cases hsource : sourceOf? files directory file with
    | none =>
      rw [hsource] at h
      exact absurd rfl h
    | some source => exact ⟨source, rfl, by rw [if_pos hextension]; rfl⟩
  · exact absurd rfl h

/-- What the search for markers comes to are findings in the source of the file, with the rows that
were answered. -/
theorem mem_findings_of_markerResult {files : Node} {words : List Text} {blame : BlameResult}
    {found : List Finding} {f : Finding}
    (h : markerResult words file clock (markerSource? files directory file words) blame = .ok found)
    (hf : f ∈ found) :
    ∃ source rows, sourceOf? files directory file = some source ∧ blame = .ok rows ∧
      f ∈ Marker.findings words file source rows clock := by
  unfold markerResult at h
  split at h
  · obtain rfl := Except.ok.inj h
    cases hf
  · rename_i source hsource
    cases blame with
    | error e => cases h
    | ok rows =>
      obtain rfl := Except.ok.inj h
      exact ⟨source, rows, sourceOf?_of_markerSource? hsource, rfl, hf⟩

/-- What the search for functions comes to are findings among the functions, with the rows that were
answered. -/
theorem mem_complexityFindings_of_functionResult {bands : Code.Bands Int}
    {functions : List Code.Function} {blame : BlameResult} {found : List Finding} {f : Finding}
    (h : functionResult bands file clock functions blame = .ok found) (hf : f ∈ found) :
    ∃ rows, blame = .ok rows ∧ f ∈ Code.complexityFindings bands file functions rows clock := by
  unfold functionResult at h
  split at h
  · obtain rfl := Except.ok.inj h
    cases hf
  · cases blame with
    | error e => cases h
    | ok rows =>
      obtain rfl := Except.ok.inj h
      exact ⟨rows, rfl, hf⟩

/-- Reading a source changes nothing but the notes. -/
theorem exists_run_readSource (failure : Event) (w : World) :
    ∃ events, readSource directory file failure w =
      (sourceOf? w.files directory file, { w with events }) := by
  unfold readSource sourceOf?
  cases Source.read w.files (Path.append directory file) with
  | error cause => exact ⟨_, rfl⟩
  | ok source => exact ⟨w.events, rfl⟩

/-- A source that can be read is read without a note. -/
theorem readSource_of_some {source : Text} (h : sourceOf? w.files directory file = some source)
    (failure : Event) : readSource directory file failure w = (some source, w) := by
  unfold sourceOf? at h
  unfold readSource
  cases hread : Source.read w.files (Path.append directory file) with
  | error cause =>
    rw [hread] at h
    cases h
  | ok text =>
    rw [hread] at h
    obtain rfl := Option.some.inj h
    rfl

/-- Where there is no source to search for markers, none is found and no blame is asked for. -/
theorem run_markerWork_of_none {words : List Text}
    (h : markerSource? w.files directory file words = none) :
    ∃ events, (markerWork directory file commit words clock).run w = (.ok [], { w with events }) := by
  unfold markerSource? at h
  unfold markerWork
  split at h
  · rename_i hwords
    rw [if_pos hwords]
    exact ⟨w.events, rfl⟩
  · -- without a source there is nothing to ask the blame for, and the failure is noted
    rename_i hwords
    obtain ⟨events, hread⟩ := exists_run_readSource (.markersSkipped file) w
    rw [if_neg hwords, Job.run_andThen, Job.run_single, hread, h]
    exact ⟨events, rfl⟩

/-- A source is searched for markers with the blame of its file. -/
theorem run_markerWork_of_some {words : List Text} {source : Text}
    (h : markerSource? w.files directory file words = some source) :
    (markerWork directory file commit words clock).run w =
      (((History.blame directory file commit).run w).1.map fun rows =>
        Marker.findings words file source rows clock,
        ((History.blame directory file commit).run w).2) := by
  unfold markerSource? at h
  unfold markerWork
  split at h
  · cases h
  · rename_i hwords
    rw [if_neg hwords, Job.run_andThen, Job.run_single, readSource_of_some h]
    simp only [Job.run_andThen]
    rfl

/-- Where there are no functions, none is found and no blame is asked for. -/
theorem run_functionWork_of_nil {bands : Code.Bands Int}
    (h : functionsOf w.files directory file = []) :
    ∃ events, (functionWork directory file commit bands clock).run w =
      (.ok [], { w with events }) := by
  unfold functionsOf at h
  unfold functionWork
  split at h
  · rename_i hextension
    obtain ⟨events, hread⟩ := exists_run_readSource (.functionsSkipped file) w
    rw [if_pos hextension, Job.run_andThen, Job.run_single, hread]
    refine ⟨events, ?_⟩
    cases hsource : sourceOf? w.files directory file with
    | none => rfl
    | some source =>
      rw [hsource] at h
      simp only [Option.map_some, show Code.functions source = [] from h]
      rfl
  · rename_i hextension
    rw [if_neg hextension]
    exact ⟨w.events, rfl⟩

/-- Functions are looked at with the blame of their file. -/
theorem run_functionWork_of_cons {bands : Code.Bands Int}
    (h : functionsOf w.files directory file ≠ []) :
    (functionWork directory file commit bands clock).run w =
      (((History.blame directory file commit).run w).1.map fun rows =>
        Code.complexityFindings bands file (functionsOf w.files directory file) rows clock,
        ((History.blame directory file commit).run w).2) := by
  unfold functionsOf at h ⊢
  unfold functionWork
  split at h
  · rename_i hextension
    rw [if_pos hextension, if_pos hextension, Job.run_andThen, Job.run_single]
    cases hsource : sourceOf? w.files directory file with
    | none =>
      rw [hsource] at h
      exact absurd rfl h
    | some source =>
      rw [hsource] at h
      rw [readSource_of_some hsource]
      obtain ⟨function, rest, hfunctions⟩ :=
        List.exists_cons_of_ne_nil (show Code.functions source ≠ [] from h)
      simp only [Option.map_some, Option.getD_some, hfunctions, Job.run_andThen]
      rfl
  · exact absurd rfl h

/-- What the search for markers comes to, from what is answered when the blame is asked for. -/
theorem fst_run_markerWork {words : List Text} :
    ((markerWork directory file commit words clock).run w).1 =
      markerResult words file clock (markerSource? w.files directory file words)
        ((History.blame directory file commit).run w).1 := by
  cases hsource : markerSource? w.files directory file words with
  | none =>
    obtain ⟨events, hrun⟩ : ∃ events, (markerWork directory file commit words clock).run w =
      (.ok [], { w with events }) := run_markerWork_of_none hsource
    rw [hrun]
    rfl
  | some source =>
    rw [run_markerWork_of_some hsource]
    rfl

/-- What the search for functions comes to, from what is answered when the blame is asked for. -/
theorem fst_run_functionWork {bands : Code.Bands Int} :
    ((functionWork directory file commit bands clock).run w).1 =
      functionResult bands file clock (functionsOf w.files directory file)
        ((History.blame directory file commit).run w).1 := by
  unfold functionResult
  split
  · rename_i hnone
    obtain ⟨events, hrun⟩ : ∃ events, (functionWork directory file commit bands clock).run w =
      (.ok [], { w with events }) := run_functionWork_of_nil hnone
    rw [hrun]
  · rename_i hsome
    rw [run_functionWork_of_cons hsome]

/-- The work on a file is the search for markers, and then that for functions unless the first broke
off. -/
theorem run_fileWork {settings : Settings} :
    (fileWork directory file commit settings clock).run w =
      match (markerWork directory file commit settings.markerWords clock).run w with
      | (.error e, w) => (.error e, w)
      | (.ok marked, w) =>
        (((functionWork directory file commit settings.bands clock).run w).1.map (marked ++ ·),
          ((functionWork directory file commit settings.bands clock).run w).2) := by
  unfold fileWork
  rw [Job.run_andThen]
  rcases (markerWork directory file commit settings.markerWords clock).run w with ⟨_ | marked, v⟩
  · rfl
  · simp only [Job.run_andThen]
    rfl

end DebtSurvey.Scan
