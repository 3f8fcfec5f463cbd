import DebtSurvey.Proofs.FileOutcome

/-!
# Once it is known whether there is a history

From the first question on it is remembered whether a workspace has a history, and whether the user
has been told that there is none. As long as the two memories agree (`Scan.Ready`), nothing that a
scan wants from history asks that question again; and without a history nothing is asked at all, no
blame is remembered, and the user is told nothing more (`Scan.Since`).

The relation is followed through each way to ask for history. Each of them has a guard of its own
against a missing history, and each guard is a case of its lemma.

## Main results

* `Scan.Ready.ensures_blame`: asking for a blame, as a job among others.
* `Scan.Since.scanCommit`: finding the commit of a scan.
* `Scan.Since.staleness`: the search for stale files.
-/

namespace DebtSurvey

namespace History

/-- The command line that asks whether there is a history. -/
def probeLine : Text := line probe

/-- Asking for a blame is another command. -/
theorem blameLine_ne_probeLine (file : Text) : blameLine file ≠ probeLine := by
  -- they differ in the name of the subcommand, which comes before the file
  intro h
  have hplace : (blameLine file)[4]? = probeLine[4]? := by rw [h]
  exact absurd (Option.some.inj hplace) (by decide)

/-- Asking for the last commit of a file is another command. -/
theorem lastLine_ne_probeLine (file : Text) : line (lastArguments file) ≠ probeLine := by
  intro h
  have hplace : (line (lastArguments file))[4]? = probeLine[4]? := by rw [h]
  exact absurd (Option.some.inj hplace) (by decide)

/-- Asking for the current commit is another command. -/
theorem currentLine_ne_probeLine : line currentArguments ≠ probeLine := by decide

/-- What is known about a history is not asked. -/
theorem isRepository_of_known {root : Text} {w : World} {known : Bool}
    (h : w.memory.repository = some known) : isRepository root w = (known, w) := by
  rw [isRepository, h]

/-- Whether there is a history is known once it was asked. -/
theorem repository_isRepository (root : Text) (w : World) :
    (isRepository root w).2.memory.repository = some (isRepository root w).1 := by
  cases hknown : w.memory.repository with
  | some known => rw [isRepository_of_known hknown, hknown]
  | none =>
    obtain ⟨result, host, hask⟩ := exists_ask probe w
    rw [isRepository, hknown]
    simp only [hask]
    cases result <;> rfl

end History

open History (probeLine)

namespace Scan

/-- It is known whether there is a history, the user has been told if there is none, and then there
are no blames. -/
structure Ready (known : Bool) (w : World) : Prop where
  repository : w.memory.repository = some known
  noticed : w.noticed = !known
  blames : known = false → w.memory.blames = []

/-- Nothing has happened since a world but that the version control program was asked for something
other than whether there is a history, and that only if there is one. -/
structure Since (known : Bool) (start w : World) : Prop where
  files : w.files = start.files
  repository : w.memory.repository = start.memory.repository
  noticed : w.noticed = start.noticed
  notices : w.notices = start.notices
  probes : w.host.calls.count probeLine = start.host.calls.count probeLine
  idle : known = false → w.memory.blames = start.memory.blames ∧ w.host.calls = start.host.calls

section Since

variable {known : Bool} {start w v : World}

theorem Since.refl (known : Bool) (w : World) : Since known w w :=
  ⟨rfl, rfl, rfl, rfl, rfl, fun _ => ⟨rfl, rfl⟩⟩

theorem Since.note (h : Since known start w) (event : Event) : Since known start (w.note event) :=
  ⟨h.files, h.repository, h.noticed, h.notices, h.probes, h.idle⟩

/-- What was known is known still. -/
theorem Since.ready (h : Since known start w) (hstart : Ready known start) : Ready known w where
  repository := h.repository.trans hstart.repository
  noticed := h.noticed.trans hstart.noticed
  blames hknown := (h.idle hknown).1.trans (hstart.blames hknown)

/-- What is known is not asked. -/
theorem Ready.isRepository (h : Ready known w) (root : Text) :
    History.isRepository root w = (known, w) :=
  History.isRepository_of_known h.repository

/-- Where there is a history it may be asked for anything else. -/
theorem Since.ask (h : Since true start w) {arguments : List Text}
    (hline : History.line arguments ≠ probeLine) :
    Since true start (History.ask arguments w).2 := by
  refine ⟨h.files, h.repository, h.noticed, h.notices, ?_, nofun⟩
  show (w.host.calls ++ [History.line arguments]).count probeLine = _
  rw [List.count_append, List.count_singleton, if_neg (by simpa using hline), Nat.add_zero,
    h.probes]

theorem Since.currentCommit (h : Since known start w) (hready : Ready known w) (root : Text) :
    Since known start (History.currentCommit root w).2 := by
  rw [History.currentCommit, hready.isRepository root]
  cases known with
  | false => exact h
  | true =>
    have hask := h.ask History.currentLine_ne_probeLine
    simp only
    rcases hanswer : History.ask History.currentArguments w with ⟨_ | output, u⟩ <;>
      rw [hanswer] at hask
    · exact hask.note _
    · exact hask

theorem Since.askBlame (h : Since true start w) (file : Text) :
    Since true start (History.askBlame file w).2 := by
  have hask := h.ask (History.blameLine_ne_probeLine file)
  unfold History.askBlame
  rcases hanswer : History.ask (History.blameArguments file) w with ⟨_ | output, u⟩ <;>
    rw [hanswer] at hask
  · exact hask.note _
  · simp only
    cases Porcelain.parse output <;> exact hask

theorem Since.remember (h : Since true start w) (file commit : Text) (rows : List BlameRow) :
    Since true start (History.remember file commit rows w).2 := by
  unfold History.remember
  cases History.remembered? file commit w with
  | some known => exact h
  | none => exact ⟨h.files, h.repository, h.noticed, h.notices, h.probes, nofun⟩

/-- Asking for the last commit of a file. Without a history there is none. -/
theorem Since.lastModified (h : Since known start w) (hready : Ready known w) (root file : Text) :
    Since known start (History.lastModified root file w).2 ∧
      (known = false → (History.lastModified root file w).1 = none) := by
  rw [History.lastModified, hready.isRepository root]
  cases known with
  | false => exact ⟨h, fun _ => rfl⟩
  | true =>
    refine ⟨?_, nofun⟩
    have hask := h.ask (History.lastLine_ne_probeLine file)
    simp only
    rcases hanswer : History.ask (History.lastArguments file) w with ⟨_ | output, u⟩ <;>
      rw [hanswer] at hask
    · exact hask.note _
    · simp only
      split
      · exact hask
      · split
        · exact hask
        · exact hask.note _

/-- Asking for a blame, as a job. Without a history it is empty. -/
theorem Ready.ensures_blame (hstart : Ready known start) (root file commit : Text) :
    Job.Ensures (Since known start) (fun answer => known = false → answer = .ok [])
      (History.blame root file commit) := by
  cases known with
  | false =>
    -- nothing is remembered, and there is nothing to ask
    refine (Job.Ensures.single (fun rows => rows = none) fun w hw => ⟨?_, hw⟩).andThen ?_
    · rw [History.remembered?, (hw.ready hstart).blames rfl]
      rfl
    rintro rows rfl
    refine (Job.Ensures.single (fun isRepository => isRepository = false) fun w hw => ?_).andThen ?_
    · rw [(hw.ready hstart).isRepository root]
      exact ⟨rfl, hw⟩
    rintro isRepository rfl
    exact .done fun _ => rfl
  | true =>
    -- here only what is run matters, not what is answered
    have hany : ∀ answer : BlameResult, true = false → answer = .ok [] := fun _ h => by cases h
    refine ensures_blame_of_steps (fun _ => hany _) (fun w hw => ?_)
      (fun w hw => ⟨fun _ _ => hany _, hw.askBlame file⟩) fun rows w hw =>
        hw.remember file commit rows
    rw [(hw.ready hstart).isRepository root]
    exact hw

/-- The work on files can rely on this, and on blames being empty without a history. -/
theorem Since.workInvariant (known : Bool) (start : World) :
    WorkInvariant (Since known start) start.files fun _ answer => known = false → answer = .ok [] :=
  ⟨fun hw => hw.files, fun event hw => hw.note event, fun _ => ⟨.ok [], fun _ => rfl⟩⟩

/-- Finding the commit of a scan. Without a history it is empty, and the user knows already. -/
theorem Since.scanCommit (h : Since known start w) (hready : Ready known w) (root : Text) :
    Since known start (Scan.currentCommit root w).2 ∧
      ∀ commit, known = false → (Scan.currentCommit root w).1 = .ok commit → commit = [] := by
  unfold Scan.currentCommit
  rw [hready.isRepository root]
  split
  · cases known with
    | true => exact ⟨h.currentCommit hready root, nofun⟩
    | false =>
      refine ⟨?_, fun commit _ hcommit => (Except.ok.inj hcommit).symm⟩
      have htold : w.noticed = true := hready.noticed
      show Since false start (tellNoHistory w)
      rw [tellNoHistory, if_pos htold]
      exact h
  · exact ⟨h, fun commit _ hcommit => nomatch hcommit⟩

/-- Looking whether a file is stale. Without a history it is not. -/
theorem Since.inspect (h : Since known start w) (hready : Ready known w) (root : Text)
    (daysThreshold importThreshold : Int) (fanIn : FanIn) (clock : Int) (file : Text) :
    Since known start (Staleness.inspect root daysThreshold importThreshold fanIn clock file w).2 ∧
      (known = false →
        (Staleness.inspect root daysThreshold importThreshold fanIn clock file w).1 =
          .ok none) := by
  obtain ⟨hlast, hnone⟩ := h.lastModified hready root file
  unfold Staleness.inspect
  rcases hfile : History.lastModified root file w with ⟨_ | ⟨commit, moment⟩, u⟩ <;>
    rw [hfile] at hlast hnone
  · exact ⟨hlast, fun _ => rfl⟩
  · refine ⟨hlast, fun hknown => ?_⟩
    cases hnone hknown

/-- Looking which files are stale. Without a history none is. -/
theorem Since.inspectAll (hstart : Ready known start) (root : Text)
    (daysThreshold importThreshold : Int) (fanIn : FanIn) (clock : Int) (files : List Text)
    {w : World} (h : Since known start w) :
    Since known start
        (Staleness.inspectAll root daysThreshold importThreshold fanIn clock files w).2 ∧
      (known = false →
        (Staleness.inspectAll root daysThreshold importThreshold fanIn clock files w).1 =
          .ok []) := by
  induction files generalizing w with
  | nil => exact ⟨h, fun _ => rfl⟩
  | cons file rest ih =>
    obtain ⟨hfirst, hnone⟩ := h.inspect (h.ready hstart) root daysThreshold importThreshold fanIn
      clock file
    rw [Staleness.inspectAll]
    rcases hfile : Staleness.inspect root daysThreshold importThreshold fanIn clock file w
      with ⟨_ | found, u⟩ <;> rw [hfile] at hfirst hnone
    · refine ⟨hfirst, fun hknown => ?_⟩
      cases hnone hknown
    · obtain ⟨hrest, hnil⟩ := ih hfirst
      refine ⟨hrest, fun hknown => ?_⟩
      obtain rfl : found = none := Except.ok.inj (hnone hknown)
      simp only [hnil hknown]
      rfl

/-- Searching for stale files. Without a history there are none. -/
theorem Since.staleness (hstart : Ready known start) (root : Text)
    (daysThreshold importThreshold : Int) (fanIn : FanIn) (clock : Int) (files : List Text)
    {w : World} (h : Since known start w) :
    Since known start (Staleness.scan root daysThreshold importThreshold fanIn clock files w).2 ∧
      ∀ stale, known = false →
        (Staleness.scan root daysThreshold importThreshold fanIn clock files w).1 = .ok stale →
          stale = [] := by
  obtain ⟨hall, hnil⟩ := Since.inspectAll hstart root daysThreshold importThreshold fanIn clock
    files h
  unfold Staleness.scan
  rcases hfound : Staleness.inspectAll root daysThreshold importThreshold fanIn clock files w
    with ⟨_ | found, u⟩ <;> rw [hfound] at hall hnil
  · exact ⟨hall, fun stale _ hstale => nomatch hstale⟩
  · refine ⟨hall.note _, fun stale hknown hstale => ?_⟩
    obtain rfl : found = stale := Except.ok.inj hstale
    exact Except.ok.inj (hnil hknown)

end Since

end Scan

end DebtSurvey
