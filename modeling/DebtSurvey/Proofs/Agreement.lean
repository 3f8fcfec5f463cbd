import DebtSurvey.Proofs.WorldPart
import DebtSurvey.Scan.Session

/-!
# Worlds that agree

After the work on files a scan audits the dependencies, counts imports and looks for stale files.
What these come to depends on the parts of the world only, so worlds that agree on all parts cannot
be told apart by them, and agree afterwards as well.

## Main results

* `World.Alike`: the same answer, in worlds that agree.
* `History.lastModified_congr`, `Audit.scan_congr`, `Scan.countImports_congr` and
  `Staleness.scan_congr`: each comes to outcomes that are alike from worlds that agree.
-/

namespace DebtSurvey

namespace Host

/-- What an answer to a command line that may be empty means to the one who ran it. -/
def interpretLine (command : List Text) (seconds : Number) (answer : Answer) :
    Except RunError Text :=
  match command, answer with
  | program :: _, _ => (interpret program (key command) seconds answer).mapError .command
  | [], .exited .. => (interpret [] [] seconds answer).mapError .command
  | [], _ => .error .noProgram

/-- Running a command line is asking for one answer and reading it. -/
theorem runLine_eq (command : List Text) (seconds : Number) (host : Host) :
    host.runLine command seconds =
      (interpretLine command seconds (host.ask (key command)).1, (host.ask (key command)).2) := by
  cases command with
  | cons program arguments => rfl
  | nil =>
    -- an empty command line is asked for as well, but not every answer to it is reported
    show host.runLine [] seconds =
      (interpretLine [] seconds (host.ask []).1, (host.ask []).2)
    unfold runLine
    rcases host.ask [] with ⟨answer, host⟩
    cases answer <;> rfl

end Host

namespace World.Agree

variable {w v : World}

/-- Every world agrees with itself. -/
theorem refl (w : World) : w.Agree w := fun _ => rfl

/-- Agreement is passed on. -/
theorem trans {u : World} (h : w.Agree v) (h' : v.Agree u) : w.Agree u :=
  fun line => (h line).trans (h' line)

/-- Worlds that agree hold the same files. -/
theorem files (h : w.Agree v) : w.files = v.files := congrArg Part.files (h [])

/-- Worlds that agree show the same time. -/
theorem clock (h : w.Agree v) : w.clock = v.clock := congrArg Part.clock (h [])

/-- Worlds that agree know the same about whether there is a history. -/
theorem repository (h : w.Agree v) : w.memory.repository = v.memory.repository :=
  congrArg Part.repository (h [])

/-- Notes do not matter to agreement. -/
theorem note (h : w.Agree v) (event other : Event) : (w.note event).Agree (v.note other) := h

/-- Worlds that agree give the same answer to a command line, and agree after it. -/
theorem ask (h : w.Agree v) (line : Text) :
    (w.host.ask line).1 = (v.host.ask line).1 ∧
      ({ w with host := (w.host.ask line).2 } : World).Agree
        { v with host := (v.host.ask line).2 } := by
  refine ⟨?_, fun key => ?_⟩
  · rw [World.fst_ask, World.fst_ask, h line]
  · rw [World.part_ask, World.part_ask, h key]

/-- Learning whether there is a history keeps worlds in agreement. -/
theorem setRepository (h : w.Agree v) (known : Bool) :
    ({ w with memory := { w.memory with repository := some known } } : World).Agree
      { v with memory := { v.memory with repository := some known } } :=
  fun line => congrArg (fun p : Part => { p with repository := some known }) (h line)

end World.Agree

namespace World

variable {α : Type}

/-- Outcomes that are alike: the same answer, in worlds that agree. -/
inductive Alike : α × World → α × World → Prop
  /-- An answer in one world and in another that agrees with it. -/
  | intro (answer : α) {w v : World} (h : w.Agree v) : Alike (answer, w) (answer, v)

/-- Outcomes with the same answer are alike when their worlds agree. -/
theorem Alike.of_eq {p q : α × World} (hanswer : p.1 = q.1) (hagree : p.2.Agree q.2) :
    Alike p q := by
  obtain ⟨answer, w⟩ := p
  obtain ⟨answer', v⟩ := q
  obtain rfl : answer = answer' := hanswer
  exact .intro answer hagree

/-- Outcomes that are alike have the same answer. -/
theorem Alike.fst_eq {p q : α × World} (h : Alike p q) : p.1 = q.1 := by
  cases h
  rfl

/-- Outcomes that are alike are in worlds that agree. -/
theorem Alike.agree {p q : α × World} (h : Alike p q) : p.2.Agree q.2 := by
  cases h with
  | intro answer hagree => exact hagree

end World

open World (Alike)

namespace History

variable {w v : World}

/-- The version control program answers alike in worlds that agree. -/
theorem ask_congr (h : w.Agree v) (arguments : List Text) :
    Alike (ask arguments w) (ask arguments v) := by
  obtain ⟨hanswer, hagree⟩ := h.ask (line arguments)
  exact .of_eq (congrArg (Host.interpret "git" (line arguments) patience) hanswer) hagree

/-- Whether there is a history is alike in worlds that agree. -/
theorem isRepository_congr (h : w.Agree v) (root : Text) :
    Alike (isRepository root w) (isRepository root v) := by
  have hask := ask_congr h probe
  unfold isRepository
  rw [← h.repository]
  cases w.memory.repository with
  | some known => exact .intro known h
  | none =>
    -- both worlds ask, and both learn the same
    generalize ask probe w = p, ask probe v = q at hask ⊢
    obtain ⟨result, hagree⟩ := hask
    cases result with
    | error cause => exact .intro false ((hagree.note _ _).setRepository false)
    | ok output => exact .intro true (hagree.setRepository true)

/-- The last commit of a file is alike in worlds that agree. -/
theorem lastModified_congr (h : w.Agree v) (root file : Text) :
    Alike (lastModified root file w) (lastModified root file v) := by
  have hknown := isRepository_congr h root
  unfold lastModified
  generalize isRepository root w = p, isRepository root v = q at hknown ⊢
  obtain ⟨known, hagree⟩ := hknown
  rename_i w' v'
  cases known with
  | false => exact .intro none hagree
  | true =>
    have hask := ask_congr hagree (lastArguments file)
    simp only
    generalize ask (lastArguments file) w' = p, ask (lastArguments file) v' = q at hask ⊢
    obtain ⟨result, hagree⟩ := hask
    cases result with
    | error cause => exact .intro none (hagree.note _ _)
    | ok output =>
      simp only
      split
      · exact .intro none hagree
      · split
        · exact .intro _ hagree
        · exact .intro none (hagree.note _ _)

end History

/-- An audit comes to outcomes that are alike in worlds that agree. -/
theorem Audit.scan_congr {w v : World} (h : w.Agree v) (directory : Text) (command : List Text)
    (limits : Limits) :
    Alike (scan directory command limits w) (scan directory command limits v) := by
  obtain ⟨hanswer, hagree⟩ := h.ask (Host.key command)
  have hpath : v.files.hasPath (Path.append directory manifest) =
      w.files.hasPath (Path.append directory manifest) := by rw [h.files]
  unfold scan
  rw [hpath]
  split
  · simp only [Host.runLine_eq, ← hanswer]
    cases Host.interpretLine command limits.seconds (w.host.ask (Host.key command)).1 with
    | error cause =>
      cases cause with
      | noProgram => exact .intro _ hagree
      | command cause => exact .intro _ (hagree.note _ _)
    | ok output =>
      simp only
      split
      · exact .intro _ hagree
      · exact .intro _ hagree
      · exact .intro _ (hagree.note _ _)
  · exact .intro _ h

/-- An audit leaves the files alone. -/
theorem Audit.files_scan (directory : Text) (command : List Text) (limits : Limits) (w : World) :
    (scan directory command limits w).2.files = w.files := by
  unfold scan
  split
  · rcases w.host.runLine command limits.seconds with ⟨result, host⟩
    simp only
    split
    · rfl
    · rfl
    · split <;> rfl
  · rfl

/-- The fan-in of files is alike in worlds that agree. -/
theorem Scan.countImports_congr {w v : World} (h : w.Agree v) (root : Text) (files : List Text) :
    Alike (countImports root files w) (countImports root files v) := by
  have hgraph : Imports.graph v.files root files = Imports.graph w.files root files := by
    rw [h.files]
  unfold countImports
  rw [hgraph]
  exact .intro _ h

namespace Staleness

variable {w v : World}

/-- Whether a file is stale is alike in worlds that agree. -/
theorem inspect_congr (h : w.Agree v) (root : Text) (daysThreshold importThreshold : Int)
    (fanIn : FanIn) (clock : Int) (file : Text) :
    Alike (inspect root daysThreshold importThreshold fanIn clock file w)
      (inspect root daysThreshold importThreshold fanIn clock file v) := by
  have hlast := History.lastModified_congr h root file
  unfold inspect
  generalize History.lastModified root file w = p, History.lastModified root file v = q at hlast ⊢
  obtain ⟨last, hagree⟩ := hlast
  cases last with
  | none => exact .intro _ hagree
  | some last => exact .intro _ hagree

/-- The stale files among some files are alike in worlds that agree. -/
theorem inspectAll_congr (h : w.Agree v) (root : Text) (daysThreshold importThreshold : Int)
    (fanIn : FanIn) (clock : Int) (files : List Text) :
    Alike (inspectAll root daysThreshold importThreshold fanIn clock files w)
      (inspectAll root daysThreshold importThreshold fanIn clock files v) := by
  induction files generalizing w v with
  | nil => exact .intro _ h
  | cons file rest ih =>
    have hfound := inspect_congr h root daysThreshold importThreshold fanIn clock file
    simp only [inspectAll]
    generalize inspect root daysThreshold importThreshold fanIn clock file w = p,
      inspect root daysThreshold importThreshold fanIn clock file v = q at hfound ⊢
    obtain ⟨found, hagree⟩ := hfound
    cases found with
    | error e => exact .intro _ hagree
    | ok found =>
      -- the worlds after the first file agree again, so the others go alike
      have hothers := ih hagree
      exact .of_eq (congrArg (·.map (found.toList ++ ·)) hothers.fst_eq) hothers.agree

/-- The search for stale files comes to outcomes that are alike in worlds that agree. -/
theorem scan_congr (h : w.Agree v) (root : Text) (daysThreshold importThreshold : Int)
    (fanIn : FanIn) (clock : Int) (files : List Text) :
    Alike (scan root daysThreshold importThreshold fanIn clock files w)
      (scan root daysThreshold importThreshold fanIn clock files v) := by
  have hfound := inspectAll_congr h root daysThreshold importThreshold fanIn clock files
  unfold scan
  generalize inspectAll root daysThreshold importThreshold fanIn clock files w = p,
    inspectAll root daysThreshold importThreshold fanIn clock files v = q at hfound ⊢
  obtain ⟨found, hagree⟩ := hfound
  cases found with
  | error e => exact .intro _ hagree
  | ok found => exact .intro _ (hagree.note _ _)

end Staleness

end DebtSurvey
