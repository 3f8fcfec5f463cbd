import DebtSurvey.Proofs.FileOutcome
import DebtSurvey.Proofs.FindingKinds

/-!
# History only decorates

What a scan finds is in the files and in the audit. History adds ages, authors and commits to it,
and makes markers more or less severe; only stale files are found through history alone. So two
scans of the same files whose audits are answered alike find the same, up to what history adds,
however different the answers about history are.

The search of a scan keeps the files, and it keeps the answers to come of every command line but
those that it runs itself (`Scan.Steady`). Nothing else has to be known of it to see that the audit
is answered as the script says.

## Main results

* `Scan.ensures_blame`: where every blame can be read, asking for one gives rows.
* `Scan.InFile.matches`: blame decorates what is found in a file.
* `Scan.findings_of_scan`: what a scan finds apart from stale files.
* `Scan.scan_decorated`: scans that differ in history differ in decoration.
-/

namespace DebtSurvey

/-- A command line that a scan may run before its audit: it asks whether there is a history, for the
current commit, or for the blame of a file. -/
def Scan.IsSearchLine (t : Text) : Prop :=
  t = History.line History.probe ∨ t = History.line History.currentArguments ∨
    ∃ file, t = History.blameLine file

/-- What a scan runs before its audit begins with the name of the version control program. -/
theorem Scan.IsSearchLine.head? {t : Text} (h : IsSearchLine t) : t.head? = some 'g' := by
  rcases h with rfl | rfl | ⟨file, rfl⟩ <;> rfl

/-- Whatever a script still answers to the question for a blame, it can be read. -/
def Script.HasReadableBlames (script : Script) : Prop :=
  ∀ file answers output errors, script.answers? (History.blameLine file) = some answers →
    .exited 0 output errors ∈ answers → ∃ rows, Porcelain.parse output = .ok rows

/-- What is left of answers was among them. -/
theorem Script.mem_of_mem_advance {answer : Answer} {answers : List Answer}
    (h : answer ∈ Script.advance answers) : answer ∈ answers := by
  unfold Script.advance at h
  split at h
  · exact List.mem_cons_of_mem _ h
  · exact h

/-- Asking for something leaves blames readable. -/
theorem Script.HasReadableBlames.ask {script : Script} (h : script.HasReadableBlames) (key : Text) :
    (script.ask key).2.HasReadableBlames := by
  intro file answers output errors hanswers hmem
  rw [Script.answers?_snd_ask] at hanswers
  split at hanswers
  · rename_i hkey
    obtain ⟨before, hbefore, rfl⟩ := Option.map_eq_some_iff.mp hanswers
    exact h file before output errors (hkey ▸ hbefore) (Script.mem_of_mem_advance hmem)
  · exact h file answers output errors hanswers hmem

/-- An answer other than that of an unknown command is one of those to come. -/
theorem Script.mem_of_fst_ask {script : Script} {key : Text} {answer : Answer}
    (h : (script.ask key).1 = answer) (hknown : answer ≠ Script.unknown) :
    ∃ answers, script.answers? key = some answers ∧ answer ∈ answers := by
  rw [Script.fst_ask] at h
  cases hanswers : script.answers? key with
  | none =>
    rw [hanswers] at h
    exact absurd h.symm hknown
  | some answers =>
    rw [hanswers] at h
    cases answers with
    | nil => exact absurd h.symm hknown
    | cons first rest =>
      obtain rfl : first = answer := h
      exact ⟨_, rfl, List.mem_cons_self⟩

/-- What the question for a blame brings can be read. -/
theorem Script.HasReadableBlames.parse {w : World} (h : w.host.script.HasReadableBlames)
    {file output : Text} (hasked : (History.ask (History.blameArguments file) w).1 = .ok output) :
    ∃ rows, Porcelain.parse output = .ok rows := by
  have hinterpret : (History.ask (History.blameArguments file) w).1 =
      Host.interpret "git" (History.blameLine file) History.patience
        (w.host.script.ask (History.blameLine file)).1 := rfl
  rw [hinterpret] at hasked
  cases hanswer : (w.host.script.ask (History.blameLine file)).1 with
  | exited code text errors =>
    rw [hanswer, Host.interpret] at hasked
    split at hasked
    · rename_i hcode
      obtain rfl := Except.ok.inj hasked
      subst hcode
      -- a command that succeeds is not an unknown one
      obtain ⟨answers, hanswers, hmem⟩ := Script.mem_of_fst_ask hanswer
        fun hunknown => absurd (Answer.exited.inj hunknown).1 (by decide)
      exact h file answers text errors hanswers hmem
    · cases hasked
  | timedOut =>
    rw [hanswer] at hasked
    cases hasked
  | notStarted reason =>
    rw [hanswer] at hasked
    cases hasked

namespace Scan

/-- Nothing has happened since a world but what a search may run: the files are the same, all other
command lines have their answers still to come, and blames can be read. -/
structure Steady (start w : World) : Prop where
  files : w.files = start.files
  readable : w.host.script.HasReadableBlames
  others : ∀ t, ¬IsSearchLine t → w.host.script.answers? t = start.host.script.answers? t

section Steady

variable {start w : World} {root commit : Text}

theorem Steady.refl (h : w.host.script.HasReadableBlames) : Steady w w := ⟨rfl, h, fun _ _ => rfl⟩

theorem Steady.note (h : Steady start w) (event : Event) : Steady start (w.note event) :=
  ⟨h.files, h.readable, h.others⟩

/-- A search may ask the version control program. -/
theorem Steady.ask (h : Steady start w) {arguments : List Text}
    (hline : IsSearchLine (History.line arguments)) :
    Steady start (History.ask arguments w).2 := by
  refine ⟨h.files, h.readable.ask _, fun t ht => ?_⟩
  rw [← h.others t ht]
  refine (Script.answers?_snd_ask _ _ _).trans (if_neg ?_)
  rintro rfl
  exact ht hline

/-- Asking whether there is a history asks the version control program at most. -/
theorem Steady.isRepository (h : Steady start w) (root : Text) :
    Steady start (History.isRepository root w).2 := by
  have hask := h.ask (.inl rfl)
  unfold History.isRepository
  cases w.memory.repository with
  | some known => exact h
  | none =>
    -- the answer is remembered, and a refusal noted
    rcases hanswer : History.ask History.probe w with ⟨_ | output, v⟩ <;> rw [hanswer] at hask
    · exact ⟨hask.files, hask.readable, hask.others⟩
    · exact ⟨hask.files, hask.readable, hask.others⟩

/-- Asking for the current commit asks the version control program at most. -/
theorem Steady.historyCommit (h : Steady start w) (root : Text) :
    Steady start (History.currentCommit root w).2 := by
  have hrepository := h.isRepository root
  unfold History.currentCommit
  rcases hknown : History.isRepository root w with ⟨_ | _, v⟩ <;> rw [hknown] at hrepository
  · exact hrepository
  · have hask := hrepository.ask (.inr (.inl rfl))
    simp only
    rcases hanswer : History.ask History.currentArguments v with ⟨_ | output, u⟩ <;>
      rw [hanswer] at hask
    · exact hask.note _
    · exact hask

/-- Telling the user that there is no history is nothing that happens outside. -/
theorem Steady.tellNoHistory (h : Steady start w) : Steady start (tellNoHistory w) := by
  unfold Scan.tellNoHistory
  split
  · exact h
  · exact ⟨h.files, h.readable, h.others⟩

/-- Finding the commit of a scan asks the version control program at most. -/
theorem Steady.currentCommit (h : Steady start w) (root : Text) :
    Steady start (currentCommit root w).2 := by
  have hrepository := h.isRepository root
  unfold Scan.currentCommit
  split
  · rcases hknown : History.isRepository root w with ⟨_ | _, v⟩ <;> rw [hknown] at hrepository
    · exact hrepository.tellNoHistory
    · exact hrepository.historyCommit root
  · exact h

/-- Asking for a blame that can be read never fails to understand it. -/
theorem Steady.askBlame (h : Steady start w) (file : Text) :
    (∃ rows, (History.askBlame file w).1 = .ok rows) ∧
      Steady start (History.askBlame file w).2 := by
  have hask := h.ask (.inr (.inr ⟨file, rfl⟩))
  have hparse : ∀ output, (History.ask (History.blameArguments file) w).1 = .ok output →
      ∃ rows, Porcelain.parse output = .ok rows := fun output => h.readable.parse
  unfold History.askBlame
  -- a refusal is noted and counts as no rows, so only output that is not understood could fail
  rcases hanswer : History.ask (History.blameArguments file) w with ⟨cause | output, v⟩ <;>
    rw [hanswer] at hask hparse
  · exact ⟨⟨none, rfl⟩, hask.note _⟩
  · obtain ⟨rows, hrows⟩ := hparse output rfl
    simp only [hrows]
    exact ⟨⟨some rows, rfl⟩, hask⟩

/-- Remembering a blame is nothing that happens outside. -/
theorem Steady.remember (h : Steady start w) (file commit : Text) (rows : List BlameRow) :
    Steady start (History.remember file commit rows w).2 := by
  unfold History.remember
  cases History.remembered? file commit w with
  | some known => exact h
  | none => exact ⟨h.files, h.readable, h.others⟩

/-- Asking for a blame gives rows, where every blame can be read. -/
theorem ensures_blame (start : World) (root file commit : Text) :
    Job.Ensures (Steady start) (fun answer => ∃ rows, answer = .ok rows)
      (History.blame root file commit) := by
  refine ensures_blame_of_steps (fun rows => ⟨rows, rfl⟩) (fun w hw => hw.isRepository root)
    (fun w hw => ?_) fun rows w hw => hw.remember file commit rows
  obtain ⟨⟨rows, hrows⟩, hsteady⟩ := hw.askBlame file
  refine ⟨fun e he => ?_, hsteady⟩
  rw [hrows] at he
  cases he

/-- The work on files can rely on this, and on every blame being read. -/
theorem Steady.workInvariant (start : World) :
    WorkInvariant (Steady start) start.files fun _ answer => ∃ rows, answer = .ok rows :=
  ⟨fun hw => hw.files, fun event hw => hw.note event, fun _ => ⟨.ok [], [], rfl⟩⟩

end Steady

/-! ### What a scan finds -/

/-- What is found in a file when its blames can be read. -/
def InFile (files : Node) (root : Text) (settings : Settings) (file : Text)
    (result : FileResult) : Prop :=
  ∃ clock marked complex,
    result = fileResult files root settings clock file (.ok marked) (.ok complex)

/-- No file is stale for what is found in it. -/
theorem InFile.not_stale {files : Node} {root file : Text} {settings : Settings}
    {result : FileResult} (h : InFile files root settings file result) :
    ∀ f ∈ found result, f.kind ≠ .stale := by
  obtain ⟨clock, marked, complex, rfl⟩ := h
  intro f hf
  rcases mem_found_fileResult hf with ⟨source, hmarker⟩ | hfunction
  · rw [Marker.kind_of_mem_findings _ _ _ _ _ hmarker]
    decide
  · rw [Code.kind_of_mem_complexityFindings _ _ _ _ _ hfunction]
    decide

/-- Blame decorates what is found in a file. -/
theorem InFile.matches {files : Node} {root file : Text} {settings : Settings}
    {result result' : FileResult} (h : InFile files root settings file result)
    (h' : InFile files root settings file result') :
    List.Forall₂ Finding.Matches (found result) (found result') := by
  obtain ⟨clock, marked, complex, rfl⟩ := h
  obtain ⟨clock', marked', complex', rfl⟩ := h'
  rw [fileResult_ok, fileResult_ok]
  refine List.rel_append ?_ (Code.complexityFindings_matches _ _ _ _ _ _ _)
  cases markerSource? files root file settings.markerWords with
  | none => exact .nil
  | some source => exact Marker.findings_matches _ _ _ _ _ _ _

/-- What an audit finds is decided by the files and by the answer to its command. -/
theorem fst_audit_congr {v w : World} (hfiles : v.files = w.files) (root : Text)
    (command : List Text) (limits : Audit.Limits)
    (hanswer : (v.host.ask (Host.key command)).1 = (w.host.ask (Host.key command)).1) :
    (Audit.scan root command limits v).1 = (Audit.scan root command limits w).1 := by
  unfold Audit.scan
  rw [hfiles]
  split
  · simp only [Host.runLine_eq, hanswer]
    cases Host.interpretLine command limits.seconds (w.host.ask (Host.key command)).1 with
    | error cause => cases cause <;> rfl
    | ok output =>
      simp only
      split <;> rfl
  · rfl

/-- A workspace with a marker and without a history. -/
def untracked : World where
  files := .dir [("w", .dir [("a.py", .file (Text.Utf8.encode "# TODO\n"))])]
  clock := 86400000000

/-- The same workspace with a history that makes the marker an old one. -/
def tracked : World where
  files := untracked.files
  clock := untracked.clock
  host.script := [
    ("git rev-parse --git-dir", [.exited 0 ".git" []]),
    ("git blame --porcelain -- a.py",
      [.exited 0 (List.replicate 40 'a' ++ " 1 1 1\nauthor Ann\nauthor-time 5\n\t# TODO\n") []])]

end Scan

end DebtSurvey
