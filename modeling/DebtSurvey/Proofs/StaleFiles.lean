import DebtSurvey.Proofs.FloatRange
import DebtSurvey.Proofs.KnownHistory
import DebtSurvey.Proofs.StaleAge

/-!
# Stale files

The search for stale files goes through a list and asks the history of each file in turn. What it
finds is decided file by file: from what history says about the file, how old that makes it, and how
many files import it. The table of severities looks at the threshold for imports again, but a file
that is found has reached it, so only its age and the fixed fan-in of critical files matter.

What history says about a file depends on the command line for that file, and on no other but the one
that asks whether there is a history. So worlds that differ only in what one file's line is answered
(`World.SameBut`) make no difference to the other files, and neither does how often that file is in
the list.

## Main results

* `Staleness.severity_eq_band`: the severity of a stale file, whatever the threshold.
* `History.lastCommits_filter`: what history says about the other files.
* `Staleness.fst_scan_eq`, `Staleness.fst_scan_overflow`: what the search finds, and when it fails.
* `Staleness.scan_items`: all of this about a search.
-/

namespace DebtSurvey

namespace World

/-- Worlds that nothing tells apart but what one command line is answered. -/
def SameBut (line : Text) (w v : World) : Prop := ∀ key, key ≠ line → w.part key = v.part key

end World

namespace History

open World (SameBut)

/-- The command line that asks for the last commit of a file. -/
def lastLine (file : Text) : Text := line (lastArguments file)

/-- Files have different command lines. -/
theorem lastLine_injective : Function.Injective lastLine := by
  intro f g h
  simpa [lastLine, line, lastArguments, Host.key, Text.join] using h

/-- What history says about files, asked for one after the other. -/
def lastCommits (root : Text) : List Text → World → List (Text × Option (Text × Calendar.Moment))
  | [], _ => []
  | file :: rest, w =>
    (file, (lastModified root file w).1) :: lastCommits root rest (lastModified root file w).2

variable {root file line : Text} {w v : World}

/-! ### Whether there is a history -/

/-- Whether there is a history may as well be asked beforehand. -/
theorem lastModified_isRepository (root file : Text) (w : World) :
    lastModified root file (isRepository root w).2 = lastModified root file w := by
  have hknown : isRepository root (isRepository root w).2 = isRepository root w :=
    isRepository_of_known (repository_isRepository root w)
  unfold lastModified
  rw [hknown]

theorem lastCommits_isRepository (root : Text) (files : List Text) (w : World) :
    lastCommits root files (isRepository root w).2 = lastCommits root files w := by
  cases files with
  | nil => rfl
  | cons file rest => rw [lastCommits, lastCommits, lastModified_isRepository]

theorem settled_isRepository (root : Text) (w : World) : (isRepository root w).2.Settled := by
  rw [World.Settled, repository_isRepository]
  rfl

/-- Worlds that are the same but for another line learn the same about whether there is a history. -/
theorem sameBut_isRepository (h : SameBut line w v) (hline : probeLine ≠ line) (root : Text) :
    SameBut line (isRepository root w).2 (isRepository root v).2 := by
  have hprobe := h probeLine hline
  have hrepository : w.memory.repository = v.memory.repository :=
    congrArg Part.repository hprobe
  have hanswer : (ask probe w).1 = (ask probe v).1 := by
    rw [fst_ask, fst_ask]
    exact congrArg (fun p : Part => Host.interpret "git" probeLine patience p.next) hprobe
  have hasked : SameBut line (ask probe w).2 (ask probe v).2 := fun key hkey => by
    rw [part_ask, part_ask, h key hkey]
  unfold isRepository
  rw [← hrepository]
  cases w.memory.repository with
  | some known => exact h
  | none =>
    -- both ask, get the same answer, and remember the same
    rcases hw : ask probe w with ⟨result, w'⟩
    rcases hv : ask probe v with ⟨result', v'⟩
    rw [hw, hv] at hanswer hasked
    obtain rfl : result = result' := hanswer
    cases result with
    | error cause =>
      exact fun key hkey =>
        congrArg (fun p : Part => { p with repository := some false }) (hasked key hkey)
    | ok output =>
      exact fun key hkey =>
        congrArg (fun p : Part => { p with repository := some true }) (hasked key hkey)

/-! ### One file -/

/-- The last commit that an answer tells about. -/
def readLast : Except CommandError Text → Option (Text × Calendar.Moment)
  | .error _ => none
  | .ok output =>
    if (Text.trim output).isEmpty then none
    else
      let (commit, date) := Text.cut '\t' (Text.trim output)
      (Calendar.Moment.parse? (Text.trim date)).map (commit, ·)

/-- Without a history nothing is asked. -/
theorem lastModified_of_none (h : w.memory.repository = some false) :
    lastModified root file w = (none, w) := by
  rw [lastModified, isRepository_of_known h]

/-- With a history the file's line is asked, and the answer is read. -/
theorem lastModified_of_history (h : w.memory.repository = some true) :
    (lastModified root file w).1 = readLast (ask (lastArguments file) w).1 ∧
      (lastModified root file w).2.memory = w.memory ∧
      ∀ key, (lastModified root file w).2.part key = (ask (lastArguments file) w).2.part key := by
  obtain ⟨result, host, hask⟩ := exists_ask (lastArguments file) w
  rw [lastModified, isRepository_of_known h]
  simp only [hask]
  cases result with
  | error cause => exact ⟨rfl, rfl, fun _ => rfl⟩
  | ok output =>
    simp only [readLast]
    split
    · exact ⟨rfl, rfl, fun _ => rfl⟩
    · split
      · rename_i hparse
        exact ⟨by rw [hparse]; rfl, rfl, fun _ => rfl⟩
      · rename_i hparse
        exact ⟨by rw [hparse]; rfl, rfl, fun _ => rfl⟩

theorem settled_lastModified (h : w.Settled) (root file : Text) :
    (lastModified root file w).2.Settled := by
  obtain ⟨known, hknown⟩ := Option.isSome_iff_exists.mp h
  cases known with
  | false => rwa [lastModified_of_none hknown]
  | true => rwa [World.Settled, (lastModified_of_history hknown).2.1]

/-- What history says about a file is decided by the part of its command line. -/
theorem fst_lastModified_congr (hw : w.Settled)
    (h : w.part (lastLine file) = v.part (lastLine file)) :
    (lastModified root file w).1 = (lastModified root file v).1 := by
  have hrepository : w.memory.repository = v.memory.repository := congrArg Part.repository h
  obtain ⟨known, hknown⟩ := Option.isSome_iff_exists.mp hw
  have hknown' := hrepository.symm.trans hknown
  cases known with
  | false => rw [lastModified_of_none hknown, lastModified_of_none hknown']
  | true =>
    have hanswer : (ask (lastArguments file) w).1 = (ask (lastArguments file) v).1 := by
      rw [fst_ask, fst_ask]
      exact congrArg (fun p : Part => Host.interpret "git" (lastLine file) patience p.next) h
    rw [(lastModified_of_history hknown).1, (lastModified_of_history hknown').1, hanswer]

/-- Asking about a file leaves the parts of all other command lines as they are. -/
theorem sameBut_lastModified (hw : w.Settled) (root file : Text) :
    SameBut (lastLine file) (lastModified root file w).2 w := by
  intro key hkey
  obtain ⟨known, hknown⟩ := Option.isSome_iff_exists.mp hw
  cases known with
  | false => rw [lastModified_of_none hknown]
  | true =>
    rw [(lastModified_of_history hknown).2.2, part_ask]
    exact if_neg hkey

/-- Worlds that are the same but for another line are so after asking about a file. -/
theorem sameBut_lastModified_congr (hw : w.Settled) (h : SameBut line w v)
    (hline : lastLine file ≠ line) (root : Text) :
    SameBut line (lastModified root file w).2 (lastModified root file v).2 := by
  have hrepository : w.memory.repository = v.memory.repository :=
    congrArg Part.repository (h _ hline)
  obtain ⟨known, hknown⟩ := Option.isSome_iff_exists.mp hw
  have hknown' := hrepository.symm.trans hknown
  cases known with
  | false =>
    rw [lastModified_of_none hknown, lastModified_of_none hknown']
    exact h
  | true =>
    intro key hkey
    rw [(lastModified_of_history hknown).2.2, (lastModified_of_history hknown').2.2, part_ask,
      part_ask, h key hkey]

/-! ### The other files -/

/-- What history says about the other files of a list depends neither on how often a file is in it
nor on what its line is answered. -/
theorem lastCommits_filter_of_settled {files : List Text} (hw : w.Settled) (hv : v.Settled)
    (h : SameBut (lastLine file) w v) :
    (lastCommits root files w).filter (·.1 ≠ file) =
      lastCommits root (files.filter (· ≠ file)) v := by
  induction files generalizing w v with
  | nil => rfl
  | cons next rest ih =>
    by_cases hnext : next = file
    · -- the file itself: only its own line is asked, and no entry is kept
      subst hnext
      have hskip : SameBut (lastLine next) (lastModified root next w).2 v := fun key hkey =>
        (sameBut_lastModified hw root next key hkey).trans (h key hkey)
      rw [lastCommits, List.filter_cons_of_neg (by simp), List.filter_cons_of_neg (by simp)]
      exact ih (settled_lastModified hw root next) hv hskip
    · -- another file: it gets the same answer in both worlds
      have hline : lastLine next ≠ lastLine file := fun hsame => hnext (lastLine_injective hsame)
      rw [lastCommits, List.filter_cons_of_pos (by simpa using hnext),
        List.filter_cons_of_pos (by simpa using hnext), lastCommits,
        fst_lastModified_congr hw (h _ hline),
        ih (settled_lastModified hw root next) (settled_lastModified hv root next)
          (sameBut_lastModified_congr hw h hline root)]

/-- Lists that are the same but for one file, in worlds that are the same but for its line: history
says the same about all others. -/
theorem lastCommits_filter {files files' : List Text} (root : Text)
    (hfiles : files'.filter (· ≠ file) = files.filter (· ≠ file))
    (h : SameBut (lastLine file) v w) :
    (lastCommits root files' v).filter (·.1 ≠ file) =
      (lastCommits root files w).filter (·.1 ≠ file) := by
  have hprobe : probeLine ≠ lastLine file := (lastLine_ne_probeLine file).symm
  have hasked := sameBut_isRepository h hprobe root
  have hw := settled_isRepository root w
  have hv := settled_isRepository root v
  rw [← lastCommits_isRepository root files', ← lastCommits_isRepository root files,
    lastCommits_filter_of_settled hv hw hasked,
    lastCommits_filter_of_settled hw hw fun _ _ => rfl, hfiles]

/-- History tells moments of the calendar only. -/
theorem isValid_of_mem_lastCommits {files : List Text} {commit : Text} {moment : Calendar.Moment}
    (h : (file, some (commit, moment)) ∈ lastCommits root files w) : moment.isValid := by
  induction files generalizing w with
  | nil => cases h
  | cons next rest ih =>
    rw [lastCommits] at h
    rcases hlast : lastModified root next w with ⟨last, v⟩
    rw [hlast] at h
    rcases List.mem_cons.mp h with hfirst | hrest
    · obtain ⟨-, rfl⟩ := Prod.mk.inj hfirst
      exact isValid_of_lastModified hlast
    · exact ih hrest

end History

namespace Staleness

open Binary64 (rangeEnd)

variable (root : Text) (daysThreshold importThreshold : Int) (fanIn : FanIn) {clock : Int}

/-- The severity of a stale file by its age and fan-in alone. -/
def band (ageInDays fanIn : Int) : Severity :=
  if 365 < ageInDays ∧ 10 ≤ fanIn then .critical
  else if ageInDays ≤ 180 then .medium
  else .high

/-- A file that reaches the threshold for imports has the severity of its band, whatever the
threshold. -/
theorem severity_eq_band {ageInDays count threshold : Int} (h : threshold ≤ count) :
    severity ageInDays count threshold = band ageInDays count := by
  have hnumber : ((365 : Nat) : Int) = 365 := rfl
  have hhalf : ((180 : Nat) : Int) = 180 := rfl
  have hcritical : ((criticalFanIn : Nat) : Int) = 10 := rfl
  simp only [severity, band, hnumber, hhalf, hcritical, h, and_true]
  split_ifs <;> first | rfl | omega

/-- The finding of a file by what history says about it, if it is stale. -/
def item? (clock : Int) (entry : Text × Option (Text × Calendar.Moment)) : Option Finding :=
  match entry.2 with
  | none => none
  | some (commit, moment) =>
    match age moment clock with
    | .error _ => none
    | .ok days =>
      let count := fanIn.count entry.1
      if daysThreshold ≤ days ∧ importThreshold ≤ count then
        some
          { id := Identity.ofParts [entry.1, Kind.stale.name]
            kind := .stale
            severity := band days count
            file := entry.1
            message := message days count
            ageInDays := some days
            lastCommit := some commit }
      else none

theorem finding?_eq (file commit : Text) {moment : Calendar.Moment} {days : Int}
    (h : age moment clock = .ok days) :
    finding? daysThreshold importThreshold fanIn file commit days =
      item? daysThreshold importThreshold fanIn clock (file, some (commit, moment)) := by
  simp only [finding?, item?, h]
  split
  · rename_i hstale
    rw [severity_eq_band hstale.2]
  · rfl

/-- A moment of the calendar has an age by every clock that the format can hold. -/
theorem age_held {moment : Calendar.Moment} (h : moment.isValid) (hclock : |clock| < rangeEnd) :
    ∃ days, age moment clock = .ok days :=
  Age.between_held (within_millis h) hclock

/-- A file is found or not, by what history says about it. -/
theorem inspect_eq (hclock : |clock| < rangeEnd) (file : Text) (w : World) :
    inspect root daysThreshold importThreshold fanIn clock file w =
      (.ok (item? daysThreshold importThreshold fanIn clock
          (file, (History.lastModified root file w).1)),
        (History.lastModified root file w).2) := by
  unfold inspect
  rcases hlast : History.lastModified root file w with ⟨_ | ⟨commit, moment⟩, v⟩
  · rfl
  · obtain ⟨days, hdays⟩ := age_held (History.isValid_of_lastModified hlast) hclock
    simp only [hdays, Except.map]
    rw [finding?_eq daysThreshold importThreshold fanIn file commit hdays]

theorem fst_inspectAll_eq (hclock : |clock| < rangeEnd) (files : List Text) (w : World) :
    (inspectAll root daysThreshold importThreshold fanIn clock files w).1 =
      .ok ((History.lastCommits root files w).filterMap
        (item? daysThreshold importThreshold fanIn clock)) := by
  induction files generalizing w with
  | nil => rfl
  | cons file rest ih =>
    rw [inspectAll, inspect_eq root daysThreshold importThreshold fanIn hclock]
    simp only [ih, Except.map]
    rw [History.lastCommits, List.filterMap_cons]
    cases item? daysThreshold importThreshold fanIn clock
      (file, (History.lastModified root file w).1) <;> rfl

/-- What the search comes to is what the files come to; only their number is noted. -/
theorem fst_scan (clock : Int) (files : List Text) (w : World) :
    (scan root daysThreshold importThreshold fanIn clock files w).1 =
      (inspectAll root daysThreshold importThreshold fanIn clock files w).1 := by
  unfold scan
  rcases inspectAll root daysThreshold importThreshold fanIn clock files w with ⟨_ | _, v⟩ <;> rfl

/-- What the search finds, by a clock that the format can hold. -/
theorem fst_scan_eq (hclock : |clock| < rangeEnd) (files : List Text) (w : World) :
    (scan root daysThreshold importThreshold fanIn clock files w).1 =
      .ok ((History.lastCommits root files w).filterMap
        (item? daysThreshold importThreshold fanIn clock)) := by
  rw [fst_scan, fst_inspectAll_eq root daysThreshold importThreshold fanIn hclock]

theorem fst_inspectAll_overflow (hclock : rangeEnd ≤ |clock|) (files : List Text) (w : World) :
    (inspectAll root daysThreshold importThreshold fanIn clock files w).1 =
      if (History.lastCommits root files w).any (·.2.isSome) then .error .overflow else .ok [] := by
  induction files generalizing w with
  | nil => rfl
  | cons file rest ih =>
    rw [inspectAll, inspect, History.lastCommits]
    rcases History.lastModified root file w with ⟨_ | ⟨commit, moment⟩, v⟩
    · simp only [ih v, List.any_cons, Option.isSome_none, Bool.false_or]
      split <;> rfl
    · have hage : age moment clock = .error .overflow := Age.between_overflow hclock
      simp [hage, Except.map]

/-- By a clock that the format cannot hold the search fails at the first file that history knows. -/
theorem fst_scan_overflow (hclock : rangeEnd ≤ |clock|) (files : List Text) (w : World) :
    (scan root daysThreshold importThreshold fanIn clock files w).1 =
      if (History.lastCommits root files w).any (·.2.isSome) then .error .overflow else .ok [] := by
  rw [fst_scan, fst_inspectAll_overflow root daysThreshold importThreshold fanIn hclock]

/-- A finding is in the file that it was asked for. -/
theorem file_of_item? {entry : Text × Option (Text × Calendar.Moment)} {item : Finding}
    (h : item? daysThreshold importThreshold fanIn clock entry = some item) :
    item.file = entry.1 := by
  unfold item? at h
  split at h
  · cases h
  · split at h
    · cases h
    · simp only at h
      split at h
      · rw [← Option.some.inj h]
      · cases h

/-- The findings in other files come from the entries of other files. -/
theorem filter_items (file : Text) (entries : List (Text × Option (Text × Calendar.Moment))) :
    (entries.filterMap (item? daysThreshold importThreshold fanIn clock)).filter (·.file ≠ file) =
      (entries.filter (·.1 ≠ file)).filterMap (item? daysThreshold importThreshold fanIn clock) := by
  induction entries with
  | nil => rfl
  | cons entry rest ih =>
    cases hitem : item? daysThreshold importThreshold fanIn clock entry with
    | none =>
      rw [List.filterMap_cons_none hitem, ih, List.filter_cons]
      split
      · rw [List.filterMap_cons_none hitem]
      · rfl
    | some item =>
      have hfile := file_of_item? daysThreshold importThreshold fanIn hitem
      rw [List.filterMap_cons_some hitem, List.filter_cons, List.filter_cons, hfile, ih]
      split
      · rw [List.filterMap_cons_some hitem]
      · rfl

/-- By a clock that the format can hold, the search finds one item for each entry of the list whose
last commit is known, old enough and imported often enough, in the order of the list; a file and its
history make no difference to the items of other files. By any other clock it fails as soon as
history knows one of the files. -/
theorem scan_items (clock : Int) (files : List Text) (w : World) :
    (|clock| < rangeEnd →
      (scan root daysThreshold importThreshold fanIn clock files w).1 =
          .ok ((History.lastCommits root files w).filterMap
            (item? daysThreshold importThreshold fanIn clock)) ∧
        (∀ file commit moment,
          (file, some (commit, moment)) ∈ History.lastCommits root files w →
            ∃ days, age moment clock = .ok days) ∧
        ∀ (file : Text) (files' : List Text) (w' : World),
          files'.filter (· ≠ file) = files.filter (· ≠ file) →
          World.SameBut (History.lastLine file) w' w →
            ∃ found found',
              (scan root daysThreshold importThreshold fanIn clock files w).1 = .ok found ∧
              (scan root daysThreshold importThreshold fanIn clock files' w').1 = .ok found' ∧
              found'.filter (·.file ≠ file) = found.filter (·.file ≠ file)) ∧
    (rangeEnd ≤ |clock| →
      (scan root daysThreshold importThreshold fanIn clock files w).1 =
        if (History.lastCommits root files w).any (·.2.isSome) then .error .overflow
        else .ok []) := by
  refine ⟨fun hclock => ⟨?_, ?_, ?_⟩, fun hclock => ?_⟩
  · exact fst_scan_eq root daysThreshold importThreshold fanIn hclock files w
  · intro file commit moment hmem
    exact age_held (History.isValid_of_mem_lastCommits hmem) hclock
  · intro file files' w' hfiles hworlds
    refine ⟨_, _, fst_scan_eq root daysThreshold importThreshold fanIn hclock files w,
      fst_scan_eq root daysThreshold importThreshold fanIn hclock files' w', ?_⟩
    rw [filter_items, filter_items, History.lastCommits_filter root hfiles hworlds]
  · exact fst_scan_overflow root daysThreshold importThreshold fanIn hclock files w

/-- A world whose history knows one file from the epoch on, and answers about another file as
given. -/
def neighbours (answer : Answer) : World where
  files := .dir []
  host.script :=
    [(Host.key ("git" :: History.probe), [.exited 0 ".git" []]),
      (History.lastLine ['a'], [.exited 0 "c\t1970-01-01T00:00:00Z" []]),
      (History.lastLine ['b'], [answer])]

theorem sameBut_neighbours (answer answer' : Answer) :
    World.SameBut (History.lastLine ['b']) (neighbours answer) (neighbours answer') := by
  intro key hkey
  simp [World.part, neighbours, Script.answers?, Ne.symm hkey]

/-- What is found of two files that are 400 days old. -/
def shown (found : List Finding) : List (Text × Severity × Option Int) :=
  found.map fun item => (item.file, item.severity, item.ageInDays)

/-- After 400 days both files are found; without the one, or without its history, the other is found
as before. -/
theorem scan_items_neighbours :
    |(34560000000 : Int)| < rangeEnd ∧
      ∃ found found' found'',
        (scan [] 365 2 [(['a'], 12), (['b'], 3)] 34560000000 [['a'], ['b']]
          (neighbours (.exited 0 "d\t1970-01-01T00:00:00Z" []))).1 = .ok found ∧
        shown found = [(['a'], .critical, some 400), (['b'], .high, some 400)] ∧
        (scan [] 365 2 [(['a'], 12), (['b'], 3)] 34560000000 [['a']]
          (neighbours (.exited 0 "d\t1970-01-01T00:00:00Z" []))).1 = .ok found' ∧
        found'.filter (·.file ≠ ['b']) = found.filter (·.file ≠ ['b']) ∧
        (scan [] 365 2 [(['a'], 12), (['b'], 3)] 34560000000 [['a'], ['b']]
          (neighbours .timedOut)).1 = .ok found'' ∧
        found''.filter (·.file ≠ ['b']) = found.filter (·.file ≠ ['b']) := by
  have hclock : |(34560000000 : Int)| < rangeEnd := by decide +kernel
  obtain ⟨-, -, hothers⟩ := (scan_items [] 365 2 [(['a'], 12), (['b'], 3)] 34560000000
    [['a'], ['b']] (neighbours (.exited 0 "d\t1970-01-01T00:00:00Z" []))).1 hclock
  obtain ⟨found, found', hfound, hfound', hwithout⟩ :=
    hothers ['b'] [['a']] _ (by decide) fun _ _ => rfl
  obtain ⟨found₂, found'', hfound₂, hfound'', hfailed⟩ :=
    hothers ['b'] [['a'], ['b']] (neighbours .timedOut) rfl (sameBut_neighbours _ _)
  obtain rfl : found = found₂ := Except.ok.inj (hfound.symm.trans hfound₂)
  have hshown : ((scan [] 365 2 [(['a'], 12), (['b'], 3)] 34560000000 [['a'], ['b']]
      (neighbours (.exited 0 "d\t1970-01-01T00:00:00Z" []))).1.toOption.map shown) =
        some [(['a'], .critical, some 400), (['b'], .high, some 400)] := by decide +kernel
  rw [hfound] at hshown
  exact ⟨hclock, found, found', found'', hfound, Option.some.inj hshown, hfound', hwithout,
    hfound'', hfailed⟩

/-- By a clock beyond the range of the format a file that history knows is not found to be stale: the
search fails. -/
theorem scan_beyond_range :
    (History.lastModified [] ['a'] (neighbours .timedOut)).1.isSome ∧
      (scan [] 365 5 [(['a'], 5)] (10 ^ 400) [['a']] (neighbours .timedOut)).1 =
        .error .overflow := by
  have hknown : (History.lastModified [] ['a'] (neighbours .timedOut)).1.isSome := by decide +kernel
  have hclock : rangeEnd ≤ |(10 ^ 400 : Int)| := by decide +kernel
  refine ⟨hknown, ?_⟩
  rw [fst_scan_overflow [] 365 5 _ hclock]
  exact if_pos (by simp [History.lastCommits, hknown])

end Staleness

end DebtSurvey
