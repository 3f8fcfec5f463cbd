import DebtSurvey.Proofs.ConstantAnswers
import DebtSurvey.Proofs.DistinctIds

/-!
# Scanning again

A session that only reads, against an outside world that answers every command line the same each
time, can be repeated: memories may be cold, warm or partly filled, requests may have failed, and
the jobs may take their turns in any order. A scan of one file, made before or after, finds what the
scan of all files finds there; and where it fails, the scan of all files finds nothing.

## Main results

* `Scan.rescan_eq`: every scan of a session comes to what a first scan comes to.
* `Scan.scanFile_agrees`: a scan of one file agrees with every scan of the session.
-/

namespace DebtSurvey

namespace Scan

/-- Those of some findings that are in a file itself: its markers and its functions. -/
def inFile (file : Text) (findings : List Finding) : List Finding :=
  findings.filter fun f => (f.kind = .todo ∨ f.kind = .complexity) ∧ f.file = file

section Found

variable {start : World} {root file : Text} {settings : Settings} {findings others : List Finding}

theorem inFile_append :
    inFile file (findings ++ others) = inFile file findings ++ inFile file others :=
  List.filter_append _ _

theorem inFile_eq_self
    (h : ∀ f ∈ findings, (f.kind = .todo ∨ f.kind = .complexity) ∧ f.file = file) :
    inFile file findings = findings :=
  List.filter_eq_self.mpr fun f hf => decide_eq_true (h f hf)

theorem inFile_eq_nil (h : ∀ f ∈ findings, f.kind = .todo ∨ f.kind = .complexity → f.file ≠ file) :
    inFile file findings = [] := by
  apply List.filter_eq_nil_iff.mpr
  intro f hf
  rw [decide_eq_true_eq]
  rintro ⟨hkind, hfile⟩
  exact h f hf hkind hfile

/-- What is found in a file says so, and is a marker or a function. -/
theorem mem_found_standingResult (file : Text) :
    ∀ f ∈ found (standingResult start root settings file),
      (f.kind = .todo ∨ f.kind = .complexity) ∧ f.file = file := by
  have hresult : IsResult start.files root settings start.clock (fun _ _ => True) file
      (standingResult start root settings file) := ⟨_, _, trivial, trivial, rfl⟩
  obtain ⟨keys, hkeys, hdescribed⟩ := exists_keys_of_result hresult
  refine Key.forall_of_describes hdescribed fun k hk f hf => ?_
  obtain ⟨hfile, hdep, hstale⟩ := hkeys.mem k hk
  rw [← hf.kind] at hdep hstale
  refine ⟨?_, hf.file.trans hfile⟩
  cases hkind : f.kind with
  | todo => exact .inl rfl
  | complexity => exact .inr rfl
  | dep => exact absurd hkind hdep
  | stale => exact absurd hkind hstale

/-- Among the findings of different files, those of one of them are what is found there. -/
theorem inFile_flatMap_found {names : List Text} (hnames : names.Nodup) (hfile : file ∈ names) :
    inFile file ((names.map (standingResult start root settings)).flatMap found) =
      found (standingResult start root settings file) := by
  have hother {listed : List Text} (hlisted : file ∉ listed) :
      inFile file ((listed.map (standingResult start root settings)).flatMap found) = [] := by
    refine inFile_eq_nil fun f hf _ heq => hlisted ?_
    obtain ⟨result, hresult, hf⟩ := List.mem_flatMap.mp hf
    obtain ⟨name, hname, rfl⟩ := List.mem_map.mp hresult
    rw [← heq, (mem_found_standingResult name f hf).2]
    exact hname
  -- the file stands between files that are others
  obtain ⟨before, after, rfl⟩ := List.append_of_mem hfile
  obtain ⟨-, hrest, hapart⟩ := List.nodup_append.mp hnames
  have hbefore : file ∉ before := fun h => hapart file h file List.mem_cons_self rfl
  rw [List.map_append, List.flatMap_append, List.map_cons, List.flatMap_cons, inFile_append,
    inFile_append, hother hbefore, hother (List.nodup_cons.mp hrest).1, List.nil_append,
    List.append_nil, inFile_eq_self (mem_found_standingResult file)]

end Found

section Session

variable {w : World} {root : Text} {requests : List Request}

/-- Every scan of a session comes to the same as a first scan: to the same map, or to the same
fault. Other scans, scans of single files and forgetting may have come before, and each of them may
have failed. -/
theorem rescan_eq (hmemory : w.memory = {}) (hconstant : w.host.script.IsConstant)
    (hreading : ∀ request ∈ requests, request.IsReading) {i : Nat} {schedule : Schedule}
    {settings : Settings} (hi : requests[i]? = some (.scan schedule settings)) :
    ∃ result, (session root requests w).1[i]? = some (.scanned result) ∧
      ∀ first, result.map (·.1) = (scan first root settings w).1.map (·.1) := by
  have hstart := Recalls.refl hmemory hconstant
  -- the scan is met by some world on the way, the first scan by the start: both give one thing
  obtain ⟨v, hv, houtcome⟩ := session_recalls hstart root hreading hi hstart
  obtain ⟨result, hgives⟩ := gives_scan hstart root settings
  refine ⟨_, houtcome, fun first => ?_⟩
  obtain ⟨after, hthen, -⟩ := hgives schedule v hv
  obtain ⟨after', hnow, -⟩ := hgives first w hstart
  exact (Prod.mk.inj hthen).1.trans (Prod.mk.inj hnow).1.symm

/-- A session that scans all files with a memory that is partly filled, then full, then empty. -/
def rescans : List Request :=
  [.scanFile "a.py" {}, .scan ⟨[0, 0], []⟩ {}, .scan {} {}, .clear, .scan {} {}]

theorem isConstant_tracked : tracked.host.script.IsConstant :=
  Script.isConstant_of_forall (by decide +kernel)

theorem isReading_rescans : ∀ request ∈ rescans, request.IsReading := by
  simp [rescans, Request.IsReading]

/-- The last scan comes to what a first scan comes to. -/
theorem rescan_eq_last :
    tracked.memory = {} ∧ tracked.host.script.IsConstant ∧
      (∀ request ∈ rescans, request.IsReading) ∧ rescans[4]? = some (.scan {} {}) ∧
      ∃ result, (session "/w" rescans tracked).1[4]? = some (.scanned result) ∧
        ∀ first, result.map (·.1) = (scan first "/w" {} tracked).1.map (·.1) :=
  ⟨rfl, isConstant_tracked, isReading_rescans, rfl,
    rescan_eq rfl isConstant_tracked isReading_rescans rfl⟩

/-- A scan of one file agrees with every scan of the session, before or after it: it gives the
markers and functions of that file in the map, in order; and where it fails, the map has none. -/
theorem scanFile_agrees (hmemory : w.memory = {}) (hconstant : w.host.script.IsConstant)
    (hreading : ∀ request ∈ requests, request.IsReading) (hfiles : w.files.isWellFormed)
    {settings : Settings} {names : List Text} {event : Option Event}
    (hsource : sourceFiles w.files root settings = .ok (names, event)) {file : Text}
    (hfile : file ∈ names) {i j : Nat} {schedule : Schedule}
    (hi : requests[i]? = some (.scanFile file settings))
    (hj : requests[j]? = some (.scan schedule settings)) {map : DebtMap} {steps : List Progress}
    (hscan : (session root requests w).1[j]? = some (.scanned (.ok (map, steps)))) :
    ∃ quick, (session root requests w).1[i]? = some (.inspected quick) ∧
      (∀ findings, quick = .ok findings → findings = inFile file map.findings) ∧
      ∀ fault, quick = .error fault → inFile file map.findings = [] := by
  have hstart := Recalls.refl hmemory hconstant
  obtain ⟨u, hu, hquick⟩ := session_recalls hstart root hreading hi hstart
  obtain ⟨v, hv, hfull⟩ := session_recalls hstart root hreading hj hstart
  have hresult : (scan schedule root settings v).1 = .ok (map, steps) :=
    Outcome.scanned.inj (Option.some.inj (hfull.symm.trans hscan))
  -- what the scan of all files finds in this one
  have hcommit {commit : Text} {after : World} (h : currentCommit root v = (.ok commit, after)) :
      Recalls w after := by
    obtain ⟨result, hgives⟩ := gives_currentCommit w root
    obtain ⟨last, hact, hlast⟩ := hgives v hv
    obtain ⟨-, rfl⟩ := Prod.mk.inj (h.symm.trans hact)
    exact hlast
  obtain ⟨names', event', results, dependencies, stale, -, hsource', hresults, haudit, hstale,
    hfindings⟩ := parts_of_scan (Recalls.workInvariant w) hcommit
      (fun file commit => ensures_standingBlame w root file commit) hresult
  obtain ⟨rfl, -⟩ := Prod.mk.inj (Except.ok.inj (hsource.symm.trans hsource'))
  rw [hv.clock] at hresults
  obtain rfl := eq_map_standingResult hresults
  -- dependencies and stale files are of other kinds
  have hdependencies : inFile file dependencies = [] :=
    inFile_eq_nil fun f hf hkind => by simp [Audit.kind_of_scan haudit f hf] at hkind
  have hold : inFile file stale = [] :=
    inFile_eq_nil fun f hf hkind => by simp [Staleness.kind_of_scan hstale f hf] at hkind
  have hmap : inFile file map.findings = found (standingResult w root settings file) := by
    rw [hfindings, inFile_append, inFile_append, hdependencies, hold, List.append_nil,
      List.append_nil, inFile_flatMap_found (nodup_of_sourceFiles hfiles hsource) hfile]
  -- what the scan of it alone gives
  have hroot : w.files.hasDirectory root := by
    by_contra hmissing
    rw [scan_eq, currentCommit_of_missing (hv.files ▸ hmissing)] at hresult
    cases hresult
  obtain ⟨last, hact, -⟩ := gives_scanFile w root file settings u hu
  rw [if_pos hroot] at hact
  rw [Request.perform, hact] at hquick
  refine ⟨_, hquick, ?_, ?_⟩ <;> rw [hmap]
  · intro findings hok
    generalize standingResult w root settings file = result at hok ⊢
    rcases result with e | marked
    · cases hok
    · exact (Except.ok.inj hok).symm
  · intro fault herror
    generalize standingResult w root settings file = result at herror ⊢
    rcases result with e | marked
    · rfl
    · cases herror

/-- The marker that the scan of its file finds is in the map of the scan that follows. -/
theorem scanFile_agrees_first :
    tracked.files.isWellFormed ∧
      (sourceFiles tracked.files "/w" {} = .ok (["a.py"], none)) ∧
      ∃ map steps, (session "/w" rescans tracked).1[1]? = some (.scanned (.ok (map, steps))) ∧
        ∃ quick, (session "/w" rescans tracked).1[0]? = some (.inspected quick) ∧
          (∀ findings, quick = .ok findings → findings = inFile "a.py" map.findings) ∧
          ∀ fault, quick = .error fault → inFile "a.py" map.findings = [] := by
  have hfiles : tracked.files.isWellFormed := by decide
  have hsource : sourceFiles tracked.files "/w" {} = .ok (["a.py"], none) := by decide +kernel
  have hsecond : (session "/w" rescans tracked).1[1]? =
      some (.scanned (scan ⟨[0, 0], []⟩ "/w" {} (scanFile "/w" "a.py" {} tracked).2).1) := rfl
  have hok : (scan ⟨[0, 0], []⟩ "/w" {} (scanFile "/w" "a.py" {} tracked).2).1.isOk := by
    decide +kernel
  rcases hscan : (scan ⟨[0, 0], []⟩ "/w" {} (scanFile "/w" "a.py" {} tracked).2).1 with
    e | ⟨map, steps⟩ <;> rw [hscan] at hsecond hok
  · cases hok
  exact ⟨hfiles, hsource, map, steps, hsecond,
    scanFile_agrees rfl isConstant_tracked isReading_rescans hfiles hsource List.mem_cons_self rfl
      rfl hsecond⟩

end Session

end Scan

end DebtSurvey
