import DebtSurvey.Proofs.FindingKeys

/-!
# Findings by kind

Each analysis has its own kind of findings, and takes from history what the kind allows: the age,
the author and the commit of a line, and for a marker also how severe it is. The rest of a finding
comes from the source alone.

## Main results

* `Marker.findings_matches`, `Code.complexityFindings_matches`: blame decorates what is found.
* `Marker.findings_undated`, `Code.complexityFindings_undated`: what is found without any blame.
* `Audit.kind_of_scan`, `Staleness.kind_of_scan`: the kinds of the other findings.
-/

namespace DebtSurvey

/-- Findings that differ in what history adds to them, if at all. -/
structure Finding.Matches (f g : Finding) : Prop where
  id : f.id = g.id
  kind : f.kind = g.kind
  file : f.file = g.file
  line : f.line = g.line
  message : f.message = g.message
  /-- Only the age of a marker, or of a file, makes it more severe. -/
  severity : f.kind = .complexity ∨ f.kind = .dep → f.severity = g.severity

/-- A finding that history has added nothing to. -/
structure Finding.IsUndated (f : Finding) : Prop where
  /-- Only history makes a file stale. -/
  not_stale : f.kind ≠ .stale
  /-- A marker counts as brand new. -/
  todo : f.kind = .todo →
    f.ageInDays = some 0 ∧ f.severity = .low ∧ f.author = none ∧ f.lastCommit = none
  /-- A function has neither an author nor an age. -/
  complexity : f.kind = .complexity → f.author = none ∧ f.ageInDays = none ∧ f.lastCommit = none

/-- Every finding matches itself. -/
theorem Finding.Matches.refl (f : Finding) : f.Matches f := ⟨rfl, rfl, rfl, rfl, rfl, fun _ => rfl⟩

/-- The finding of a dependency has nothing from history. -/
theorem Finding.isUndated_of_dep {f : Finding} (h : f.kind = .dep) : f.IsUndated where
  not_stale := by rw [h]; decide
  todo htodo := by rw [h] at htodo; cases htodo
  complexity hcomplex := by rw [h] at hcomplex; cases hcomplex

namespace Marker

variable (words : List Text) (file source : Text) (blame blame' : List BlameRow)
  (clock clock' : Int)

/-- The findings of markers are of their kind. -/
theorem kind_of_mem_findings {f : Finding} (h : f ∈ findings words file source blame clock) :
    f.kind = .todo :=
  Key.kind_of_describes (findings_described words file source blame clock)
    (List.forall_mem_map.mpr fun _ _ => rfl) f h

/-- Whatever the blame and the time, the same markers are found. -/
theorem findings_matches :
    List.Forall₂ Finding.Matches (findings words file source blame clock)
      (findings words file source blame' clock') := by
  refine List.forall₂_map_left_iff.mpr (List.forall₂_map_right_iff.mpr ?_)
  refine List.forall₂_same.mpr fun ⟨number, line⟩ _ => ⟨rfl, rfl, rfl, rfl, rfl, ?_⟩
  -- a marker may well be more or less severe, but it is neither a function nor a dependency
  rintro (hkind | hkind) <;> cases hkind

/-- Markers without blame are undated. -/
theorem findings_undated {f : Finding} (h : f ∈ findings words file source [] clock) :
    f.IsUndated := by
  obtain ⟨⟨number, line⟩, -, rfl⟩ := List.mem_map.mp h
  exact ⟨nofun, fun _ => ⟨rfl, rfl, rfl, rfl⟩, nofun⟩

end Marker

namespace Code

variable (bands : Bands Int) (file : Text) (functions : List Function)
  (blame blame' : List BlameRow) (clock clock' : Int)

/-- The findings of functions are of their kind. -/
theorem kind_of_mem_complexityFindings {f : Finding}
    (h : f ∈ complexityFindings bands file functions blame clock) : f.kind = .complexity :=
  Key.kind_of_describes (complexityFindings_described bands file functions blame clock)
    (List.forall_mem_map.mpr fun _ _ => rfl) f h

/-- Whatever the blame and the time, the same functions are found. -/
theorem complexityFindings_matches :
    List.Forall₂ Finding.Matches (complexityFindings bands file functions blame clock)
      (complexityFindings bands file functions blame' clock') := by
  induction functions with
  | nil => exact .nil
  | cons function rest ih =>
    -- whether a function is reported depends on its body only
    by_cases hlow : bands.low ≤ (complexity function.body : Int)
    · simp only [complexityFindings, List.filterMap_cons, complexityFinding?, if_pos hlow]
      exact .cons ⟨rfl, rfl, rfl, rfl, rfl, fun _ => rfl⟩ ih
    · simp only [complexityFindings, List.filterMap_cons, complexityFinding?, if_neg hlow]
      exact ih

/-- Functions without blame are undated. -/
theorem complexityFindings_undated {f : Finding}
    (h : f ∈ complexityFindings bands file functions [] clock) : f.IsUndated := by
  obtain ⟨function, -, hfound⟩ := List.mem_filterMap.mp h
  rw [complexityFinding?] at hfound
  split at hfound
  · obtain rfl := Option.some.inj hfound
    exact ⟨by rintro ⟨⟩, by rintro ⟨⟩, fun _ => ⟨rfl, rfl, rfl⟩⟩
  · cases hfound

end Code

namespace Audit

/-- An audit finds dependencies. -/
theorem kind_of_scan {directory : Text} {command : List Text} {limits : Limits} {w : World}
    {found : List Finding} (h : (scan directory command limits w).1 = .ok found) :
    ∀ f ∈ found, f.kind = .dep := by
  obtain ⟨entries, -, hdescribed⟩ := exists_described h
  exact Key.kind_of_describes hdescribed (List.forall_mem_map.mpr fun _ _ => rfl)

end Audit

namespace Staleness

/-- The search for stale files finds stale files. -/
theorem kind_of_scan {root : Text} {daysThreshold importThreshold clock : Int} {fanIn : FanIn}
    {files : List Text} {w : World} {found : List Finding}
    (h : (scan root daysThreshold importThreshold fanIn clock files w).1 = .ok found) :
    ∀ f ∈ found, f.kind = .stale := by
  obtain ⟨stale, -, hdescribed⟩ := exists_described h
  exact Key.kind_of_describes hdescribed (List.forall_mem_map.mpr fun _ _ => rfl)

end Staleness

end DebtSurvey
