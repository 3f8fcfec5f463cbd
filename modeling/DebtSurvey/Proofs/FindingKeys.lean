import DebtSurvey.Proofs.AuditOutcome
import DebtSurvey.Proofs.DistinctNames
import DebtSurvey.Proofs.Key
import DebtSurvey.Proofs.SourceLines
import DebtSurvey.Scan.Session
import Mathlib.Data.List.Forall2

/-!
# Which keys findings have

Each analysis makes the keys of its findings from their places: a marker from its line, a function
from the line of its head, a package from its name and title, and a stale file from its name. The
lines of a source, the packages of an audit and the files of a scan are listed once each, but a line
may hold several functions.

## Main results

* `Marker.findings_described`, `Marker.nodup_markedLines`: markers, on different lines.
* `Code.complexityFindings_described`: functions that are reported, on lines that may be the same.
* `Audit.exists_described`: packages of different names.
* `Staleness.exists_described`: stale files among those of a scan.
-/

namespace DebtSurvey

/-- The line of the findings with a key. -/
def Key.line? : Key → Option Int
  | .marker _ line => some line
  | .function _ line => some line
  | .package .. => none
  | .stale _ => none

/-- A finding has its identity, its kind and its place from a key. -/
structure Key.Describes (k : Key) (f : Finding) : Prop where
  id : f.id = Identity.ofKey k.text
  kind : f.kind = k.kind
  file : f.file = k.file
  line : f.line = k.line?
  /-- A package and its title are the message of the finding. -/
  message : ∀ name title, k = .package name title → f.message = name ++ (": " : Text) ++ title

/-- What keys say of all that they describe holds of findings that are described by them. -/
theorem Key.forall_of_describes {keys : List Key} {findings : List Finding}
    (h : List.Forall₂ Key.Describes keys findings) {p : Finding → Prop}
    (hkeys : ∀ k ∈ keys, ∀ f, k.Describes f → p f) : ∀ f ∈ findings, p f := by
  induction h with
  | nil => exact List.forall_mem_nil _
  | cons hfirst _ ih =>
    rw [List.forall_mem_cons] at hkeys ⊢
    exact ⟨hkeys.1 _ hfirst, ih hkeys.2⟩

/-- Findings that are described are of the kinds of their keys. -/
theorem Key.kind_of_describes {keys : List Key} {findings : List Finding}
    (h : List.Forall₂ Key.Describes keys findings) {kind : Kind}
    (hkeys : ∀ k ∈ keys, k.kind = kind) : ∀ f ∈ findings, f.kind = kind :=
  Key.forall_of_describes h fun k hk _ hf => hf.kind.trans (hkeys k hk)

/-- The identities of findings that are described are the digests of their keys. -/
theorem Key.map_id_of_describes {keys : List Key} {findings : List Finding}
    (h : List.Forall₂ Key.Describes keys findings) :
    findings.map (·.id) = keys.map fun k => Identity.ofKey k.text := by
  induction h with
  | nil => rfl
  | cons hfirst _ ih => rw [List.map_cons, List.map_cons, hfirst.id, ih]

namespace Marker

variable (words : List Text) (file source : Text)

theorem findings_described (blame : List BlameRow) (clock : Int) :
    List.Forall₂ Key.Describes ((markedLines words source).map fun line => .marker file line.1)
      (findings words file source blame clock) :=
  List.forall₂_map_left_iff.mpr (List.forall₂_map_right_iff.mpr
    (List.forall₂_same.mpr fun _ _ => ⟨rfl, rfl, rfl, rfl, nofun⟩))

/-- No line is marked twice. -/
theorem nodup_markedLines : ((markedLines words source).map (·.1)).Nodup :=
  List.pairwise_map.mpr ((pairwise_markedLines words source).imp Nat.ne_of_lt)

end Marker

namespace Code

/-- A function that is reported is described by its file and line. -/
theorem describes_complexityFinding (bands : Bands Int) (file : Text) (blame : List BlameRow)
    (clock : Int) (function : Function) (score : Nat) :
    (Key.function file function.line).Describes
      (complexityFinding bands file blame clock function score) :=
  ⟨rfl, rfl, rfl, rfl, nofun⟩

theorem complexityFindings_described (bands : Bands Int) (file : Text) (functions : List Function)
    (blame : List BlameRow) (clock : Int) :
    List.Forall₂ Key.Describes
      ((functions.filter fun f => decide (bands.low ≤ (complexity f.body : Int))).map fun f =>
        .function file f.line)
      (complexityFindings bands file functions blame clock) := by
  induction functions with
  | nil => exact .nil
  | cons function rest ih =>
    -- the bound that a function has to reach is the same in both lists
    rw [complexityFindings, List.filterMap_cons, List.filter_cons, complexityFinding?]
    by_cases hlow : bands.low ≤ (complexity function.body : Int)
    · simp only [hlow, decide_true, if_true, List.map_cons]
      exact .cons (describes_complexityFinding bands file blame clock function _) ih
    · simp only [hlow, decide_false, if_false]
      exact ih

end Code

namespace Audit

/-- The items of packages are described by their names and titles. -/
theorem exists_described_of_items {packages : List (DocText × Json)} {found : List Finding}
    (h : found.map some = packages.map fun e => item? e.1 e.2) :
    ∃ entries : List (Text × Text),
      packages.map (·.1) = entries.map (fun e => DocText.ofText e.1) ∧
      List.Forall₂ Key.Describes (entries.map fun e => .package e.1 e.2) found := by
  induction packages generalizing found with
  | nil =>
    obtain rfl := List.map_eq_nil_iff.mp h
    exact ⟨[], rfl, .nil⟩
  | cons package rest ih =>
    obtain ⟨first, others, rfl, hfirst, hothers⟩ := List.map_eq_cons_iff.mp h
    obtain ⟨entries, hnames, hentries⟩ := ih hothers
    -- a package with an item is named and titled by texts
    obtain ⟨name, hname, hitem⟩ := Option.bind_eq_some_iff.mp hfirst.symm
    obtain ⟨title, -, hitem⟩ := Option.bind_eq_some_iff.mp hitem
    obtain rfl := Option.some.inj hitem
    refine ⟨(name, title) :: entries, ?_, .cons ⟨rfl, rfl, rfl, rfl, ?_⟩ hentries⟩
    · rw [List.map_cons, List.map_cons, hnames, DocText.eq_ofText_of_toText? hname]
    · rintro _ _ ⟨rfl, rfl⟩
      rfl

/-- What a payload comes to are the items of packages with different names. -/
theorem exists_packages_of_findings {payload : Json} {found : List Finding}
    (hpayload : payload.HasDistinctNames) (h : findings payload = .ok found) :
    ∃ packages : List (DocText × Json), (packages.map (·.1)).Nodup ∧
      found.map some = packages.map fun e => item? e.1 e.2 := by
  have hnone (h : Except.ok [] = (Except.ok found : Except Error (List Finding))) :
      ∃ packages : List (DocText × Json), (packages.map (·.1)).Nodup ∧
        found.map some = packages.map fun e => item? e.1 e.2 := by
    obtain rfl := Except.ok.inj h
    exact ⟨[], List.nodup_nil, rfl⟩
  unfold findings at h
  split at h
  · split at h
    · exact hnone h
    · rename_i packages hfield
      have hmapM := mapM_finding packages
      split at hmapM
      · obtain ⟨items, hitems, heq⟩ := hmapM
        obtain rfl := Except.ok.inj (h.symm.trans hitems)
        exact ⟨packages, (hpayload.of_field? hfield).nodup, heq⟩
      · cases h.symm.trans hmapM
    · split at h
      · cases h
      · exact hnone h
  · cases h

/-- What an audit finds are the items of packages with different names. -/
theorem exists_packages_of_scan {directory : Text} {command : List Text} {limits : Limits}
    {w : World} {found : List Finding} (h : (scan directory command limits w).1 = .ok found) :
    ∃ packages : List (DocText × Json), (packages.map (·.1)).Nodup ∧
      found.map some = packages.map fun e => item? e.1 e.2 := by
  have hnone (h : Except.ok [] = (Except.ok found : Except Fault (List Finding))) :
      ∃ packages : List (DocText × Json), (packages.map (·.1)).Nodup ∧
        found.map some = packages.map fun e => item? e.1 e.2 := by
    obtain rfl := Except.ok.inj h
    exact ⟨[], List.nodup_nil, rfl⟩
  unfold scan at h
  split at h
  · rcases hrun : w.host.runLine command limits.seconds with ⟨cause | output, host⟩ <;> rw [hrun] at h
    · cases cause with
      | noProgram => cases h
      | command cause => exact hnone h
    · simp only at h
      split at h
      · -- the output was read, so no package is listed twice in it
        rename_i houtcome
        obtain rfl := Except.ok.inj h
        obtain ⟨payload, hpayload, hfound⟩ := outcome_eq_some_iff.mp houtcome
        exact exists_packages_of_findings (Json.hasDistinctNames_of_read hpayload) hfound
      · cases h
      · exact hnone h
  · exact hnone h

/-- What an audit finds is described by packages of different names. -/
theorem exists_described {directory : Text} {command : List Text} {limits : Limits} {w : World}
    {found : List Finding} (h : (scan directory command limits w).1 = .ok found) :
    ∃ entries : List (Text × Text), (entries.map (·.1)).Nodup ∧
      List.Forall₂ Key.Describes (entries.map fun e => .package e.1 e.2) found := by
  obtain ⟨packages, hnodup, hitems⟩ := exists_packages_of_scan h
  obtain ⟨entries, hnames, hentries⟩ := exists_described_of_items hitems
  rw [hnames] at hnodup
  have hspelled : ((entries.map (·.1)).map DocText.ofText).Nodup := by
    rw [List.map_map]
    exact hnodup
  exact ⟨entries, hspelled.of_map, hentries⟩

end Audit

namespace Staleness

variable {root : Text} {daysThreshold importThreshold clock : Int} {fanIn : FanIn}

/-- A file that is stale is described by its name. -/
theorem describes_of_inspect {file : Text} {w : World} {found : Option Finding}
    (h : (inspect root daysThreshold importThreshold fanIn clock file w).1 = .ok found) :
    ∀ f ∈ found, (Key.stale file).Describes f := by
  unfold inspect at h
  rcases hlast : History.lastModified root file w with ⟨_ | ⟨commit, moment⟩, v⟩ <;> rw [hlast] at h
  · obtain rfl := Except.ok.inj h
    exact nofun
  · simp only at h
    cases hage : age moment clock with
    | error e =>
      rw [hage] at h
      cases h
    | ok days =>
      rw [hage] at h
      obtain rfl := Except.ok.inj h
      intro f hf
      rw [Option.mem_def, finding?] at hf
      split at hf
      · obtain rfl := Option.some.inj hf
        exact ⟨rfl, rfl, rfl, rfl, nofun⟩
      · cases hf

/-- What is found among some files is described by those of them that are stale. -/
theorem exists_described_of_inspectAll {files : List Text} {w : World} {found : List Finding}
    (h : (inspectAll root daysThreshold importThreshold fanIn clock files w).1 = .ok found) :
    ∃ stale : List Text, stale.Sublist files ∧
      List.Forall₂ Key.Describes (stale.map .stale) found := by
  induction files generalizing w found with
  | nil =>
    obtain rfl := Except.ok.inj h
    exact ⟨[], .slnil, .nil⟩
  | cons file rest ih =>
    rw [inspectAll] at h
    rcases hfile : inspect root daysThreshold importThreshold fanIn clock file w with ⟨_ | first, v⟩
    · rw [hfile] at h
      cases h
    rw [hfile] at h
    rcases hrest : inspectAll root daysThreshold importThreshold fanIn clock rest v
      with ⟨_ | others, u⟩ <;> simp only [hrest] at h
    · cases h
    obtain rfl := Except.ok.inj h
    obtain ⟨stale, hsublist, hstale⟩ := ih (congrArg Prod.fst hrest)
    have hfirst := describes_of_inspect (congrArg Prod.fst hfile)
    cases first with
    | none => exact ⟨stale, hsublist.cons file, hstale⟩
    | some f => exact ⟨file :: stale, hsublist.cons_cons file, .cons (hfirst f rfl) hstale⟩

/-- What the search for stale files finds is described by those of the files that are stale. -/
theorem exists_described {files : List Text} {w : World} {found : List Finding}
    (h : (scan root daysThreshold importThreshold fanIn clock files w).1 = .ok found) :
    ∃ stale : List Text, stale.Sublist files ∧
      List.Forall₂ Key.Describes (stale.map .stale) found := by
  unfold scan at h
  rcases hall : inspectAll root daysThreshold importThreshold fanIn clock files w with ⟨_ | all, v⟩ <;>
    rw [hall] at h
  · cases h
  · obtain rfl := Except.ok.inj h
    exact exists_described_of_inspectAll (congrArg Prod.fst hall)

end Staleness

end DebtSurvey
