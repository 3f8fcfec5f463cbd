import DebtSurvey.Proofs.Discovery
import DebtSurvey.Settings.Reader

/-!
# The limit of files

A scan looks at the first of the files that are found and have a scanned extension. A limit that is
not negative is how many it looks at, if there are as many. A negative one does not leave out all
files: it counts from the end, so that only so many of the last files are left out.

## Main results

* `Scan.length_limitFiles`: how many files a limit keeps.
* `Scan.length_limitFiles_eq_iff`: when a limit keeps as many as it says.
* `Scan.sourceFiles_limited`: which files a scan looks at.
-/

namespace DebtSurvey.Scan

/-- The scanned files are those whose paths end in a scanned extension. -/
theorem isScanned_eq (path : Text) :
    isScanned path = decide (∃ extension ∈ extensions, extension <:+ path) := by
  rw [Bool.eq_iff_iff]
  simp [isScanned]

section Limit

variable (limit : Int) (files : List Text)

/-- A limit keeps the first files. -/
theorem fst_limitFiles :
    (limitFiles limit files).1 = files.take (keptCount limit files.length) := by
  unfold limitFiles
  split
  · rfl
  · have hall : keptCount limit files.length = files.length := by
      unfold keptCount
      split <;> omega
    rw [hall, List.take_length]

/-- A limit keeps as many files as it says, and a negative one all but so many. -/
theorem length_limitFiles :
    ((limitFiles limit files).1.length : Int) =
      if 0 ≤ limit then min (files.length : Int) limit else max 0 (files.length + limit) := by
  rw [fst_limitFiles, List.length_take]
  unfold keptCount
  split <;> omega

/-- A negative limit keeps no files only if there are no more than it leaves out. -/
theorem length_limitFiles_eq_iff :
    ((limitFiles limit files).1.length : Int) = min (files.length : Int) (max 0 limit) ↔
      0 ≤ limit ∨ files.length + limit ≤ 0 := by
  rw [length_limitFiles]
  split <;> omega

end Limit

/-- Where the files of a workspace are found, a scan looks at the first of those whose paths end in
a scanned extension: as many as the limit says, or all but so many where it is negative. So a
negative limit is not the same as one of no files, unless it leaves out all of them. -/
theorem sourceFiles_limited [Glob.Dialect] {root : Node} {directory : Text}
    {settings : Settings} {found : List Text}
    (h : Workspace.files root directory settings.excludes = .ok found) :
    let scanned := found.filter fun path => ∃ extension ∈ extensions, extension <:+ path
    let limit := settings.fileLimit
    ∃ names event, sourceFiles root directory settings = .ok (names, event) ∧
      names <+: scanned ∧
      (names.length : Int) =
        (if 0 ≤ limit then min (scanned.length : Int) limit else max 0 (scanned.length + limit)) ∧
      ((names.length : Int) = min (scanned.length : Int) (max 0 limit) ↔
        0 ≤ limit ∨ scanned.length + limit ≤ 0) := by
  intro scanned limit
  have hscanned : found.filter isScanned = scanned :=
    List.filter_congr fun path _ => isScanned_eq path
  refine ⟨(limitFiles limit scanned).1, (limitFiles limit scanned).2, ?_, ?_,
    length_limitFiles limit scanned, length_limitFiles_eq_iff limit scanned⟩
  · rw [sourceFiles, h, ← hscanned]
    rfl
  · rw [fst_limitFiles]
    exact List.take_prefix _ _

/-- A directory of two files that a scan looks at. -/
def twoScanned : Node := .dir [("a.ts", .file []), ("b.ts", .file [])]

/-- Settings with a negative limit. -/
def negativeLimit : Settings := { fileLimit := -1 }

/-- Of two files a scan looks at the first where the limit is minus one, and settings may have such
a limit. -/
theorem sourceFiles_limited_negative :
    (Settings.ofEntries [(.text (DocText.ofText "max_files_to_scan"), .number (.int (-1)))]).map
        Preferences.settings = .ok negativeLimit ∧
      Workspace.files (.dir [("w", twoScanned)]) "/w" negativeLimit.excludes =
        .ok [("a.ts" : Text), ("b.ts" : Text)] ∧
      ∃ event, sourceFiles (.dir [("w", twoScanned)]) "/w" negativeLimit =
          .ok ([("a.ts" : Text)], event) ∧
        (1 : Int) ≠ min 2 (max 0 negativeLimit.fileLimit) := by
  have hfound : Workspace.files (.dir [("w", twoScanned)]) "/w" negativeLimit.excludes =
      .ok [("a.ts" : Text), ("b.ts" : Text)] := by
    have hbelow : Workspace.pathsBelow twoScanned = [[("a.ts" : Text)], [("b.ts" : Text)]] := by
      -- the entries are in order already
      simp (disch := decide) only [twoScanned, Workspace.pathsBelow, Workspace.fileNames,
        Workspace.branches, Workspace.byName, List.mergeSort_of_pairwise]
      rfl
    have hat : (Node.dir [("w", twoScanned)]).at? "/w" = .ok twoScanned := rfl
    simp only [Workspace.files, Workspace.keptFiles, Workspace.filesBelow, hat, hbelow]
    decide +kernel
  have hscanned : ([("a.ts" : Text), ("b.ts" : Text)].filter fun path =>
      ∃ extension ∈ extensions, extension <:+ path) = [("a.ts" : Text), ("b.ts" : Text)] := by
    decide +kernel
  have hlimited := sourceFiles_limited hfound
  simp only [hscanned] at hlimited
  obtain ⟨names, event, hnames, hprefix, hlength, -⟩ := hlimited
  have hone : names.length = 1 := Int.ofNat.inj hlength
  obtain rfl : names = ["a.ts"] := by
    rw [List.prefix_iff_eq_take.mp hprefix, hone]
    rfl
  exact ⟨rfl, hfound, event, hnames, by decide⟩

end DebtSurvey.Scan
