import DebtSurvey.Proofs.FindingKinds
import DebtSurvey.Proofs.FindingShape

/-!
# What identities are digests of

The identity of a marker, of a function or of a stale file is the digest of one text: its file, its
line if it has one, and its kind, with colons between them. Nothing in that text is escaped, and the
name of a file may hold colons, digits and names of kinds itself. Read from the back it is still
unambiguous: no name of a kind holds a colon and no numeral does, so the last colons are those that
were put in. Two such findings have one text only if they are of one kind, in one file and on one
line.

## Main results

* `Finding.IsInFile.id_eq`: the identity of such a finding is the digest of its text.
* `Scan.isInFile_of_scan`: all findings of a scan but packages are such findings.
* `Finding.place_of_keyText`: their texts tell their kinds, files and lines.
-/

namespace DebtSurvey

namespace Finding

/-- The text that the identity of a finding in a file is a digest of. -/
def keyText (f : Finding) : Text :=
  Text.join [':'] (f.file :: ((f.line.map Text.ofInt).toList ++ [f.kind.name]))

/-- A finding in a file: a line with a marker, a function on its line, or a stale file. -/
inductive IsInFile : Finding → Prop
  | marker (file : Text) (blame : List BlameRow) (clock : Int) (number : Nat) (line : Text) :
    IsInFile (Marker.finding file blame clock number line)
  | function (bands : Code.Bands Int) (file : Text) (blame : List BlameRow) (clock : Int)
    (function : Code.Function) (score : Nat) :
    IsInFile (Code.complexityFinding bands file blame clock function score)
  | stale {staleDays staleImports : Int} {fanIn : FanIn} {file commit : Text} {age : Int}
    {f : Finding}
    (found : Staleness.finding? staleDays staleImports fanIn file commit age = some f) :
    IsInFile f

variable {f g : Finding}

/-- A finding in a file has its place and its identity from a key that is of no package. -/
theorem IsInFile.exists_key (h : f.IsInFile) : ∃ k : Key, k.Describes f ∧ k.kind ≠ .dep := by
  cases h with
  | marker file blame clock number line =>
    have hkind : Kind.todo ≠ .dep := by decide
    exact ⟨.marker file number, ⟨rfl, rfl, rfl, rfl, fun _ _ h => Key.noConfusion h⟩, hkind⟩
  | function bands file blame clock function score =>
    have hkind : Kind.complexity ≠ .dep := by decide
    exact ⟨.function file function.line,
      Code.describes_complexityFinding bands file blame clock function score, hkind⟩
  | @stale staleDays staleImports fanIn file _ _ _ found =>
    rw [Staleness.finding?] at found
    split at found
    · obtain rfl := Option.some.inj found
      have hkind : Kind.stale ≠ .dep := by decide
      exact ⟨.stale file, ⟨rfl, rfl, rfl, rfl, fun _ _ h => Key.noConfusion h⟩, hkind⟩
    · cases found

end Finding

/-- The text of a finding in a file is that of its key. -/
theorem Key.Describes.keyText_eq {k : Key} {f : Finding} (h : k.Describes f) (hk : k.kind ≠ .dep) :
    f.keyText = k.text := by
  rw [Finding.keyText, h.file, h.line, h.kind]
  cases k with
  | package => exact absurd rfl hk
  | _ => rfl

namespace Finding

variable {f g : Finding}

/-- The identity of a finding in a file is the digest of its text. -/
theorem IsInFile.id_eq (h : f.IsInFile) : f.id = Identity.ofKey f.keyText := by
  obtain ⟨k, hk, hkind⟩ := h.exists_key
  rw [hk.keyText_eq hkind, hk.id]

/-- The texts that the identities of findings in files are digests of are equal only if the findings
are of one kind, in one file and on one line, whatever the name of the file is. -/
theorem place_of_keyText (hf : f.IsInFile) (hg : g.IsInFile) :
    f.id = Identity.ofKey f.keyText ∧ g.id = Identity.ofKey g.keyText ∧
      (f.keyText = g.keyText ↔ f.kind = g.kind ∧ f.file = g.file ∧ f.line = g.line) := by
  refine ⟨hf.id_eq, hg.id_eq, fun htext => ?_, fun ⟨hkind, hfile, hline⟩ => ?_⟩
  · obtain ⟨k, hk, hkdep⟩ := hf.exists_key
    obtain ⟨l, hl, hldep⟩ := hg.exists_key
    -- equal texts are texts of one key, which both findings have their places from
    rw [hk.keyText_eq hkdep, hl.keyText_eq hldep] at htext
    obtain rfl := Key.eq_of_text_eq hkdep hldep htext
    exact ⟨hk.kind.trans hl.kind.symm, hk.file.trans hl.file.symm, hk.line.trans hl.line.symm⟩
  · rw [keyText, keyText, hkind, hfile, hline]

/-- A marker on line 2 of a file `a:1` and one on line 12 of a file `a`: their keys differ by a
colon. -/
theorem place_of_keyText_colon :
    IsInFile (Marker.finding "a:1" [] 0 2 "TODO") ∧ IsInFile (Marker.finding "a" [] 0 12 "TODO") ∧
      (Marker.finding "a:1" [] 0 2 "TODO").keyText = ("a:1:2:todo" : String) ∧
      (Marker.finding "a" [] 0 12 "TODO").keyText = ("a:12:todo" : String) ∧
      (Marker.finding "a:1" [] 0 2 "TODO").keyText ≠
        (Marker.finding "a" [] 0 12 "TODO").keyText := by
  have hf := IsInFile.marker "a:1" [] 0 2 "TODO"
  have hg := IsInFile.marker "a" [] 0 12 "TODO"
  obtain ⟨-, -, hplace⟩ := place_of_keyText hf hg
  exact ⟨hf, hg, by decide, by decide, fun htext => absurd (hplace.mp htext).2.1 (by decide)⟩

end Finding

namespace Scan

/-- What is found in a file is a marker or a function. -/
theorem isInFile_of_isResult {files : Node} {root : Text} {settings : Settings} {clock : Int}
    {answered : Text → BlameResult → Prop} {file : Text} {result : FileResult}
    (h : IsResult files root settings clock answered file result) :
    ∀ f ∈ found result, f.IsInFile := by
  intro f hf
  obtain ⟨rows, -, ⟨source, -, hmarker⟩ | hfunction⟩ := mem_of_isResult h hf
  · obtain ⟨number, line, -, -, rfl⟩ := Marker.mem_findings.mp hmarker
    exact .marker ..
  · obtain ⟨function, -, -, rfl⟩ := Code.mem_complexityFindings.mp hfunction
    exact .function ..

/-- Whatever a scan finds, unless it is a package, is a finding in a file. -/
theorem isInFile_of_scan {schedule : Schedule} {root : Text} {settings : Settings} {w : World}
    {map : DebtMap} {steps : List Progress}
    (h : (scan schedule root settings w).1 = .ok (map, steps)) :
    ∀ f ∈ map.findings, f.kind ≠ .dep → f.IsInFile := by
  obtain ⟨names, event, results, dependencies, stale, -, -, hresults, haudit, hstale, hfindings⟩ :=
    parts_of_scan (filesInvariant w.files) (fun hcommit => (currentCommit_settles hcommit).2.1)
      (fun _ _ => ensures_blame_files w.files) h
  intro f hf hdep
  rw [hfindings] at hf
  rcases List.mem_append.mp hf with hf | hold
  · rcases List.mem_append.mp hf with hinFile | hdependency
    · exact forall_found hresults (fun _ _ => isInFile_of_isResult) f hinFile
    · exact absurd (Audit.kind_of_scan haudit f hdependency) hdep
  · obtain ⟨file, -, commit, days, hfinding⟩ := Staleness.exists_finding?_of_scan hstale f hold
    exact .stale hfinding

end Scan

end DebtSurvey
