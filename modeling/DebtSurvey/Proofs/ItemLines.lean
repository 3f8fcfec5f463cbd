import DebtSurvey.Proofs.OneLineFindings
import DebtSurvey.Report.Markdown

/-!
# The list of findings on the page

The Markdown page ends with a list of the findings, each on a line that begins with its severity and
kind. Nothing in the text of a finding is escaped, so that a newline in it ends the line early, and
what follows it can read like another finding. A scan lets newlines into its findings in two ways:
by the name of a file, and by the name or the title of a dependency, as the audit gives it.

## Main results

* `Report.lists_items_iff`: the list has one line for each finding if and only if no finding brings
  a newline of its own.
* `Scan.lists_of_session`: the page of a map that a session gives.
-/

namespace DebtSurvey

namespace Report

/-- The beginning of the line of a finding. -/
def bullet (f : Finding) : Text := "- **" ++ f.severity.name ++ "** " ++ f.kind.name

/-- The line of a finding without the newline at its end. -/
def itemText (f : Finding) : Text :=
  bullet f ++ ' ' :: place f ++ ' ' :: f.message ++ origin f

/-- Whether a text is a list of findings: it is one line for each of them, in order, and each line
begins with the severity and kind of its finding. -/
def Lists (findings : List Finding) (t : Text) : Prop :=
  ∃ lines, t = Text.terminated lines ∧ (∀ line ∈ lines, line.IsOneLine) ∧
    List.Forall₂ (fun f line => bullet f <+: line) findings lines

variable {f : Finding} {findings : List Finding}

theorem item_eq (f : Finding) : item f = itemText f ++ ['\n'] := by
  simp [item, line, itemText, bullet]

theorem bullet_prefix_itemText (f : Finding) : bullet f <+: itemText f := by
  simp only [itemText, List.append_assoc]
  exact List.prefix_append _ _

/-- The list of findings is the text of each, ended by a newline. -/
theorem items_eq (findings : List Finding) :
    items findings = Text.terminated (findings.map itemText) := by
  rw [items, Text.terminated, List.flatMap_map, show item = _ from funext item_eq]

theorem isOneLine_bullet (f : Finding) : (bullet f).IsOneLine := by
  unfold bullet
  cases f.severity <;> cases f.kind <;> decide

theorem isOneLine_place (f : Finding) : (place f).IsOneLine ↔ f.file.IsOneLine := by
  have hline : ∀ n : Int, Text.IsOneLine (if n = 0 then [] else ':' :: Text.ofInt n) := fun n => by
    split <;> simp
  unfold place code
  cases f.line with
  | none => simp
  | some n => simp [hline]

theorem isOneLine_origin (h : ∀ author, f.author = some author → author.IsOneLine) :
    (origin f).IsOneLine := by
  unfold origin
  cases hauthor : f.author with
  | none => simp
  | some author =>
    have hwords : Text.IsOneLine " (" ∧ Text.IsOneLine ", " ∧ Text.IsOneLine "d)" := by decide
    have hage : ((f.ageInDays.map Text.ofInt).getD []).IsOneLine := by
      cases f.ageInDays <;> simp
    simp only
    split <;> simp [hwords, hage, h author hauthor]

/-- The text of a finding is on one line if the name of its file and what is said about it are. -/
theorem isOneLine_itemText (h : ∀ author, f.author = some author → author.IsOneLine) :
    (itemText f).IsOneLine ↔ f.file.IsOneLine ∧ f.message.IsOneLine := by
  simp [itemText, isOneLine_bullet, isOneLine_place, isOneLine_origin h]

/-- The list of findings has one line for each finding if and only if the text of each is on one
line. -/
theorem lists_items_iff :
    Lists findings (items findings) ↔ ∀ f ∈ findings, (itemText f).IsOneLine := by
  constructor
  · rintro ⟨lines, hitems, hlines, hbullets⟩
    -- both ways of cutting the list have as many newlines, and as many pieces
    have hcount := congrArg (·.count '\n') hitems
    simp only [items_eq] at hcount
    rw [Text.count_terminated_add, Text.count_terminated hlines, List.length_map,
      hbullets.length_eq] at hcount
    have hsum : ((findings.map itemText).map (·.count '\n')).sum = 0 := by omega
    intro f hf
    refine List.count_eq_zero.mp (List.sum_eq_zero_iff.mp hsum _ ?_)
    exact List.mem_map_of_mem (List.mem_map_of_mem hf)
  · intro h
    refine ⟨findings.map itemText, items_eq findings, List.forall_mem_map.mpr h, ?_⟩
    exact List.forall₂_map_right_iff.mpr
      (List.forall₂_same.mpr fun f _ => bullet_prefix_itemText f)

/-- On the page, the list stands below its heading and a blank line. -/
theorem exists_pageText (m : DebtMap) : ∃ above : Text → Text,
    pageText m = (stamp m.scannedAt).map fun date =>
      above date ++ (("## Items\n\n" : Text) ++ items m.findings) := by
  have hfront : ∀ date, ∃ above, front date m = above ++ line ["## Items"] ++ line [] :=
    fun date => ⟨_, rfl⟩
  choose above habove using hfront
  refine ⟨above, ?_⟩
  unfold pageText
  cases stamp m.scannedAt with
  | error e => rfl
  | ok date =>
    show Except.ok (front date m ++ items m.findings) = _
    rw [habove, List.append_assoc, List.append_assoc]
    rfl

end Report

namespace Scan

open Report

/-- The page of a map that a session gives has, below the heading of the list and a blank line, the
list of the findings of the map. It is one line for each finding, in order, that begins with the
severity and kind of the finding, if and only if no file with a finding has a newline in its name, and
no dependency in what is said about it. -/
theorem lists_of_session {root : Text} {requests : List Request} {w : World} {map : DebtMap}
    {steps : List Progress} (hw : w.memory.blames = [])
    (h : .scanned (.ok (map, steps)) ∈ (session root requests w).1) :
    ∃ above : Text → Text,
      pageText map = (stamp map.scannedAt).map (fun date =>
        above date ++ (("## Items\n\n" : Text) ++ items map.findings)) ∧
      (Lists map.findings (items map.findings) ↔
        ∀ f ∈ map.findings, f.file.IsOneLine ∧ (f.kind = .dep → f.message.IsOneLine)) := by
  have hmemory : w.HasOneLineAuthors := fun entry hentry => by
    rw [hw] at hentry
    cases hentry
  obtain ⟨v, schedule, settings, hv, hscan⟩ := exists_scan_of_session hmemory h
  have honeLine := isOneLine_of_scan hv hscan
  obtain ⟨above, hpage⟩ := exists_pageText map
  refine ⟨above, hpage, ?_⟩
  rw [lists_items_iff]
  refine forall₂_congr fun f hf => ?_
  rw [isOneLine_itemText (honeLine f hf).author]
  -- what is said about the others is on one line anyway
  refine and_congr_right fun _ => ⟨fun hmessage _ => hmessage, fun hdependency => ?_⟩
  by_cases hkind : f.kind = .dep
  · exact hdependency hkind
  · exact (honeLine f hf).message hkind

/-- A workspace with a dependency whose vulnerability has a title of two lines. -/
def twoLines : World where
  files := .dir [("w", .dir [("package.json", .file [])])]
  host.script := [("npm audit --json",
    [.exited 0 ("\x7b\"vulnerabilities\": \x7b\"p\": \x7b\"via\": [\x7b\"title\": " ++
      "\"a\\n- **critical** todo `b.ts:1` c\"\x7d]\x7d\x7d\x7d") []])]

/-- The list of its one finding has two lines, the second of which reads like a finding in a file that
is not there. -/
theorem lists_of_session_two_lines :
    ∃ map steps, .scanned (.ok (map, steps)) ∈ (session "/w" [.scan {} {}] twoLines).1 ∧
      items map.findings =
        "- **low** dep `package.json` p: a\n- **critical** todo `b.ts:1` c\n" ∧
      ¬Lists map.findings (items map.findings) := by
  have hitems : (scan {} "/w" {} twoLines).1.toOption.map (fun result => items result.1.findings) =
      some ("- **low** dep `package.json` p: a\n- **critical** todo `b.ts:1` c\n" : Text) := by
    decide +kernel
  have hfound : (scan {} "/w" {} twoLines).1.toOption.map (fun result =>
      result.1.findings.map fun f => (f.kind, f.message)) =
      some [(.dep, ("p: a\n- **critical** todo `b.ts:1` c" : Text))] := by decide +kernel
  rcases hscan : (scan {} "/w" {} twoLines).1 with _ | ⟨map, steps⟩ <;> rw [hscan] at hitems hfound
  · cases hitems
  have hmem : .scanned (.ok (map, steps)) ∈ (session "/w" [.scan {} {}] twoLines).1 := by
    rw [← hscan]
    exact List.mem_singleton_self _
  obtain ⟨above, -, hlists⟩ := lists_of_session rfl hmem
  refine ⟨map, steps, hmem, Option.some.inj hitems, fun h => ?_⟩
  obtain ⟨f, hmap, hf⟩ := List.map_eq_singleton_iff.mp (Option.some.inj hfound)
  obtain ⟨hkind, hmessage⟩ := Prod.mk.inj hf
  have honeLine := (hlists.mp h f (by rw [hmap]; exact List.mem_singleton_self f)).2 hkind
  rw [hmessage] at honeLine
  exact absurd honeLine (by decide)

end Scan

end DebtSurvey
