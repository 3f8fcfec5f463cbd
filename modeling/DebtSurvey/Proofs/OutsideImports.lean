import DebtSurvey.Proofs.FanIn
import DebtSurvey.Proofs.Specifier

/-!
# Imports of files outside the workspace

A relative specifier may lead out of the workspace: on some way from the top its steps up outnumber
the names before them. No scan looks there, but the import is not left out. A walk stays at the top
where a step would leave the workspace, so at its highest point outside it is at the top inside, and
from there on it goes the same way. The import counts for the file that has the rest of the way as
its path, and for no other.

## Main results

* `Imports.length_walk_add_rise`: what a walk leaves tells its highest point.
* `Imports.resolve_of_peak`: behind its highest point an import is resolved from the top.
* `Imports.count_of_leaves`: what an import that leaves the workspace adds to the fan-in of files.
-/

namespace DebtSurvey.Imports

open DebtSurvey.Path (Names)

/-! ### Leaving the workspace -/

/-- How far a way ends above its start: its steps up less its names. -/
def rise (segments : List Text) : Int :=
  segments.countP Path.isUp - segments.countP (decide <| Names ·)

/-- The segments of the way from the top to what a specifier in a file stands for. -/
def route (importer specifier : Text) : List Text :=
  Path.directories importer ++ Path.segments specifier

/-- A specifier in a file that leads out of the workspace, whether or not it comes back. -/
def Leaves (importer specifier : Text) : Prop :=
  ∃ out, out <+: route importer specifier ∧ 0 < rise out

/-- The file at the end of a way from the top. -/
def fileAt (segments : List Text) : Text := withExtension (Text.join ['/'] (walk segments))

theorem resolve_eq_fileAt (importer specifier : Text) :
    resolve importer specifier = fileAt (route importer specifier) := rfl

variable {segments out rest : List Text} {segment : Text}

theorem rise_concat (segments : List Text) (segment : Text) :
    rise (segments ++ [segment]) = rise segments +
      if segment = ['.', '.'] then 1 else if segment = ['.'] ∨ segment = [] then 0 else -1 := by
  rw [rise, rise, List.countP_append, List.countP_append, List.countP_singleton,
    List.countP_singleton]
  by_cases hup : segment = ['.', '.']
  · subst hup
    simp [Path.isUp, Names]
    omega
  · by_cases hidle : segment = ['.'] ∨ segment = []
    · rcases hidle with rfl | rfl <;> simp [Path.isUp, Names]
    · obtain ⟨hstay, hempty⟩ := not_or.mp hidle
      simp [Path.isUp, Names, hup, hstay, hempty]
      omega

theorem length_walk_concat (segments : List Text) (segment : Text) :
    (walk (segments ++ [segment])).length =
      if segment = ['.', '.'] then (walk segments).length - 1
      else if segment = ['.'] ∨ segment = [] then (walk segments).length
      else (walk segments).length + 1 := by
  simp only [walk, List.foldl_append, List.foldl_cons, List.foldl_nil, List.length_reverse,
    walkSegment]
  split
  · exact List.length_tail
  · split <;> rfl

/-- What a walk leaves is as long as its end is below its highest point: the way comes to that
point, and nowhere above it. -/
theorem length_walk_add_rise (segments : List Text) :
    (∃ peak, peak <+: segments ∧ (walk segments).length + rise segments = rise peak) ∧
      ∀ out, out <+: segments → rise out ≤ (walk segments).length + rise segments := by
  induction segments using List.reverseRecOn with
  | nil =>
    refine ⟨⟨[], List.prefix_refl _, rfl⟩, fun out hout => ?_⟩
    rw [List.prefix_nil.mp hout]
    exact Int.le_refl _
  | append_singleton segments segment ih =>
    obtain ⟨⟨peak, hpeak, hsum⟩, hbelow⟩ := ih
    have hrise := rise_concat segments segment
    have hlength := length_walk_concat segments segment
    -- a step changes the sum only where it leads up from the top, to a new highest point
    by_cases hleaves : segment = ['.', '.'] ∧ (walk segments).length = 0
    · obtain ⟨rfl, hzero⟩ := hleaves
      rw [if_pos rfl] at hrise hlength
      refine ⟨⟨_, List.prefix_refl _, by omega⟩, fun out hout => ?_⟩
      rcases List.prefix_concat_iff.mp hout with rfl | hout
      · omega
      · have := hbelow out hout
        omega
    · have hsame : ((walk (segments ++ [segment])).length : Int) + rise (segments ++ [segment]) =
          (walk segments).length + rise segments := by
        rw [hrise, hlength]
        split
        · rename_i hup
          have : (walk segments).length ≠ 0 := fun hzero => hleaves ⟨hup, hzero⟩
          omega
        · split <;> omega
      refine ⟨⟨peak, hpeak.trans (List.prefix_append _ _), hsame.trans hsum⟩, fun out hout => ?_⟩
      rcases List.prefix_concat_iff.mp hout with rfl | hout
      · omega
      · rw [hsame]
        exact hbelow out hout

/-- At its highest point a walk is at the top. -/
theorem walk_of_peak (hpeak : ∀ p, p <+: out → rise p ≤ rise out) : walk out = [] := by
  obtain ⟨⟨peak, hprefix, hsum⟩, -⟩ := length_walk_add_rise out
  have hle := hpeak peak hprefix
  exact List.eq_nil_of_length_eq_zero (by omega)

/-- So from its highest point on it goes as if it had started there. -/
theorem walk_append_of_peak (hpeak : ∀ p, p <+: out → rise p ≤ rise out) (rest : List Text) :
    walk (out ++ rest) = walk rest := by
  have hout : out.foldl walkSegment [] = [] := List.reverse_eq_nil_iff.mp (walk_of_peak hpeak)
  rw [walk, List.foldl_append, hout, walk]

/-- Every way has a highest point. -/
theorem exists_peak (segments : List Text) :
    ∃ out rest, segments = out ++ rest ∧ ∀ p, p <+: segments → rise p ≤ rise out := by
  obtain ⟨⟨out, ⟨rest, hrest⟩, hsum⟩, hbelow⟩ := length_walk_add_rise segments
  exact ⟨out, rest, hrest.symm, fun p hp => hsum ▸ hbelow p hp⟩

/-- Behind its highest point an import is resolved from the top. -/
theorem resolve_of_peak {importer specifier : Text}
    (hroute : route importer specifier = out ++ rest)
    (hpeak : ∀ p, p <+: route importer specifier → rise p ≤ rise out) :
    resolve importer specifier = fileAt rest := by
  rw [resolve_eq_fileAt, hroute, fileAt, walk_append_of_peak fun p hp => hpeak p ?_, fileAt]
  rw [hroute]
  exact hp.trans (List.prefix_append _ _)

/-! ### What one import adds -/

/-- Two trees whose files are the same to a reader of sources, but for one import in one of them. -/
structure AddsImport (before after : Node) (directory : Text) (files : List Text)
    (importer specifier : Text) : Prop where
  /-- Other files have the same source. -/
  others : ∀ file ∈ files, file ≠ importer →
    Source.read after (Path.append directory file) = Source.read before (Path.append directory file)
  /-- The file with the import has it among those that it has anyway. -/
  added : ∃ source changed front back,
    Source.read before (Path.append directory importer) = .ok source ∧
    Source.read after (Path.append directory importer) = .ok changed ∧
    targets source = front ++ back ∧ targets changed = front ++ specifier :: back

/-- Changing what counts for one element changes the count by as many as that element occurs. -/
theorem countP_of_change {α : Type} [BEq α] [LawfulBEq α] {l : List α} {a : α} {p q : α → Bool}
    (hothers : ∀ b ∈ l, b ≠ a → q b = p b) (hmono : p a → q a) :
    l.countP q = l.countP p + if q a && !p a then l.count a else 0 := by
  induction l with
  | nil => simp
  | cons b l ih =>
    obtain ⟨hb, hl⟩ := List.forall_mem_cons.mp hothers
    rw [List.countP_cons, List.countP_cons, List.count_cons, ih hl]
    by_cases hba : b = a
    · subst hba
      rw [beq_self_eq_true, if_pos rfl]
      cases hp : p b <;> cases hq : q b
      · simp
      · simp [Nat.add_assoc]
      · exact absurd (hmono hp) (by simp [hq])
      · simp
    · simp only [hb hba, beq_iff_eq, hba, if_false, Nat.add_zero]
      omega

section Added

variable {before after : Node} {directory importer specifier : Text} {files : List Text}

/-- The files that import a target are the same, but for the one with the import if that resolves to
the target. -/
theorem AddsImport.imports_eq (h : AddsImport before after directory files importer specifier)
    (target : Text) :
    (∀ file ∈ files, file ≠ importer →
      imports after directory target file = imports before directory target file) ∧
    imports after directory target importer = (imports before directory target importer ||
      (hasSourceExtension importer && isRelative specifier &&
        decide (resolve importer specifier = target))) := by
  obtain ⟨source, changed, front, back, hsource, hchanged, htargets, hadded⟩ := h.added
  refine ⟨fun file hfile hother => ?_, ?_⟩
  · rw [imports, imports, h.others file hfile hother]
  · rw [imports, imports, hsource, hchanged]
    simp only [mentions, htargets, hadded, List.any_append, List.any_cons]
    cases hasSourceExtension importer <;> simp [Bool.or_left_comm, Bool.or_comm]

/-- An import adds to the fan-in of the file that it is resolved to, unless that is imported anyway,
and to that of no other. -/
theorem AddsImport.count_eq (h : AddsImport before after directory files importer specifier)
    (hrelative : isRelative specifier) (target : Text) :
    (graph after directory files).1.count target = (graph before directory files).1.count target +
      if target = resolve importer specifier ∧ hasSourceExtension importer ∧
        ¬imports before directory target importer then files.count importer else 0 := by
  obtain ⟨hothers, himporter⟩ := h.imports_eq target
  have hmono (himports : imports before directory target importer) :
      imports after directory target importer := by
    rw [himporter, himports, Bool.true_or]
  rw [(counts_graph after directory files).count_eq, (counts_graph before directory files).count_eq,
    countP_of_change hothers hmono, himporter, hrelative, Int.natCast_add]
  congr 3
  rw [eq_comm (a := target)]
  cases imports before directory target importer <;> simp [and_comm]

end Added

/-- An import that leaves the workspace adds to the fan-in of one file only: the one whose path is
what is left of the way behind its highest point outside. To that file it counts like any other. -/
theorem count_of_leaves {before after : Node} {directory importer specifier : Text}
    {files : List Text} (h : AddsImport before after directory files importer specifier)
    (hrelative : isRelative specifier) (hleaves : Leaves importer specifier) :
    ∃ out rest, route importer specifier = out ++ rest ∧ 0 < rise out ∧
      (∀ p, p <+: route importer specifier → rise p ≤ rise out) ∧
      ∀ target, (graph after directory files).1.count target =
        (graph before directory files).1.count target +
          if target = fileAt rest ∧ hasSourceExtension importer ∧
            ¬imports before directory target importer then files.count importer else 0 := by
  obtain ⟨out, rest, hroute, hpeak⟩ := exists_peak (route importer specifier)
  obtain ⟨p, hp, hrise⟩ := hleaves
  refine ⟨out, rest, hroute, Int.lt_of_lt_of_le hrise (hpeak p hp), hpeak, fun target => ?_⟩
  rw [← resolve_of_peak hroute hpeak]
  exact h.count_eq hrelative target

/-- A workspace in which nothing is imported. -/
def withoutImport : Node := .dir [("w", .dir [("a.ts", .file []), ("b.ts", .file [])])]

/-- The same workspace with an import of a file next to it. -/
def withImport : Node :=
  .dir [("w", .dir [("a.ts", .file (Text.Utf8.encode "import '../b'")), ("b.ts", .file [])])]

theorem addsImport_withImport :
    AddsImport withoutImport withImport "/w" ["a.ts", "b.ts"] "a.ts" "../b" where
  others := by decide +kernel
  added := ⟨[], "import '../b'", [], [], by decide +kernel, by decide +kernel, by decide +kernel,
    by decide +kernel⟩

theorem leaves_up : Leaves "a.ts" "../b" := ⟨[['.', '.']], by decide, by decide⟩

/-- The import of a file next to the workspace counts for the file of the same name inside. -/
theorem count_of_leaves_next :
    AddsImport withoutImport withImport "/w" ["a.ts", "b.ts"] "a.ts" "../b" ∧
      isRelative "../b" ∧ Leaves "a.ts" "../b" ∧
      ∃ out rest, route "a.ts" "../b" = out ++ rest ∧
        (graph withImport "/w" ["a.ts", "b.ts"]).1.count (fileAt rest) =
          (graph withoutImport "/w" ["a.ts", "b.ts"]).1.count (fileAt rest) + 1 := by
  refine ⟨addsImport_withImport, by decide, leaves_up, ?_⟩
  obtain ⟨out, rest, hroute, -, hpeak, hcount⟩ :=
    count_of_leaves addsImport_withImport (by decide) leaves_up
  refine ⟨out, rest, hroute, ?_⟩
  rw [hcount, ← resolve_of_peak hroute hpeak, if_pos (by decide +kernel)]
  rfl

/-- Imports that leave the workspace may well count for files inside. -/
theorem not_forall_count_of_leaves :
    ¬∀ before after directory files importer specifier,
      AddsImport before after directory files importer specifier →
      isRelative specifier → Leaves importer specifier → ∀ file ∈ files,
        (graph after directory files).1.count file =
          (graph before directory files).1.count file := by
  intro h
  have hcount := h _ _ _ _ _ _ addsImport_withImport (by decide) leaves_up "b.ts" (by decide)
  exact absurd hcount (by decide +kernel)

end DebtSurvey.Imports
