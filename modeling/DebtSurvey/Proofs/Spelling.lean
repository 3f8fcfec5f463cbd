import DebtSurvey.Proofs.Specifier
import Mathlib.Logic.Relation

/-!
# Spellings of a specifier

One file can be named in many ways: with doubled slashes, with a `.` between slashes, with a
directory that is entered and left again. A walk over the segments goes nowhere on any of these, from
whatever directory it has come to, also from the top of the workspace, where leaving a directory
would do nothing: there it leaves the one it has just entered. So all spellings resolve to one path.
That path has a source extension, and each of its segments names something.

## Main results

* `Imports.isNormal_resolve`: what a specifier resolves to is a normal path.
* `Imports.resolve_insert`: segments that lead nowhere may be inserted at a slash.
* `Imports.resolve_eq_of_respells`: another spelling resolves to the same path.
* `Imports.resolve_normalises`: both, for any number of changes to the spelling.
-/

namespace DebtSurvey

namespace Path

theorem isNormal_join {segments : List Text} (hne : segments ≠ [])
    (h : ∀ s ∈ segments, Names s ∧ '/' ∉ s) : IsNormal (Text.join ['/'] segments) := by
  intro s hs
  rw [Path.segments, Text.splitOn_join '/' hne fun s hs => (h s hs).2] at hs
  exact (h s hs).1

end Path

namespace Imports

open DebtSurvey.Path (IsNormal Names directories baseName)

/-! ### The form of resolved paths -/

theorem hasSourceExtension_withExtension (path : Text) : hasSourceExtension (withExtension path) := by
  unfold withExtension
  split
  · assumption
  · -- the default extension is one of them
    refine List.any_eq_true.mpr ⟨defaultExtension, List.mem_cons_self, ?_⟩
    exact List.isSuffixOf_iff_suffix.mpr (List.suffix_append path defaultExtension)

/-- A segment with the default extension names something, even when it named nothing without. -/
theorem names_append_defaultExtension (segment : Text) : Names (segment ++ defaultExtension) := by
  have hlength : 3 ≤ (segment ++ defaultExtension).length := by
    rw [List.length_append]
    exact Nat.le_add_left 3 _
  refine ⟨?_, ?_, ?_⟩ <;> intro h <;> simp [h] at hlength

/-- A path of named segments stays one with its extension. Without any segment the extension is the
name. -/
theorem isNormal_withExtension {segments : List Text} (h : ∀ s ∈ segments, Names s ∧ '/' ∉ s) :
    IsNormal (withExtension (Text.join ['/'] segments)) := by
  by_cases hnone : segments = []
  · rw [hnone]
    decide
  have hnormal := Path.isNormal_join hnone h
  unfold withExtension
  split
  · exact hnormal
  · intro s hs
    rw [Path.segments_append _ (by decide)] at hs
    rcases List.mem_append.mp hs with hdirectory | hlast
    · exact hnormal.names_of_mem_directories s hdirectory
    · rw [List.mem_singleton.mp hlast]
      exact names_append_defaultExtension _

/-- A step of a walk leaves no segments but those that were there, and the one it takes if that names
something. -/
theorem forall_mem_walkSegment {directory : List Text} {segment : Text}
    (hdirectory : ∀ s ∈ directory, Names s ∧ '/' ∉ s) (hsegment : '/' ∉ segment) :
    ∀ s ∈ walkSegment directory segment, Names s ∧ '/' ∉ s := by
  unfold walkSegment
  split
  · exact fun s hs => hdirectory s (List.mem_of_mem_tail hs)
  · rename_i hup
    split
    · exact hdirectory
    · rename_i hidle
      obtain ⟨hstay, hempty⟩ := not_or.mp hidle
      exact List.forall_mem_cons.mpr ⟨⟨⟨hempty, hstay, hup⟩, hsegment⟩, hdirectory⟩

/-- A walk leaves segments that name something. -/
theorem forall_mem_walk {segments : List Text} (h : ∀ s ∈ segments, '/' ∉ s) :
    ∀ s ∈ walk segments, Names s ∧ '/' ∉ s := by
  have hrun (directory : List Text) (hdirectory : ∀ s ∈ directory, Names s ∧ '/' ∉ s) :
      ∀ s ∈ segments.foldl walkSegment directory, Names s ∧ '/' ∉ s := by
    induction segments generalizing directory with
    | nil => exact hdirectory
    | cons segment rest ih =>
      obtain ⟨hsegment, hrest⟩ := List.forall_mem_cons.mp h
      exact ih hrest _ (forall_mem_walkSegment hdirectory hsegment)
  intro s hs
  exact hrun [] (List.forall_mem_nil _) s (List.mem_reverse.mp hs)

/-- What a specifier resolves to is a normal path. -/
theorem isNormal_resolve (importer specifier : Text) : IsNormal (resolve importer specifier) := by
  refine isNormal_withExtension (forall_mem_walk fun s hs => ?_)
  rcases List.mem_append.mp hs with hdirectory | hspecifier
  · exact Text.notMem_of_mem_splitOn (List.dropLast_subset _ hdirectory)
  · exact Text.notMem_of_mem_splitOn hspecifier

/-! ### Other spellings -/

/-- Where a slash stands, segments may be inserted that lead from each directory back to itself. -/
theorem resolve_insert (importer : Text) {detour : List Text} (hne : detour ≠ [])
    (hslash : ∀ s ∈ detour, '/' ∉ s)
    (hidle : ∀ directory, detour.foldl walkSegment directory = directory) (front back : Text) :
    resolve importer (front ++ '/' :: (Text.join ['/'] detour ++ '/' :: back)) =
      resolve importer (front ++ '/' :: back) := by
  have hsegments : Text.splitOn '/' (front ++ '/' :: (Text.join ['/'] detour ++ '/' :: back)) =
      Text.splitOn '/' front ++ (detour ++ Text.splitOn '/' back) := by
    rw [Text.splitOn_append, Text.splitOn_append, Text.splitOn_join '/' hne hslash]
  have hwalk (directories : List Text) :
      walk (directories ++ (Text.splitOn '/' front ++ (detour ++ Text.splitOn '/' back))) =
        walk (directories ++ (Text.splitOn '/' front ++ Text.splitOn '/' back)) := by
    simp only [walk, List.foldl_append, hidle]
  rw [resolve, resolve, hsegments, Text.splitOn_append]
  exact congrArg (fun left => withExtension (Text.join ['/'] left)) (hwalk _)

/-- One change to the spelling of a specifier, at one of its slashes. -/
inductive Respells : Text → Text → Prop
  /-- A slash, a point and a slash. -/
  | stay (front back : Text) :
    Respells (front ++ '/' :: back) (front ++ '/' :: '.' :: '/' :: back)
  /-- Two slashes. -/
  | double (front back : Text) : Respells (front ++ '/' :: back) (front ++ '/' :: '/' :: back)
  /-- Into a directory and out of it. -/
  | detour (front back : Text) {segment : Text} (names : Names segment) (slash : '/' ∉ segment) :
    Respells (front ++ '/' :: back)
      (front ++ '/' :: (segment ++ '/' :: '.' :: '.' :: '/' :: back))

/-- A change to the spelling of a specifier does not change what it resolves to. -/
theorem resolve_eq_of_respells (importer : Text) {specifier respelled : Text}
    (h : Respells specifier respelled) :
    resolve importer respelled = resolve importer specifier := by
  cases h with
  | stay front back =>
    exact resolve_insert importer (List.cons_ne_nil ['.'] []) (by simp) (fun _ => rfl) front back
  | double front back =>
    exact resolve_insert importer (List.cons_ne_nil [] []) (by simp) (fun _ => rfl) front back
  | @detour front back segment hnames hslash =>
    have hidle (directory : List Text) :
        [segment, ['.', '.']].foldl walkSegment directory = directory := by
      -- the directory that is left is the one just entered
      have henter : walkSegment directory segment = segment :: directory :=
        foldl_walkSegment_names (List.forall_mem_singleton.mpr hnames) directory
      rw [List.foldl_cons, henter]
      rfl
    have hinsert := resolve_insert importer (by simp) (by simpa using hslash) hidle front back
    rwa [Text.join, Text.join, List.append_assoc, List.append_assoc] at hinsert

/-- What a specifier resolves to has a source extension and is normal. It is the same for each of its
spellings: any number of slashes may be doubled, or have `.`, or a directory that is left again,
inserted. -/
theorem resolve_normalises (importer specifier : Text) :
    hasSourceExtension (resolve importer specifier) ∧ IsNormal (resolve importer specifier) ∧
      ∀ respelled, Relation.ReflTransGen Respells specifier respelled →
        resolve importer respelled = resolve importer specifier := by
  refine ⟨hasSourceExtension_withExtension _, isNormal_resolve _ _, fun respelled h => ?_⟩
  induction h with
  | refl => rfl
  | tail _ hlast ih => exact (resolve_eq_of_respells importer hlast).trans ih

/-- A detour above the workspace, in a specifier that leads to its top. -/
theorem resolve_normalises_above :
    Relation.ReflTransGen Respells "../.." ".././x/../.." ∧
      resolve "a.ts" ".././x/../.." = resolve "a.ts" "../.." ∧
      resolve "a.ts" "../.." = (".ts" : String) := by
  have hstay : Respells "../.." ".././.." := .stay ".." ".."
  have hdetour : Respells ".././.." ".././x/../.." :=
    .detour "../." ".." (by decide : Names "x") (by decide)
  have hspellings := (Relation.ReflTransGen.single hstay).tail hdetour
  obtain ⟨-, -, hsame⟩ := resolve_normalises "a.ts" "../.."
  exact ⟨hspellings, hsame _ hspellings, by decide⟩

end Imports

end DebtSurvey
