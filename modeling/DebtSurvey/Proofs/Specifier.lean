import DebtSurvey.Imports.Specifier
import DebtSurvey.Proofs.Pieces
import DebtSurvey.Workspace.Path
import Mathlib.Data.List.Basic
import Mathlib.Tactic.Tauto

/-!
# Relative specifiers

The way from a file to another leads up from the directory of the one, as far as the two directories
differ, and then down to the other. Resolving it walks exactly that way, so it leads to the file that
it was made for.

The default extension may be left out, as long as what is left of the last segment still names
something: without it `.ts`, `..ts` and `...ts` turn into segments that a walk leaves out or that
lead up.

## Main results

* `Imports.foldl_walkSegment_steps`: the steps from one directory to another lead there.
* `Imports.resolve_wayTo`: resolving a way takes its name as one more segment.
* `Imports.resolve_relativeTo`: the way to a file resolves to it, and when it does so without its
  extension.
-/

namespace DebtSurvey

namespace Path

/-- A segment that names something. -/
def Names (segment : Text) : Prop := segment ≠ [] ∧ segment ≠ ['.'] ∧ segment ≠ ['.', '.']

instance : DecidablePred Names := fun _ => inferInstanceAs (Decidable (_ ∧ _))

/-- A path that names something with each of its segments. -/
def IsNormal (path : Text) : Prop := ∀ segment ∈ segments path, Names segment

instance : DecidablePred IsNormal := fun path =>
  inferInstanceAs (Decidable (∀ segment ∈ segments path, Names segment))

/-- The directories that the segments of a path lead through. -/
def directories (path : Text) : List Text := (segments path).dropLast

theorem directories_concat_baseName (path : Text) :
    directories path ++ [baseName path] = segments path := by
  have hne : segments path ≠ [] := Text.splitOn_ne_nil _ _
  rw [directories, baseName, List.getLast?_eq_some_getLast hne, Option.getD_some,
    List.dropLast_concat_getLast]

theorem join_directories_concat_baseName (path : Text) :
    Text.join ['/'] (directories path ++ [baseName path]) = path := by
  rw [directories_concat_baseName]
  exact Text.join_splitOn '/' path

theorem slash_notMem_directories (path : Text) : ∀ segment ∈ directories path, '/' ∉ segment :=
  fun _ hsegment => Text.notMem_of_mem_splitOn (List.dropLast_subset _ hsegment)

theorem slash_notMem_baseName (path : Text) : '/' ∉ baseName path := by
  have hmem : baseName path ∈ segments path := by
    rw [← directories_concat_baseName]
    exact List.mem_concat_self
  exact Text.notMem_of_mem_splitOn hmem

/-- A text that follows a path and holds no slash follows its last segment. -/
theorem segments_append (path : Text) {suffix : Text} (h : '/' ∉ suffix) :
    segments (path ++ suffix) = directories path ++ [baseName path ++ suffix] := by
  have hpieces : ∀ piece ∈ directories path ++ [baseName path ++ suffix], '/' ∉ piece := by
    intro piece hpiece
    rcases List.mem_append.mp hpiece with hdirectory | hlast
    · exact slash_notMem_directories path piece hdirectory
    · rw [List.mem_singleton.mp hlast]
      exact List.not_mem_append (slash_notMem_baseName path) h
  have hjoin : Text.join ['/'] (directories path ++ [baseName path ++ suffix]) = path ++ suffix := by
    rw [Text.join_concat_append, join_directories_concat_baseName]
  rw [← hjoin, segments, Text.splitOn_join '/' (by simp) hpieces]

theorem directories_append (path : Text) {suffix : Text} (h : '/' ∉ suffix) :
    directories (path ++ suffix) = directories path := by
  rw [directories, segments_append path h, List.dropLast_concat]

theorem baseName_append (path : Text) {suffix : Text} (h : '/' ∉ suffix) :
    baseName (path ++ suffix) = baseName path ++ suffix := by
  rw [baseName, segments_append path h, List.getLast?_concat]
  rfl

theorem IsNormal.names_of_mem_directories {path : Text} (h : IsNormal path) :
    ∀ segment ∈ directories path, Names segment :=
  fun segment hsegment => h segment (List.dropLast_subset _ hsegment)

theorem IsNormal.names_baseName {path : Text} (h : IsNormal path) : Names (baseName path) :=
  h _ (by rw [← directories_concat_baseName]; exact List.mem_concat_self)

/-- What two lists have in common stands in front of what is left of both. -/
theorem exists_common (s t : List Text) :
    ∃ common, s = common ++ (dropCommon s t).1 ∧ t = common ++ (dropCommon s t).2 := by
  fun_induction dropCommon s t with
  | case1 s a t ih =>
    obtain ⟨common, hs, ht⟩ := ih
    exact ⟨a :: common, congrArg (a :: ·) hs, congrArg (a :: ·) ht⟩
  | case2 => exact ⟨[], rfl, rfl⟩
  | case3 => exact ⟨[], rfl, rfl⟩

end Path

namespace Imports

open DebtSurvey.Path (IsNormal Names directories baseName)

/-! ### Walking -/

theorem foldl_walkSegment_names {segments : List Text} (h : ∀ s ∈ segments, Names s)
    (directory : List Text) :
    segments.foldl walkSegment directory = segments.reverse ++ directory := by
  induction segments generalizing directory with
  | nil => rfl
  | cons s rest ih =>
    obtain ⟨⟨hne, hidle, hup⟩, hrest⟩ := List.forall_mem_cons.mp h
    rw [List.foldl_cons, walkSegment, if_neg hup, if_neg (not_or.mpr ⟨hidle, hne⟩), ih hrest,
      List.reverse_cons, List.append_assoc]
    rfl

/-- One step up for each of some directories leaves as many. -/
theorem foldl_walkSegment_up (up directory : List Text) :
    (up.map fun _ => ['.', '.']).foldl walkSegment directory = directory.drop up.length := by
  induction up generalizing directory with
  | nil => rfl
  | cons _ rest ih =>
    rw [List.map_cons, List.foldl_cons, ih, walkSegment, if_pos rfl, List.length_cons,
      List.drop_tail]

/-- The steps from the directories of a file to other ones: up as far as they differ, and down. Where
nothing is to be left, `.` stands for the directory itself. -/
def steps (here there : List Text) : List Text :=
  let (up, down) := Path.dropCommon here there
  (if up = [] then [['.']] else up.map fun _ => ['.', '.']) ++ down

/-- The steps from some directories lead to the others. -/
theorem foldl_walkSegment_steps {here there : List Text} (hhere : ∀ s ∈ here, Names s)
    (hthere : ∀ s ∈ there, Names s) :
    (here ++ steps here there).foldl walkSegment [] = there.reverse := by
  obtain ⟨common, hup, hdown⟩ := Path.exists_common here there
  rw [steps]
  generalize Path.dropCommon here there = left at hup hdown
  obtain ⟨up, down⟩ := left
  simp only at hup hdown ⊢
  -- first up to what both have in common, then down from there
  have hleave : (if up = [] then [['.']] else up.map fun _ => ['.', '.']).foldl walkSegment
      here.reverse = common.reverse := by
    split
    · rename_i hnone
      rw [hup, hnone, List.append_nil]
      rfl
    · rw [foldl_walkSegment_up, hup, List.reverse_append, ← List.length_reverse, List.drop_left]
  rw [List.foldl_append, List.foldl_append, foldl_walkSegment_names hhere, List.append_nil, hleave,
    foldl_walkSegment_names fun s hs => hthere s (by rw [hdown]; exact List.mem_append_right _ hs),
    hdown, List.reverse_append]

/-! ### Ways to files -/

/-- The way from a file to a name in some directories. -/
def wayTo (importer : Text) (there : List Text) (name : Text) : Text :=
  Text.join ['/'] (steps (directories importer) there ++ [name])

/-- The way from a file to another. -/
def relativeTo (importer target : Text) : Text :=
  wayTo importer (directories target) (baseName target)

theorem slash_notMem_steps {here there : List Text} (h : ∀ s ∈ there, '/' ∉ s) :
    ∀ s ∈ steps here there, '/' ∉ s := by
  obtain ⟨common, -, hdown⟩ := Path.exists_common here there
  intro s hs
  rcases List.mem_append.mp hs with hup | hmem
  · split at hup
    · rw [List.mem_singleton.mp hup]
      decide
    · obtain ⟨_, -, rfl⟩ := List.mem_map.mp hup
      decide
  · exact h s (by rw [hdown]; exact List.mem_append_right _ hmem)

section Way

variable {importer name : Text} {there : List Text} (himporter : IsNormal importer)
  (hthere : ∀ s ∈ there, Names s) (hslash : ∀ s ∈ there, '/' ∉ s) (hname : '/' ∉ name)

include himporter hthere hslash hname

/-- Resolving a way takes its name as one more segment from the directories that it leads to. -/
theorem resolve_wayTo :
    resolve importer (wayTo importer there name) =
      withExtension (Text.join ['/'] (walkSegment there.reverse name).reverse) := by
  -- none of the pieces holds a slash, so splitting the way gives them back
  have hpieces : ∀ piece ∈ steps (directories importer) there ++ [name], '/' ∉ piece := by
    intro piece hpiece
    rcases List.mem_append.mp hpiece with hstep | hlast
    · exact slash_notMem_steps hslash piece hstep
    · rwa [List.mem_singleton.mp hlast]
  have hwalk : walk (directories importer ++ (steps (directories importer) there ++ [name])) =
      (walkSegment there.reverse name).reverse := by
    rw [walk, ← List.append_assoc, List.foldl_append,
      foldl_walkSegment_steps himporter.names_of_mem_directories hthere]
    rfl
  rw [← hwalk, resolve, wayTo, Text.splitOn_join '/' (by simp) hpieces]
  rfl

/-- A name stands at the end of the way. -/
theorem resolve_wayTo_of_names (h : Names name) :
    resolve importer (wayTo importer there name) =
      withExtension (Text.join ['/'] (there ++ [name])) := by
  rw [resolve_wayTo himporter hthere hslash hname, walkSegment, if_neg h.2.2,
    if_neg (not_or.mpr ⟨h.2.1, h.1⟩), List.reverse_cons, List.reverse_reverse]

/-- What names nothing adds no segment. -/
theorem length_resolve_wayTo_le (h : ¬Names name) :
    (resolve importer (wayTo importer there name)).length ≤
      (Text.join ['/'] there).length + defaultExtension.length := by
  have hextension (path : Text) :
      (withExtension path).length ≤ path.length + defaultExtension.length := by
    rw [withExtension]
    split
    · exact Nat.le_add_right _ _
    · exact Nat.le_of_eq List.length_append
  have hwalk : (Text.join ['/'] (walkSegment there.reverse name).reverse).length ≤
      (Text.join ['/'] there).length := by
    rw [walkSegment]
    split
    · -- a step up leaves the last directory
      rw [List.tail_reverse, List.reverse_reverse]
      exact Text.length_join_dropLast_le _ _
    · rename_i hup
      have hidle : name = ['.'] ∨ name = [] := by
        by_contra hnot
        rw [not_or] at hnot
        exact h ⟨hnot.2, hnot.1, hup⟩
      exact Nat.le_of_eq (by rw [if_pos hidle, List.reverse_reverse])
  rw [resolve_wayTo himporter hthere hslash hname]
  exact Nat.le_trans (hextension _) (Nat.add_le_add_right hwalk _)

end Way

/-- The last segments that name nothing once the default extension is taken from them. -/
def shadowedNames : List Text := [".ts", "..ts", "...ts"]

theorem mem_shadowedNames_iff (name : Text) :
    name ++ defaultExtension ∈ shadowedNames ↔ ¬Names name := by
  have hshadowed : shadowedNames = [[], ['.'], ['.', '.']].map (· ++ defaultExtension) := rfl
  rw [hshadowed, List.mem_map_of_injective (List.append_left_injective _), Names]
  simp only [List.mem_cons, List.not_mem_nil, or_false]
  tauto

/-- A path is longer than what its directories join to, unless it is empty. -/
theorem eq_nil_of_length_le {stem : Text}
    (h : stem.length ≤ (Text.join ['/'] (directories stem)).length) : stem = [] := by
  have hjoin := Path.join_directories_concat_baseName stem
  by_cases hnone : directories stem = []
  · rw [hnone] at h
    exact List.eq_nil_of_length_eq_zero (Nat.le_zero.mp h)
  · rw [Text.join_append _ hnone (by simp)] at hjoin
    have hlength := congrArg List.length hjoin
    rw [List.length_append, List.length_append, List.length_singleton] at hlength
    omega

/-- A relative specifier that leads from one file to another resolves to it. If the file has the
default extension, and what comes before it ends in no source extension, then the specifier without
that extension resolves to it as well, unless what is left of its last segment names nothing; the
file `.ts` at the top is the one exception to that. -/
theorem resolve_relativeTo {importer target : Text} (himporter : IsNormal importer)
    (htarget : IsNormal target) (hextension : hasSourceExtension target) :
    resolve importer (relativeTo importer target) = target ∧
      ∀ stem, target = stem ++ defaultExtension → ¬hasSourceExtension stem →
        ∃ short, relativeTo importer target = short ++ defaultExtension ∧
          (resolve importer short = target ↔
            baseName target ∉ shadowedNames ∨ target = defaultExtension) := by
  have hthere := htarget.names_of_mem_directories
  have hslash := Path.slash_notMem_directories target
  refine ⟨?_, fun stem hstem hplain => ?_⟩
  · rw [relativeTo, resolve_wayTo_of_names himporter hthere hslash (Path.slash_notMem_baseName _)
      htarget.names_baseName, Path.join_directories_concat_baseName, withExtension,
      if_pos hextension]
  -- without its extension the specifier is the way to what is left of the last segment
  have hnone : '/' ∉ defaultExtension := by decide
  rw [hstem, Path.directories_append stem hnone] at hthere hslash
  have hname := Path.slash_notMem_baseName stem
  refine ⟨wayTo importer (directories stem) (baseName stem), ?_, ?_⟩
  · rw [hstem, relativeTo, Path.directories_append stem hnone, Path.baseName_append stem hnone,
      wayTo, wayTo, Text.join_concat_append]
  rw [hstem, Path.baseName_append stem hnone, mem_shadowedNames_iff, not_not]
  by_cases hnames : Names (baseName stem)
  · refine iff_of_true ?_ (.inl hnames)
    rw [resolve_wayTo_of_names himporter hthere hslash hname hnames,
      Path.join_directories_concat_baseName, withExtension, if_neg hplain]
  · -- nothing stands for the last segment, so the specifier resolves to something shorter
    rw [or_iff_right hnames]
    constructor
    · intro hresolve
      have hlength := length_resolve_wayTo_le himporter hthere hslash hname hnames
      rw [hresolve, List.length_append] at hlength
      rw [eq_nil_of_length_le (Nat.le_of_add_le_add_right hlength), List.nil_append]
    · intro htop
      obtain rfl : stem = [] := List.append_left_eq_self.mp htop
      exact resolve_wayTo himporter hthere hslash hname

/-- A file in a directory next to the one of the importing file, with its extension and without. -/
theorem resolve_relativeTo_sibling :
    IsNormal "a/b/x.ts" ∧ IsNormal "a/c/y.ts" ∧ hasSourceExtension "a/c/y.ts" ∧
      relativeTo "a/b/x.ts" "a/c/y.ts" = ("../c/y.ts" : String) ∧
      resolve "a/b/x.ts" "../c/y.ts" = ("a/c/y.ts" : String) ∧
      resolve "a/b/x.ts" "../c/y" = ("a/c/y.ts" : String) := by
  have himporter : IsNormal "a/b/x.ts" := by decide
  have htarget : IsNormal "a/c/y.ts" := by decide
  have hextension : hasSourceExtension "a/c/y.ts" := by decide
  have hway : relativeTo "a/b/x.ts" "a/c/y.ts" = ("../c/y.ts" : String) := by decide
  obtain ⟨hwhole, hstem⟩ := resolve_relativeTo himporter htarget hextension
  obtain ⟨short, hshort, hresolve⟩ := hstem "a/c/y" rfl (by decide)
  rw [hway] at hwhole
  replace hshort : ("../c/y" : Text) ++ defaultExtension = short ++ defaultExtension :=
    hway.symm.trans hshort
  obtain rfl := List.append_cancel_right hshort
  exact ⟨himporter, htarget, hextension, hway, hwhole, hresolve.mpr (.inl (by decide))⟩

/-- The specifier of a file `.ts` in a directory stands for another file without the extension. -/
theorem resolve_relativeTo_shadowed :
    ¬∀ importer target : Text, IsNormal importer → IsNormal target → hasSourceExtension target →
      resolve importer (relativeTo importer target) = target ∧
        ∀ stem, target = stem ++ defaultExtension → ¬hasSourceExtension stem →
          ∀ short, relativeTo importer target = short ++ defaultExtension →
            resolve importer short = target := by
  intro h
  obtain ⟨-, hstem⟩ := h "x.ts" "a/.ts" (by decide) (by decide) (by decide)
  have hresolve : resolve "x.ts" "./a/" = ("a/.ts" : String) :=
    hstem "a/" rfl (by decide) "./a/" (by decide)
  exact absurd hresolve (by decide)

end Imports

end DebtSurvey
