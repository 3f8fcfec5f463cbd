import DebtSurvey.Imports.Graph
import DebtSurvey.Proofs.Progress
import Mathlib.Data.List.Induction
import Mathlib.Data.List.Nodup

/-!
# Fan-in of targets

The fan-in is built up file by file. A file adds one to each of its targets, and no target is listed
twice in it however it is spelled, so what is counted is files. The count of a target does not depend
on when its files come, and targets that no file imports are never entered.

## Main results

* `FanIn.Counts.bump`: one more file for a target.
* `Imports.counts_graph`: what is counted for each target.
* `Imports.graph_eq_counts`: the fan-in is that count, in whatever order the files come.
-/

namespace DebtSurvey

namespace FanIn

variable {fanIn : FanIn} {n : Text → Nat}

/-- The targets that are counted. -/
def keys (fanIn : FanIn) : List Text := fanIn.map (·.1)

@[simp]
theorem keys_nil : keys [] = [] := rfl

@[simp]
theorem keys_cons (entry : Text × Int) (rest : FanIn) :
    keys (entry :: rest) = entry.1 :: keys rest := rfl

theorem count_cons (entry : Text × Int) (rest : FanIn) (t : Text) :
    count (entry :: rest) t = if entry.1 = t then entry.2 else count rest t := by
  unfold count
  rw [List.find?_cons]
  by_cases h : entry.1 = t <;> simp [h]

theorem count_bump (fanIn : FanIn) (target t : Text) :
    (fanIn.bump target).count t = fanIn.count t + if target = t then 1 else 0 := by
  induction fanIn with
  | nil =>
    rw [bump, count_cons]
    exact (Int.zero_add _).symm
  | cons entry rest ih =>
    rw [bump]
    split
    · rename_i hfirst
      rw [count_cons, count_cons, hfirst]
      split
      · rfl
      · exact (Int.add_zero _).symm
    · rename_i hother
      rw [count_cons, count_cons, ih]
      split
      · -- the entry of `t` is passed over on the way to that of the target
        rename_i hentry
        rw [if_neg fun htarget => hother (hentry.trans htarget.symm), Int.add_zero]
      · rfl

theorem mem_keys_bump (fanIn : FanIn) (target t : Text) :
    t ∈ (fanIn.bump target).keys ↔ t ∈ fanIn.keys ∨ t = target := by
  induction fanIn with
  | nil => simp [bump]
  | cons entry rest ih =>
    rw [bump]
    split
    · rename_i hfirst
      simp only [keys_cons, List.mem_cons, ← hfirst]
      exact ⟨.inl, fun h => h.elim id .inl⟩
    · simp only [keys_cons, List.mem_cons, ih, or_assoc]

theorem nodup_keys_bump (h : fanIn.keys.Nodup) (target : Text) :
    (fanIn.bump target).keys.Nodup := by
  induction fanIn with
  | nil => exact List.nodup_singleton _
  | cons entry rest ih =>
    obtain ⟨hnew, hrest⟩ := List.nodup_cons.mp h
    rw [bump]
    split
    · exact List.nodup_cons.mpr ⟨hnew, hrest⟩
    · rename_i hother
      refine List.nodup_cons.mpr ⟨fun hmem => ?_, ih hrest⟩
      exact ((mem_keys_bump rest target entry.1).mp hmem).elim hnew hother

/-- With one entry for each key, the entries are the keys with their counts. -/
theorem mem_iff_of_nodup (h : fanIn.keys.Nodup) (t : Text) (k : Int) :
    (t, k) ∈ fanIn ↔ t ∈ fanIn.keys ∧ k = fanIn.count t := by
  induction fanIn with
  | nil => simp
  | cons entry rest ih =>
    obtain ⟨hnew, hrest⟩ : entry.1 ∉ keys rest ∧ (keys rest).Nodup := List.nodup_cons.mp h
    rw [List.mem_cons, ih hrest, count_cons, keys_cons, List.mem_cons]
    by_cases hfirst : entry.1 = t
    · subst hfirst
      simp [hnew, Prod.ext_iff]
    · simp [Prod.ext_iff, hfirst, Ne.symm hfirst]

/-! ### Counting files -/

/-- A fan-in that holds the number of files of each target that has any, and nothing else. -/
structure Counts (fanIn : FanIn) (n : Text → Nat) : Prop where
  nodup : fanIn.keys.Nodup
  mem_keys : ∀ t, t ∈ fanIn.keys ↔ 0 < n t
  count_eq : ∀ t, fanIn.count t = n t

theorem counts_nil : Counts [] fun _ => 0 where
  nodup := List.nodup_nil
  mem_keys t := by simp
  count_eq t := rfl

/-- One more file for a target. -/
theorem Counts.bump (h : Counts fanIn n) (target : Text) :
    Counts (fanIn.bump target) fun t => n t + if target = t then 1 else 0 where
  nodup := nodup_keys_bump h.nodup target
  mem_keys t := by
    rw [mem_keys_bump, h.mem_keys, eq_comm]
    by_cases ht : target = t <;> simp [ht]
  count_eq t := by
    rw [count_bump, h.count_eq]
    split <;> rfl

/-- One more file for each of some targets. -/
theorem Counts.foldl_bump {targets : List Text} (h : Counts fanIn n) (hnodup : targets.Nodup) :
    Counts (targets.foldl FanIn.bump fanIn) fun t => n t + if t ∈ targets then 1 else 0 := by
  induction targets generalizing fanIn n with
  | nil => simpa using h
  | cons target rest ih =>
    obtain ⟨hnew, hrest⟩ := List.nodup_cons.mp hnodup
    -- the first target is not among the others, so nothing is counted twice
    have hsum : (fun t => n t + if t ∈ target :: rest then 1 else 0) = fun t =>
        n t + (if target = t then 1 else 0) + if t ∈ rest then 1 else 0 := by
      funext t
      by_cases ht : target = t
      · subst ht
        simp [hnew]
      · simp [ht, Ne.symm ht]
    rw [hsum]
    exact ih (h.bump target) hrest

theorem Counts.mem_iff (h : Counts fanIn n) (t : Text) (k : Int) :
    (t, k) ∈ fanIn ↔ 0 < n t ∧ k = n t := by
  rw [mem_iff_of_nodup h.nodup, h.mem_keys, h.count_eq]

/-- Two fan-ins that hold the same numbers differ in their order at most. -/
theorem Counts.perm {other : FanIn} (h : Counts fanIn n) (hother : Counts other n) :
    fanIn.Perm other := by
  refine (List.perm_ext_iff_of_nodup h.nodup.of_map hother.nodup.of_map).mpr ?_
  rintro ⟨t, k⟩
  rw [h.mem_iff, hother.mem_iff]

end FanIn

namespace Imports

open FanIn (Counts)

variable {root : Node} {directory : Text} {fanIn : FanIn} {n : Text → Nat}

/-- Whether a source text in a file imports a target by a relative specifier. -/
def mentions (file source target : Text) : Bool :=
  (targets source).any fun specifier =>
    isRelative specifier && decide (resolve file specifier = target)

/-- Whether a file is a source file that can be read and that imports a target. -/
def imports (root : Node) (directory target file : Text) : Bool :=
  hasSourceExtension file &&
    match Source.read root (Path.append directory file) with
    | .error _ => false
    | .ok source => mentions file source target

theorem mem_localTargets (file source target : Text) :
    target ∈ localTargets file source ↔ mentions file source target := by
  simp [localTargets, mentions, and_assoc]

/-- However often a file imports a target, and whatever the specifiers are, it is one target of the
file. -/
theorem nodup_localTargets (file source : Text) : (localTargets file source).Nodup :=
  (List.mergeSort_perm _ _).nodup_iff.mpr (nodup_eraseDups _)

/-- A file counts once for each target that it imports. -/
theorem counts_addFile (root : Node) (directory : Text) (h : Counts fanIn n) (file : Text) :
    Counts (addFile root directory fanIn file).1 fun t =>
      n t + if imports root directory t file then 1 else 0 := by
  unfold addFile imports
  by_cases hextension : hasSourceExtension file
  · cases Source.read root (Path.append directory file) with
    | error cause =>
      -- what cannot be read is skipped, and imports nothing
      simpa [hextension] using h
    | ok source =>
      have hfile := h.foldl_bump (nodup_localTargets file source)
      simp only [mem_localTargets] at hfile
      simpa [hextension] using hfile
  · simpa [hextension] using h

/-- One more file is counted after all others. -/
theorem fst_graph_concat (root : Node) (directory : Text) (files : List Text) (file : Text) :
    (graph root directory (files ++ [file])).1 =
      (addFile root directory (graph root directory files).1 file).1 := by
  rw [graph, List.foldl_append]
  rfl

/-- The fan-in of some files counts those of them that import a target. -/
theorem counts_graph (root : Node) (directory : Text) (files : List Text) :
    Counts (graph root directory files).1 fun t => files.countP (imports root directory t) := by
  induction files using List.reverseRecOn with
  | nil => exact FanIn.counts_nil
  | append_singleton files file ih =>
    have hsum : (fun t => (files ++ [file]).countP (imports root directory t)) = fun t =>
        files.countP (imports root directory t) +
          if imports root directory t file then 1 else 0 := by
      funext t
      rw [List.countP_append, List.countP_singleton]
    rw [fst_graph_concat, hsum]
    exact counts_addFile root directory ih file

/-- A file that imports anything is a source file. -/
theorem hasSourceExtension_of_imports {target file : Text} (h : imports root directory target file) :
    hasSourceExtension file := (Bool.and_eq_true_iff.mp h).1

/-- The fan-in of some files lists each target that any of them imports once, with the number of the
files that do, which is at least one and at most the number of source files. It lists nothing else,
and the order of the files does not matter. -/
theorem graph_eq_counts (root : Node) (directory : Text) (files : List Text) :
    ((graph root directory files).1.map (·.1)).Nodup ∧
    (∀ target k, (target, k) ∈ (graph root directory files).1 ↔
      0 < files.countP (imports root directory target) ∧
        k = files.countP (imports root directory target)) ∧
    (∀ target, (graph root directory files).1.count target =
      files.countP (imports root directory target)) ∧
    (∀ target k, (target, k) ∈ (graph root directory files).1 →
      1 ≤ k ∧ k ≤ files.countP (hasSourceExtension ·)) ∧
    ∀ reordered, reordered.Perm files →
      (graph root directory reordered).1.Perm (graph root directory files).1 := by
  have hcounts := counts_graph root directory files
  refine ⟨hcounts.nodup, hcounts.mem_iff, hcounts.count_eq, fun target k hentry => ?_,
    fun reordered hperm => ?_⟩
  · obtain ⟨hpos, rfl⟩ := (hcounts.mem_iff target k).mp hentry
    have hsources : files.countP (imports root directory target) ≤
        files.countP (hasSourceExtension ·) :=
      List.countP_mono_left fun file _ => hasSourceExtension_of_imports
    exact ⟨by omega, by omega⟩
  · -- the numbers of files are the same in any order
    have hsame : (fun t => files.countP (imports root directory t)) = fun t =>
        reordered.countP (imports root directory t) :=
      funext fun t => (hperm.countP_eq _).symm
    rw [hsame] at hcounts
    exact (counts_graph root directory reordered).perm hcounts

/-- A workspace where one file imports another twice, one once, and one is of no source language. -/
def importedTwice : Node :=
  .dir [("w", .dir [
    ("a.ts", .file (Text.Utf8.encode "import './c'; import x from './d/../c.ts'")),
    ("b.js", .file (Text.Utf8.encode "require('./c')")),
    ("c.ts", .file []),
    ("d.py", .file (Text.Utf8.encode "import './c'"))])]

/-- Its files. -/
def importingFiles : List Text := ["a.ts", "b.js", "c.ts", "d.py"]

/-- Two files import the one, whichever of them comes first. -/
theorem graph_eq_counts_twice :
    (("c.ts" : Text), 2) ∈ (graph importedTwice "/w" importingFiles).1 ∧ (1 : Int) ≤ 2 ∧
      (2 : Int) ≤ importingFiles.countP (hasSourceExtension ·) ∧
      importingFiles.reverse.Perm importingFiles ∧
      (graph importedTwice "/w" importingFiles.reverse).1.Perm
        (graph importedTwice "/w" importingFiles).1 := by
  have hentry : (("c.ts" : Text), 2) ∈ (graph importedTwice "/w" importingFiles).1 := by decide +kernel
  have hperm : importingFiles.reverse.Perm importingFiles := importingFiles.reverse_perm
  obtain ⟨-, -, -, hbounds, hreordered⟩ := graph_eq_counts importedTwice "/w" importingFiles
  obtain ⟨hone, htwo⟩ := hbounds "c.ts" 2 hentry
  exact ⟨hentry, hone, htwo, hperm, hreordered _ hperm⟩

end Imports

end DebtSurvey
