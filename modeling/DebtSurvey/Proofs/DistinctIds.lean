import DebtSurvey.Proofs.FileOutcome
import DebtSurvey.Proofs.FindingKeys
import Mathlib.Data.Set.Function

/-!
# When the identities of a scan are distinct

No two findings of a scan are made from one place, with one exception: functions whose heads are on
one line are told apart by nothing in their keys, and so have one identity. Apart from that, and from
collisions of the digest, two findings can have one identity only where a package is named or titled
so that its key happens to read like another.

## Main results

* `Key.text_eq_iff`: keys from different places have one text for one of two reasons.
* `Scan.exists_keys`: the keys of a scan are from different places.
* `Scan.nodup_ids_iff`: when all identities of a scan are distinct.
-/

namespace DebtSurvey

namespace Key

variable {k l : Key}

/-- Keys of different findings. Functions may stand on one line; packages have different names; all
others are different keys. -/
def Apart : Key → Key → Prop
  | .function .., .function .. => True
  | .package name _, .package name' _ => name ≠ name'
  | k, l => k ≠ l

/-- The keys of two functions on one line. -/
def SharesLine (k l : Key) : Prop := k = l ∧ k.kind = .complexity

/-- A package has a key that reads like another. -/
def Collides (k l : Key) : Prop := (k.kind = .dep ∨ l.kind = .dep) ∧ k.text = l.text

theorem apart_of_ne (h : k ≠ l) (hplace : k.kind ≠ .dep ∨ l.kind ≠ .dep) : k.Apart l := by
  cases k <;> cases l <;> first | exact h | exact trivial | exact absurd hplace (by simp [kind])

theorem apart_of_kind_ne (h : k.kind ≠ l.kind) : k.Apart l := by
  refine apart_of_ne (fun heq => h (congrArg kind heq)) ?_
  by_contra hdep
  rw [not_or, not_not, not_not] at hdep
  exact h (hdep.1.trans hdep.2.symm)

/-- A key is apart from itself only where two findings may share it. -/
theorem kind_of_apart_self (h : k.Apart k) : k.kind = .complexity := by
  cases k with
  | function => rfl
  | _ => exact absurd rfl h

/-- Keys of different findings have one text for one of two reasons. -/
theorem text_eq_iff (h : k.Apart l) : k.text = l.text ↔ k.SharesLine l ∨ k.Collides l := by
  constructor
  · intro htext
    by_cases hdep : k.kind = .dep ∨ l.kind = .dep
    · exact .inr ⟨hdep, htext⟩
    · -- no package is involved, so the texts tell the keys
      rw [not_or] at hdep
      obtain rfl := eq_of_text_eq hdep.1 hdep.2 htext
      exact .inl ⟨rfl, kind_of_apart_self h⟩
  · rintro (⟨rfl, -⟩ | ⟨-, htext⟩)
    · rfl
    · exact htext

theorem not_collides (h : k.Apart l) (hk : k.IsOrdinary) (hl : l.IsOrdinary) : ¬k.Collides l := by
  rintro ⟨hdep, htext⟩
  by_cases hkdep : k.kind = .dep
  · by_cases hldep : l.kind = .dep
    · cases k <;> cases hkdep
      cases l <;> cases hldep
      exact h (name_eq_of_text_eq hk hl htext)
    · exact text_ne_of_dep hkdep hldep hl htext
  · exact text_ne_of_dep (hdep.resolve_left hkdep) hkdep hk htext.symm

/-- The keys of what is found in a file: of markers on different lines, and of functions. -/
def OfFile (file : Text) (keys : List Key) : Prop :=
  ∃ lines heads : List Nat, lines.Nodup ∧
    keys = lines.map (.marker file) ++ heads.map (.function file)

variable {file : Text} {keys : List Key}

theorem OfFile.mem (h : OfFile file keys) :
    ∀ k ∈ keys, k.file = file ∧ k.kind ≠ .dep ∧ k.kind ≠ .stale := by
  obtain ⟨lines, heads, -, rfl⟩ := h
  intro k hk
  rcases List.mem_append.mp hk with hmarker | hfunction
  · obtain ⟨line, -, rfl⟩ := List.mem_map.mp hmarker
    exact ⟨rfl, by simp [kind], by simp [kind]⟩
  · obtain ⟨line, -, rfl⟩ := List.mem_map.mp hfunction
    exact ⟨rfl, by simp [kind], by simp [kind]⟩

theorem OfFile.pairwise (h : OfFile file keys) : keys.Pairwise Apart := by
  obtain ⟨lines, heads, hlines, rfl⟩ := h
  refine List.pairwise_append.mpr ⟨?_, ?_, ?_⟩
  · exact List.pairwise_map.mpr (hlines.imp fun hne heq => hne (Key.marker.inj heq).2)
  · exact List.pairwise_map.mpr (List.pairwise_of_forall fun _ _ => trivial)
  · intro k hk l hl
    obtain ⟨line, -, rfl⟩ := List.mem_map.mp hk
    obtain ⟨head, -, rfl⟩ := List.mem_map.mp hl
    exact apart_of_kind_ne (by simp [kind])

end Key

namespace Scan

open Key (Apart OfFile)

variable {files : Node} {directory : Text} {settings : Settings} {clock : Int}

theorem exists_lines_of_markerResult {words : List Text} {file : Text} {source : Option Text}
    {blame : BlameResult} {found : List Finding}
    (h : markerResult words file clock source blame = .ok found) :
    ∃ lines : List Nat, lines.Nodup ∧
      List.Forall₂ Key.Describes (lines.map (.marker file)) found := by
  unfold markerResult at h
  split at h
  · obtain rfl := Except.ok.inj h
    exact ⟨[], List.nodup_nil, .nil⟩
  · rename_i source
    cases blame with
    | error e => cases h
    | ok rows =>
      obtain rfl := Except.ok.inj h
      refine ⟨_, Marker.nodup_markedLines words source, ?_⟩
      rw [List.map_map]
      exact Marker.findings_described words file source rows clock

theorem exists_heads_of_functionResult {bands : Code.Bands Int} {file : Text}
    {functions : List Code.Function} {blame : BlameResult} {found : List Finding}
    (h : functionResult bands file clock functions blame = .ok found) :
    ∃ heads : List Nat, List.Forall₂ Key.Describes (heads.map (.function file)) found := by
  unfold functionResult at h
  split at h
  · obtain rfl := Except.ok.inj h
    exact ⟨[], .nil⟩
  · cases blame with
    | error e => cases h
    | ok rows =>
      obtain rfl := Except.ok.inj h
      refine ⟨(functions.filter fun f =>
        decide (bands.low ≤ (Code.complexity f.body : Int))).map (·.line), ?_⟩
      rw [List.map_map]
      exact Code.complexityFindings_described bands file functions rows clock

/-- What is found in a file is described by keys of that file. -/
theorem exists_keys_of_result {file : Text} {result : FileResult}
    (h : IsResult files directory settings clock (fun _ _ => True) file result) :
    ∃ keys, OfFile file keys ∧ List.Forall₂ Key.Describes keys (found result) := by
  obtain ⟨marked, complex, -, -, rfl⟩ := h
  have hnone : ∃ keys, OfFile file keys ∧ List.Forall₂ Key.Describes keys [] :=
    ⟨[], ⟨[], [], List.nodup_nil, rfl⟩, .nil⟩
  rw [fileResult]
  -- where either search fails, the file counts as having nothing in it
  rcases hmarkers : markerResult settings.markerWords file clock
    (markerSource? files directory file settings.markerWords) marked with _ | markers
  · exact hnone
  rcases hfunctions : functionResult settings.bands file clock (functionsOf files directory file)
    complex with _ | functions
  · exact hnone
  obtain ⟨lines, hlines, hmarkers⟩ := exists_lines_of_markerResult hmarkers
  obtain ⟨heads, hfunctions⟩ := exists_heads_of_functionResult hfunctions
  exact ⟨_, ⟨lines, heads, hlines, rfl⟩, List.rel_append hmarkers hfunctions⟩

/-- What is found in different files is described by keys of different findings. -/
theorem exists_keys_of_results {names : List Text} {results : List FileResult}
    (h : List.Forall₂ (IsResult files directory settings clock fun _ _ => True) names results)
    (hnames : names.Nodup) :
    ∃ keys : List Key, List.Forall₂ Key.Describes keys (results.flatMap found) ∧
      keys.Pairwise Apart ∧ ∀ k ∈ keys, k.file ∈ names ∧ k.kind ≠ .dep ∧ k.kind ≠ .stale := by
  induction h with
  | nil => exact ⟨[], .nil, .nil, List.forall_mem_nil _⟩
  | cons hfile _ ih =>
    obtain ⟨hnew, hrest⟩ := List.nodup_cons.mp hnames
    obtain ⟨others, hothers, hapart, hplaces⟩ := ih hrest
    obtain ⟨keys, hkeys, hdescribed⟩ := exists_keys_of_result hfile
    refine ⟨keys ++ others, List.rel_append hdescribed hothers,
      List.pairwise_append.mpr ⟨hkeys.pairwise, hapart, fun k hk l hl => ?_⟩, fun k hk => ?_⟩
    · -- the file of the one key is none of the files that follow
      obtain ⟨hkfile, hdep, -⟩ := hkeys.mem k hk
      refine Key.apart_of_ne (fun heq => hnew ?_) (.inl hdep)
      rw [← hkfile, heq]
      exact (hplaces l hl).1
    · rcases List.mem_append.mp hk with hfirst | hother
      · obtain ⟨hkfile, hkind⟩ := hkeys.mem k hfirst
        exact ⟨by rw [hkfile]; exact List.mem_cons_self, hkind⟩
      · exact (hplaces k hother).imp_left (List.mem_cons_of_mem _)

/-- The findings of a scan are described by keys of different findings. -/
theorem exists_keys (schedule : Schedule) {root : Text} {w : World} {map : DebtMap}
    {steps : List Progress} (hfiles : w.files.isWellFormed)
    (h : (scan schedule root settings w).1 = .ok (map, steps)) :
    ∃ keys : List Key, List.Forall₂ Key.Describes keys map.findings ∧ keys.Pairwise Apart := by
  obtain ⟨names, event, results, dependencies, stale, -, hsource, hresults, haudit, hstale,
    hfindings⟩ := parts_of_scan (filesInvariant w.files)
      (fun hcommit => (currentCommit_settles hcommit).2.1)
      (fun _ _ => ensures_blame_files w.files) h
  -- the keys of a scan are those of its files, of its packages, and of its stale files
  have hnames : names.Nodup := nodup_of_sourceFiles hfiles hsource
  obtain ⟨inFiles, hinFiles, hinApart, hplaces⟩ := exists_keys_of_results hresults hnames
  obtain ⟨packages, hpackages, hdependencies⟩ := Audit.exists_described haudit
  obtain ⟨old, hold, holdest⟩ := Staleness.exists_described hstale
  have hpackage : ∀ k ∈ packages.map fun e => Key.package e.1 e.2, k.kind = .dep :=
    List.forall_mem_map.mpr fun _ _ => rfl
  have hstaleKind : ∀ k ∈ old.map Key.stale, k.kind = .stale :=
    List.forall_mem_map.mpr fun _ _ => rfl
  have hpackagesApart : (packages.map fun e => Key.package e.1 e.2).Pairwise Apart := by
    have hnamed : packages.Pairwise fun e e' => e.1 ≠ e'.1 := List.pairwise_map.mp hpackages
    exact List.pairwise_map.mpr hnamed
  have holdApart : (old.map Key.stale).Pairwise Apart :=
    List.pairwise_map.mpr ((hnames.sublist hold).imp fun hne heq => hne (Key.stale.inj heq))
  rw [hfindings]
  refine ⟨inFiles ++ (packages.map fun e => Key.package e.1 e.2) ++ old.map Key.stale,
    List.rel_append (List.rel_append hinFiles hdependencies) holdest, ?_⟩
  refine List.pairwise_append.mpr ⟨List.pairwise_append.mpr ⟨hinApart, hpackagesApart, ?_⟩,
    holdApart, ?_⟩
  · intro k hk l hl
    refine Key.apart_of_kind_ne ?_
    rw [hpackage l hl]
    exact (hplaces k hk).2.1
  · intro k hk l hl
    refine Key.apart_of_kind_ne ?_
    rw [hstaleKind l hl]
    rcases List.mem_append.mp hk with hfile | hdependency
    · exact (hplaces k hfile).2.2
    · rw [hpackage k hdependency]
      decide

/-- All findings of a scan have identities of their own if and only if no two of them are functions
on one line, and no package has a key that reads like another; provided the digest tells the keys of
the scan apart. Where packages have no colon in their names, and files do not start like packages,
the keys of packages read like no other. -/
theorem nodup_ids_iff (schedule : Schedule) {root : Text} {w : World} {map : DebtMap}
    {steps : List Progress} (hfiles : w.files.isWellFormed)
    (h : (scan schedule root settings w).1 = .ok (map, steps)) :
    ∃ keys : List Key, List.Forall₂ Key.Describes keys map.findings ∧
      (Set.InjOn Identity.ofKey {t | ∃ k ∈ keys, k.text = t} →
        ((map.findings.map (·.id)).Nodup ↔
          keys.Pairwise fun k l => ¬k.SharesLine l ∧ ¬k.Collides l)) ∧
      ((∀ k ∈ keys, k.IsOrdinary) → keys.Pairwise fun k l => ¬k.Collides l) := by
  obtain ⟨keys, hdescribed, hapart⟩ := exists_keys schedule hfiles h
  refine ⟨keys, hdescribed, fun hdigest => ?_, fun hordinary => ?_⟩
  · have hkeys {k l : Key} (hk : k ∈ keys) (hl : l ∈ keys) (hkl : k.Apart l) :
        Identity.ofKey k.text ≠ Identity.ofKey l.text ↔ ¬k.SharesLine l ∧ ¬k.Collides l := by
      rw [Ne, hdigest.eq_iff ⟨k, hk, rfl⟩ ⟨l, hl, rfl⟩, Key.text_eq_iff hkl, not_or]
    rw [Key.map_id_of_describes hdescribed, List.Nodup, List.pairwise_map]
    constructor
    · intro hdistinct
      exact (hapart.and hdistinct).imp_of_mem fun hk hl hkl => (hkeys hk hl hkl.1).mp hkl.2
    · intro hplain
      exact (hapart.and hplain).imp_of_mem fun hk hl hkl => (hkeys hk hl hkl.1).mpr hkl.2
  · exact hapart.imp_of_mem fun hk hl hkl => Key.not_collides hkl (hordinary _ hk) (hordinary _ hl)

/-- A workspace with two functions on one line. -/
def twoOnALine : World where
  files := .dir [("w", .dir [
    ("a.ts", .file (Text.Utf8.encode "function f() \x7b\x7d function g() \x7b\x7d"))])]

/-- Settings that report every function. -/
def everyFunction : Settings := { bands := ⟨1, 10, 15, 25⟩ }

/-- A finding of a function tells its key. -/
theorem eq_function_of_describes {k : Key} {f : Finding} {line : Nat} (h : k.Describes f)
    (hkind : f.kind = .complexity) (hline : f.line = some (line : Int)) :
    k = .function f.file line := by
  have hk : k.kind = .complexity := h.kind.symm.trans hkind
  cases k with
  | function file number =>
    have hnumber : (number : Int) = line := Option.some.inj (h.line.symm.trans hline)
    rw [h.file, Int.ofNat.inj hnumber]
    rfl
  | _ => cases hk

/-- Both functions are found, and they have one identity. -/
theorem nodup_ids_iff_two_on_a_line :
    twoOnALine.files.isWellFormed ∧
      ∃ map steps, (scan {} "/w" everyFunction twoOnALine).1 = .ok (map, steps) ∧
        (∃ f g, map.findings = [f, g] ∧ f.kind = .complexity ∧ g.kind = .complexity ∧
          f.file = g.file ∧ f.line = g.line) ∧
        ¬(map.findings.map (·.id)).Nodup := by
  have hfiles : twoOnALine.files.isWellFormed := by decide +kernel
  have hplaces : (scan {} "/w" everyFunction twoOnALine).1.toOption.map
      (·.1.findings.map fun f => (f.kind, f.file, f.line)) =
        some [(Kind.complexity, ("a.ts" : Text), some 1), (Kind.complexity, "a.ts", some 1)] := by
    decide +kernel
  rcases hscan : (scan {} "/w" everyFunction twoOnALine).1 with _ | ⟨map, steps⟩ <;>
    rw [hscan] at hplaces
  · cases hplaces
  obtain ⟨f, rest, hfindings, hf, hrest⟩ := List.map_eq_cons_iff.mp (Option.some.inj hplaces)
  obtain ⟨g, none, rfl, hg, hnone⟩ := List.map_eq_cons_iff.mp hrest
  obtain rfl := List.map_eq_nil_iff.mp hnone
  simp only [Prod.mk.injEq] at hf hg
  obtain ⟨keys, hdescribed, hdistinct, -⟩ := nodup_ids_iff {} hfiles hscan
  refine ⟨hfiles, map, steps, rfl, ⟨f, g, hfindings, hf.1, hg.1, hf.2.1.trans hg.2.1.symm,
    hf.2.2.trans hg.2.2.symm⟩, fun hids => ?_⟩
  rw [hfindings] at hdescribed
  obtain ⟨k, others, hk, hothers, rfl⟩ := List.forall₂_cons_right_iff.mp hdescribed
  obtain ⟨l, none, hl, hnone, rfl⟩ := List.forall₂_cons_right_iff.mp hothers
  obtain rfl := List.forall₂_nil_right_iff.mp hnone
  -- the keys are the same one, so there is nothing that the digest could confuse
  obtain rfl := eq_function_of_describes hk hf.1 hf.2.2
  obtain rfl := eq_function_of_describes hl hg.1 hg.2.2
  rw [hf.2.1, hg.2.1] at hdistinct
  have hdigest : Set.InjOn Identity.ofKey
      {t | ∃ k ∈ [Key.function "a.ts" 1, Key.function "a.ts" 1], k.text = t} := by
    rintro s ⟨k, hk, rfl⟩ t ⟨l, hl, rfl⟩ -
    simp only [List.mem_cons, List.not_mem_nil, or_false, or_self] at hk hl
    rw [hk, hl]
  have hpairwise := (hdistinct hdigest).mp hids
  exact (List.pairwise_cons.mp hpairwise).1 _ (List.mem_singleton_self _) |>.1 ⟨rfl, rfl⟩

end Scan

end DebtSurvey
