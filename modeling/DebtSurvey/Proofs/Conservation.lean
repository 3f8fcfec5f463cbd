import DebtSurvey.Proofs.FindingShape
import DebtSurvey.Proofs.Ranking

/-!
# Statistics conserve findings

Statistics count every finding once by its kind and once by its severity, and they group the
findings by file. A file is listed at most once, with all of its findings, so the groups repeat none
of them. They lose findings only where the list of files is cut, which is the case from the eleventh
file on.

The order of the findings decides in which order files of equal score are listed, and so which of
them are cut. But the counts, the score of every file and the scores that are listed stay what they
are when the findings come in another order.

## Main results

* `Stats.count_flatMap_filter`: how often a member of a list stands in groups by keys.
* `Stats.exhausts_iff`: every file is listed if and only if there are at most ten.
* `Stats.conserves_ofFindings`: statistics lose and repeat no findings, in whatever order they come.
-/

namespace DebtSurvey.Stats

/-- A member of a list that is grouped by keys stands in the groups as often as in the list, for
each time that its own key is among them. -/
theorem count_flatMap_filter {α κ : Type} [DecidableEq α] [DecidableEq κ] [BEq κ] [LawfulBEq κ]
    (keys : List κ) (key : α → κ) (xs : List α) (x : α) :
    (keys.flatMap fun k => xs.filter (key · = k)).count x = keys.count (key x) * xs.count x := by
  -- the group of a key has every occurrence if the key is that of the member, and none otherwise
  induction keys with
  | nil => simp
  | cons k keys ih =>
    rw [List.flatMap_cons, List.count_append, ih]
    by_cases hx : key x = k
    · rw [List.count_filter (by simpa using hx), hx, List.count_cons_self, Nat.succ_mul,
        Nat.add_comm]
    · have hnone : (xs.filter (key · = k)).count x = 0 := by
        apply List.count_eq_zero.mpr
        intro hmem
        exact hx (by simpa using (List.mem_filter.mp hmem).2)
      rw [hnone, Nat.zero_add, List.count_cons_of_ne (Ne.symm hx)]

variable (findings : List Finding) (fanIn : FanIn)

/-! ### The files that are listed -/

/-- The files that are listed, the hottest first. -/
def listedFiles : List Text := (ofFindings findings fanIn).hotFiles.map (·.file)

theorem listedFiles_eq :
    listedFiles findings fanIn = ((ranking findings fanIn).map (·.file)).take 10 :=
  List.map_take

theorem nodup_listedFiles : (listedFiles findings fanIn).Nodup := by
  have hranked : ((ranking findings fanIn).map (·.file)).Nodup :=
    (files_ranking_perm findings fanIn).nodup_iff.mpr (nodup_eraseDups _)
  rw [listedFiles_eq]
  exact hranked.sublist (List.take_sublist _ _)

/-- The findings of the files that are listed are the findings, grouped by those files. -/
theorem flatMap_findings_hotFiles :
    (ofFindings findings fanIn).hotFiles.flatMap (·.findings) =
      (listedFiles findings fanIn).flatMap fun file => findings.filter (·.file = file) := by
  rw [listedFiles, List.flatMap_map]
  apply List.flatMap_congr
  intro entry hentry
  rw [(eq_hotFile_of_mem_ranking findings fanIn (List.mem_of_mem_take hentry)).1]
  rfl

/-- The file of every finding is listed if and only if the findings are in at most ten files. -/
theorem exhausts_iff :
    (∀ f ∈ findings, f.file ∈ listedFiles findings fanIn) ↔
      (findings.map (·.file)).toFinset.card ≤ 10 := by
  constructor
  · intro hall
    have hsubset : (findings.map (·.file)).toFinset ⊆ (listedFiles findings fanIn).toFinset := by
      intro file hfile
      obtain ⟨f, hf, rfl⟩ := List.mem_map.mp (List.mem_toFinset.mp hfile)
      exact List.mem_toFinset.mpr (hall f hf)
    calc (findings.map (·.file)).toFinset.card
        ≤ (listedFiles findings fanIn).toFinset.card := Finset.card_le_card hsubset
      _ ≤ (listedFiles findings fanIn).length := List.toFinset_card_le _
      _ ≤ 10 := by
        rw [listedFiles_eq]
        exact List.length_take_le _ _
  · intro hfew f hf
    -- nothing is cut from the ranking
    have hlength : ((ranking findings fanIn).map (·.file)).length ≤ 10 := by
      rw [(files_ranking_perm findings fanIn).length_eq, length_filesOf]
      exact hfew
    rw [listedFiles_eq, List.take_of_length_le hlength,
      (files_ranking_perm findings fanIn).mem_iff, mem_filesOf]
    exact ⟨f, hf, rfl⟩

/-- Statistics that count each of some findings once, repeat none and lose none, as far as the list
of files goes. -/
structure Conserves (stats : Stats) : Prop where
  total_eq : stats.total = findings.length
  sum_byKind : (stats.byKind.map (·.2)).sum = stats.total
  sum_bySeverity : (stats.bySeverity.map (·.2)).sum = stats.total
  /-- The files that are listed have no finding more often than there is. -/
  count_le : ∀ f, (stats.hotFiles.flatMap (·.findings)).count f ≤ findings.count f
  /-- They have all of the findings between them just where there are at most ten files. -/
  perm_iff : (stats.hotFiles.flatMap (·.findings)).Perm findings ↔
    (findings.map (·.file)).toFinset.card ≤ 10

theorem conserves_self : Conserves findings (ofFindings findings fanIn) := by
  obtain ⟨htotal, hkinds, hseverities⟩ := counted_ofFindings findings fanIn
  have hcount (f : Finding) : ((ofFindings findings fanIn).hotFiles.flatMap (·.findings)).count f =
      (listedFiles findings fanIn).count f.file * findings.count f := by
    rw [flatMap_findings_hotFiles]
    exact count_flatMap_filter _ (·.file) findings f
  have honce := nodup_listedFiles findings fanIn
  refine ⟨htotal, hkinds, hseverities, fun f => ?_, ?_⟩
  · rw [hcount]
    exact (Nat.mul_le_mul_right _ (List.nodup_iff_count_le_one.mp honce f.file)).trans_eq
      (Nat.one_mul _)
  · rw [← exhausts_iff findings fanIn, List.perm_iff_count]
    constructor
    · intro hperm f hf
      -- a finding of a file that is cut would be missing
      by_contra hcut
      have hmissing := hperm f
      rw [hcount, List.count_eq_zero.mpr hcut, Nat.zero_mul] at hmissing
      exact List.count_eq_zero.mp hmissing.symm hf
    · intro hall f
      rw [hcount]
      by_cases hf : f ∈ findings
      · rw [List.count_eq_one_of_mem honce (hall f hf), Nat.one_mul]
      · rw [List.count_eq_zero.mpr hf, Nat.mul_zero]

/-! ### Findings in another order -/

section Order

open scoped List

variable {findings} {others : List Finding}

theorem filesOf_perm (h : others ~ findings) : filesOf others ~ filesOf findings := by
  apply (List.perm_ext_iff_of_nodup (nodup_eraseDups _) (nodup_eraseDups _)).mpr
  intro file
  show file ∈ filesOf others ↔ file ∈ filesOf findings
  simp only [mem_filesOf, h.mem_iff]

theorem fileScore_of_perm (h : others ~ findings) (file : Text) :
    fileScore others file = fileScore findings file := by
  rw [fileScore, fileScore, ((h.filter _).map _).sum_eq]

/-- All files with findings and their scores, by falling score. -/
def scoredFiles (findings : List Finding) (fanIn : FanIn) : List (Text × Nat) :=
  (ranking findings fanIn).map fun entry => (entry.file, entry.score)

theorem scoredFiles_perm_map (findings : List Finding) (fanIn : FanIn) :
    scoredFiles findings fanIn ~
      (filesOf findings).map fun file => (file, fileScore findings file) := by
  have hscored : (fun file => (file, fileScore findings file)) =
      (fun entry : HotFile => (entry.file, entry.score)) ∘ hotFile findings fanIn := by
    ext file : 1
    rw [Function.comp_apply, score_hotFile]
    rfl
  rw [hscored, ← List.map_map]
  exact (ranking_perm findings fanIn).map _

/-- The same files are ranked, with the same scores. -/
theorem scoredFiles_perm (h : others ~ findings) :
    scoredFiles others fanIn ~ scoredFiles findings fanIn :=
  calc scoredFiles others fanIn
      ~ (filesOf others).map fun file => (file, fileScore others file) :=
        scoredFiles_perm_map others fanIn
    _ = (filesOf others).map fun file => (file, fileScore findings file) := by
        simp only [fileScore_of_perm h]
    _ ~ (filesOf findings).map fun file => (file, fileScore findings file) :=
        (filesOf_perm h).map _
    _ ~ scoredFiles findings fanIn := (scoredFiles_perm_map findings fanIn).symm

/-- The ranking goes by falling score. -/
theorem pairwise_scoredFiles (findings : List Finding) (fanIn : FanIn) :
    ((scoredFiles findings fanIn).map (·.2)).Pairwise (· ≥ ·) := by
  rw [scoredFiles, List.map_map]
  have hsorted : (ranking findings fanIn).Pairwise fun a b => decide (b.score ≤ a.score) :=
    List.pairwise_mergeSort (by simp only [decide_eq_true_eq]; omega)
      (by simp only [Bool.or_eq_true, decide_eq_true_eq]; omega) _
  exact List.pairwise_map.mpr (hsorted.imp of_decide_eq_true)

/-- The scores that are listed do not depend on the order of the findings. -/
theorem scores_hotFiles_of_perm (h : others ~ findings) :
    (ofFindings others fanIn).hotFiles.map (·.score) =
      (ofFindings findings fanIn).hotFiles.map (·.score) := by
  have hlisted (findings : List Finding) : (ofFindings findings fanIn).hotFiles.map (·.score) =
      ((scoredFiles findings fanIn).map (·.2)).take 10 := by
    rw [scoredFiles, List.map_map]
    exact List.map_take
  rw [hlisted, hlisted]
  congr 1
  -- the same scores in falling order are the same list
  apply ((scoredFiles_perm fanIn h).map _).eq_of_pairwise
  · exact fun a b _ _ hge hle => le_antisymm hle hge
  · exact pairwise_scoredFiles others fanIn
  · exact pairwise_scoredFiles findings fanIn

end Order

/-- Statistics with the same counts. They may list other files, but with the same scores. -/
structure CountsAlike (stats stats' : Stats) : Prop where
  total_eq : stats.total = stats'.total
  byKind_eq : stats.byKind = stats'.byKind
  bySeverity_eq : stats.bySeverity = stats'.bySeverity
  /-- The scores that are listed are the same. -/
  scores_eq : stats.hotFiles.map (·.score) = stats'.hotFiles.map (·.score)

/-- The statistics of some findings count each of them once by kind and once by severity. The files
that are listed have none of them more often than there is, and they have all of them between them
if and only if there are at most ten files. The same findings in any other order are counted alike, and
they rank the same files with the same scores. -/
theorem conserves_ofFindings :
    Conserves findings (ofFindings findings fanIn) ∧
    ∀ others : List Finding, others.Perm findings →
      CountsAlike (ofFindings others fanIn) (ofFindings findings fanIn) ∧
      (scoredFiles others fanIn).Perm (scoredFiles findings fanIn) := by
  refine ⟨conserves_self findings fanIn, fun others h => ⟨?_, scoredFiles_perm fanIn h⟩⟩
  exact {
    total_eq := h.length_eq
    byKind_eq := by
      rw [ofFindings, ofFindings]
      simp only [h.countP_eq]
    bySeverity_eq := by
      rw [ofFindings, ofFindings]
      simp only [h.countP_eq]
    scores_eq := scores_hotFiles_of_perm fanIn h }

/-- A finding of low severity in a file. -/
def lowFinding (file : Text) : Finding :=
  { id := [], kind := .todo, severity := .low, file := file, message := [] }

/-- Two files of equal score are listed in the order of their findings, and all else is alike. -/
theorem conserves_ofFindings_two_files :
    let findings := [lowFinding "a", lowFinding "b"]
    let others := [lowFinding "b", lowFinding "a"]
    listedFiles findings [] = [("a" : Text), ("b" : Text)] ∧
      listedFiles others [] = [("b" : Text), ("a" : Text)] ∧
      others.Perm findings ∧ CountsAlike (ofFindings others []) (ofFindings findings []) ∧
      (scoredFiles others []).Perm (scoredFiles findings []) ∧
      ((ofFindings findings []).hotFiles.flatMap (·.findings)).Perm findings := by
  intro findings others
  have hperm : others.Perm findings := List.Perm.swap _ _ _
  obtain ⟨hconserves, halike⟩ := conserves_ofFindings findings []
  obtain ⟨hcounts, hscored⟩ := halike others hperm
  refine ⟨?_, ?_, hperm, hcounts, hscored, hconserves.perm_iff.mpr (by decide)⟩
  -- nothing is moved where all scores are equal
  · rw [listedFiles_eq, ranking, List.mergeSort_of_pairwise (by decide)]
    rfl
  · rw [listedFiles_eq, ranking, List.mergeSort_of_pairwise (by decide)]
    rfl

end DebtSurvey.Stats
