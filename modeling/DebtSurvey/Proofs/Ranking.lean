import DebtSurvey.Proofs.Progress
import DebtSurvey.Stats
import Mathlib.Algebra.GroupWithZero.Nat
import Mathlib.Data.Finset.Card
import Mathlib.Data.Finset.Dedup

/-!
# The hottest files

A file comes before another in the ranking if its score is higher, or if the scores are equal and
its first finding comes earlier. The files listed are the first ten in that order, or all if there
are fewer, and with each stand its findings, the score they add up to and its fan-in.

The order among equal scores rests on two facts about lists. Without repetitions, a list keeps its
members in the order of their first occurrences (`pairwise_eraseDups`), and sorting keeps the order
of members that the comparison does not tell apart (`pairwise_mergeSort`).
-/

namespace DebtSurvey

section Lists

variable {α : Type} {xs : List α}

/-- A list without its repetitions has its members in the order of their first occurrences: of two
members, the earlier one occurs in some beginning of the list that the later one is not in. -/
theorem exists_split_of_eraseDups [BEq α] [LawfulBEq α] (xs : List α) :
    xs.eraseDups.Pairwise fun a b =>
      ∃ before after, xs = before ++ after ∧ a ∈ before ∧ b ∉ before := by
  match xs with
  | [] => exact List.Pairwise.nil
  | x :: xs =>
    have hlength : (xs.filter fun b => !b == x).length < xs.length + 1 :=
      Nat.lt_succ_of_le (List.length_filter_le _ xs)
    rw [List.eraseDups_cons, List.pairwise_cons]
    constructor
    · intro b hb
      have hne : b ≠ x := by simpa using (List.mem_filter.mp (List.mem_eraseDups.mp hb)).2
      exact ⟨[x], xs, rfl, List.mem_singleton_self x, by simpa using hne⟩
    · refine (exists_split_of_eraseDups _).imp_of_mem fun {a b} ha hb hsplit => ?_
      have hne : b ≠ x := by simpa using (List.mem_filter.mp (List.mem_eraseDups.mp hb)).2
      -- the beginning of what was kept comes from a beginning of the whole
      obtain ⟨before, after, hkept, hin, hout⟩ := hsplit
      obtain ⟨front, back, rfl, rfl, rfl⟩ := List.filter_eq_append_iff.mp hkept
      refine ⟨x :: front, back, rfl, List.mem_cons_of_mem _ (List.mem_filter.mp hin).1, ?_⟩
      rintro (_ | ⟨_, hmem⟩)
      · exact hne rfl
      · exact hout (List.mem_filter.mpr ⟨hmem, by simpa using hne⟩)
termination_by xs.length

/-- A list without its repetitions has its members in the order of their first occurrences. -/
theorem pairwise_eraseDups [BEq α] [LawfulBEq α] (xs : List α) :
    xs.eraseDups.Pairwise fun a b => xs.idxOf a < xs.idxOf b := by
  refine (exists_split_of_eraseDups xs).imp ?_
  rintro a b ⟨before, after, rfl, ha, hb⟩
  rw [List.idxOf_append_of_mem ha, List.idxOf_append_of_notMem hb]
  exact Nat.lt_of_lt_of_le (List.idxOf_lt_length_of_mem ha) (Nat.le_add_right _ _)

/-- Sorting puts a list in order, and members that the comparison does not tell apart stay in the
order in which they were. -/
theorem pairwise_mergeSort {le : α → α → Bool} {R : α → α → Prop}
    (htrans : ∀ a b c, le a b → le b c → le a c) (htotal : ∀ a b, le a b || le b a)
    (h : xs.Pairwise R) :
    (xs.mergeSort le).Pairwise fun a b => le a b ∧ (le b a → R a b) := by
  refine List.pairwise_iff_forall_sublist.mpr fun {a b} hpair => ?_
  have hsorted := List.pairwise_mergeSort htrans htotal xs
  have hle : le a b := List.pairwise_iff_forall_sublist.mp hsorted hpair
  refine ⟨hle, fun hge => ?_⟩
  -- the members tied with the first of the two are the same list before and after
  let tied := fun c => le a c && le c a
  have hrefl : le a a := by simpa using htotal a a
  have htied : (xs.filter tied).Pairwise fun c d => le c d := by
    refine List.pairwise_of_forall_mem_list fun c hc d hd => ?_
    have hc' : le c a := (Bool.and_eq_true_iff.mp (List.mem_filter.mp hc).2).2
    have hd' : le a d := (Bool.and_eq_true_iff.mp (List.mem_filter.mp hd).2).1
    exact htrans c a d hc' hd'
  have hsub : (xs.filter tied).Sublist ((xs.mergeSort le).filter tied) := by
    simpa using (List.sublist_mergeSort htrans htotal htied List.filter_sublist).filter tied
  have hsame : xs.filter tied = (xs.mergeSort le).filter tied :=
    hsub.eq_of_length ((List.mergeSort_perm xs le).filter tied).length_eq.symm
  have hboth : [a, b].Sublist (xs.filter tied) := by
    rw [hsame]
    simpa [tied, hrefl, hle, hge] using hpair.filter tied
  exact List.pairwise_iff_forall_sublist.mp (h.filter tied) hboth

end Lists

/-- A fan-in counts a target by its first entry, and one without an entry as zero. -/
theorem FanIn.count_eq_lookup (fanIn : FanIn) (target : Text) :
    fanIn.count target = (fanIn.lookup target).getD 0 := by
  induction fanIn with
  | nil => rfl
  | cons entry fanIn ih =>
    obtain ⟨t, n⟩ := entry
    by_cases h : t = target
    · simp [FanIn.count, h]
    · have hne : (target == t) = false := by simpa using Ne.symm h
      rw [List.lookup_cons, hne, ← ih]
      simp [FanIn.count, h]

namespace Stats

variable (findings : List Finding) (fanIn : FanIn)

/-- The score of a file: what the weights of its findings add up to, a hundred at most. -/
def fileScore (file : Text) : Nat :=
  min 100 ((findings.filter (·.file = file)).map (·.severity.weight)).sum

/-- The place of the first finding of a file among all. -/
def firstPlace (file : Text) : Nat := (findings.map (·.file)).idxOf file

/-- A file ranks before another: its score is higher, or their scores are equal and its first
finding comes earlier. -/
def RanksBefore (file other : Text) : Prop :=
  fileScore findings other < fileScore findings file ∨
    fileScore findings file = fileScore findings other ∧
      firstPlace findings file < firstPlace findings other

theorem score_eq_min_sum (severities : List Severity) :
    score severities = min 100 (severities.map (·.weight)).sum := by
  have hfold : ∀ (severities : List Severity) (total : Nat),
      severities.foldl (fun total s => total + s.weight) total =
        total + (severities.map (·.weight)).sum := by
    intro severities
    induction severities with
    | nil => simp
    | cons s severities ih =>
      intro total
      simp [ih, Nat.add_assoc]
  rw [score, hfold, Nat.zero_add, maxScore]

theorem score_hotFile (file : Text) :
    (hotFile findings fanIn file).score = fileScore findings file := by
  simp [hotFile, score_eq_min_sum, fileScore, Function.comp_def]

theorem mem_filesOf {file : Text} : file ∈ filesOf findings ↔ ∃ f ∈ findings, f.file = file := by
  simp [filesOf]

/-- Each file with findings is ranked once. -/
theorem length_filesOf :
    (filesOf findings).length = (findings.map (·.file)).toFinset.card := by
  have hnodup : (filesOf findings).Nodup := nodup_eraseDups _
  rw [← List.toFinset_card_of_nodup hnodup]
  congr 1
  ext file
  simp [filesOf]

/-- The ranking lists the files with findings, in another order. -/
theorem ranking_perm :
    (ranking findings fanIn).Perm ((filesOf findings).map (hotFile findings fanIn)) :=
  List.mergeSort_perm _ _

/-- Whatever is ranked is a file with what is said about it. -/
theorem eq_hotFile_of_mem_ranking {entry : HotFile} (h : entry ∈ ranking findings fanIn) :
    entry = hotFile findings fanIn entry.file ∧ entry.file ∈ filesOf findings := by
  obtain ⟨file, hfile, rfl⟩ := List.mem_map.mp ((ranking_perm findings fanIn).mem_iff.mp h)
  exact ⟨rfl, hfile⟩

/-- The files of the ranking are the files with findings, in another order. -/
theorem files_ranking_perm :
    ((ranking findings fanIn).map (·.file)).Perm (filesOf findings) := by
  have h := (ranking_perm findings fanIn).map (·.file)
  rwa [List.map_map, show (fun entry => entry.file) ∘ hotFile findings fanIn = id from rfl,
    List.map_id] at h

/-- Each file of the ranking ranks before all that follow. -/
theorem pairwise_ranking :
    ((ranking findings fanIn).map (·.file)).Pairwise (RanksBefore findings) := by
  have hfirst : ((filesOf findings).map (hotFile findings fanIn)).Pairwise fun a b =>
      firstPlace findings a.file < firstPlace findings b.file :=
    List.pairwise_map.mpr (pairwise_eraseDups _)
  have hranking : (ranking findings fanIn).Pairwise fun a b => decide (b.score ≤ a.score) ∧
      (decide (a.score ≤ b.score) → firstPlace findings a.file < firstPlace findings b.file) :=
    pairwise_mergeSort (by simp only [decide_eq_true_eq]; omega)
      (by simp only [Bool.or_eq_true, decide_eq_true_eq]; omega) hfirst
  refine List.pairwise_map.mpr (hranking.imp_of_mem fun {a b} ha hb hab => ?_)
  simp only [decide_eq_true_eq] at hab
  have hscore : ∀ {entry : HotFile}, entry ∈ ranking findings fanIn →
      entry.score = fileScore findings entry.file := fun hentry => by
    rw [(eq_hotFile_of_mem_ranking findings fanIn hentry).1]
    exact score_hotFile findings fanIn _
  rw [hscore ha, hscore hb] at hab
  obtain hlt | heq := Nat.lt_or_eq_of_le hab.1
  · exact .inl hlt
  · exact .inr ⟨heq.symm, hab.2 heq.symm.le⟩

/-- The hottest files of some findings, in order: ten of the files with findings, or all if there are
fewer. -/
structure ListsHottest (hot : List HotFile) : Prop where
  length_eq : hot.length = min 10 (findings.map (·.file)).toFinset.card
  nodup : (hot.map (·.file)).Nodup
  /-- Each file ranks before all that follow. -/
  ranked : (hot.map (·.file)).Pairwise (RanksBefore findings)
  /-- Every file with findings that is left out ranks after all that are listed. -/
  leftOut : ∀ f ∈ findings, f.file ∉ hot.map (·.file) →
    ∀ entry ∈ hot, RanksBefore findings entry.file f.file
  /-- With a file stand its findings, in their order. -/
  findings_eq : ∀ entry ∈ hot, entry.findings = findings.filter (·.file = entry.file)
  findings_ne_nil : ∀ entry ∈ hot, entry.findings ≠ []
  /-- The score is what the weights of its findings add up to, a hundred at most. -/
  score_eq : ∀ entry ∈ hot, entry.score = fileScore findings entry.file
  /-- The fan-in is zero for a file that has none. -/
  importCount_eq : ∀ entry ∈ hot, entry.importCount = (fanIn.lookup entry.file).getD 0

/-- Of all files with findings, the statistics list the hottest: by falling score, of equal scores
first the file with the earlier first finding. -/
theorem hotFiles_ofFindings :
    ListsHottest findings fanIn (ofFindings findings fanIn).hotFiles := by
  have hperm := files_ranking_perm findings fanIn
  have hsplit : (ofFindings findings fanIn).hotFiles ++ (ranking findings fanIn).drop hotFileLimit =
      ranking findings fanIn := List.take_append_drop _ _
  have hlength := hperm.length_eq
  have hpairwise := pairwise_ranking findings fanIn
  have hnodup := hperm.nodup_iff.mpr (nodup_eraseDups _)
  rw [← hsplit, List.map_append] at hpairwise hnodup hperm
  rw [List.pairwise_append] at hpairwise
  have hentry : ∀ entry ∈ (ofFindings findings fanIn).hotFiles,
      entry = hotFile findings fanIn entry.file ∧ entry.file ∈ filesOf findings :=
    fun entry hmem => eq_hotFile_of_mem_ranking findings fanIn (List.mem_of_mem_take hmem)
  have hown : ∀ entry ∈ (ofFindings findings fanIn).hotFiles,
      entry.findings = findings.filter (·.file = entry.file) := fun entry hmem => by
    rw [(hentry entry hmem).1]
    rfl
  exact {
    length_eq := by
      rw [List.length_map, length_filesOf] at hlength
      rw [← hlength]
      exact List.length_take
    nodup := hnodup.of_append_left
    ranked := hpairwise.1
    leftOut := by
      -- a file with findings that is not listed is further down the ranking
      intro f hf hout entry hmem
      have hranked := hperm.mem_iff.mpr ((mem_filesOf findings).mpr ⟨f, hf, rfl⟩)
      have hrest := (List.mem_append.mp hranked).resolve_left hout
      exact hpairwise.2.2 _ (List.mem_map_of_mem hmem) _ hrest
    findings_eq := hown
    findings_ne_nil := by
      intro entry hmem
      obtain ⟨f, hf, hfile⟩ := (mem_filesOf findings).mp (hentry entry hmem).2
      rw [hown entry hmem]
      exact List.ne_nil_of_mem (List.mem_filter.mpr ⟨hf, by simpa using hfile⟩)
    score_eq := by
      intro entry hmem
      rw [(hentry entry hmem).1]
      exact score_hotFile findings fanIn _
    importCount_eq := by
      intro entry hmem
      rw [(hentry entry hmem).1]
      exact FanIn.count_eq_lookup fanIn _ }

-- four and five findings of the greatest weight score the same, so the file met first stays first
example :
    let finding : Text → Finding := fun file =>
      { id := [], kind := .dep, severity := .critical, file := file, message := [] }
    let findings := List.replicate 4 (finding "b") ++ List.replicate 5 (finding "a")
    (ofFindings findings []).hotFiles.map (fun entry => (entry.file, entry.score)) =
      [(("b" : Text), 100), (("a" : Text), 100)] := by
  cbv

end Stats

end DebtSurvey
