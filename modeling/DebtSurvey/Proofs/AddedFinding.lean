import DebtSurvey.Proofs.Conservation
import Mathlib.Algebra.Order.BigOperators.Group.List
import Mathlib.Data.List.Sort

/-!
# One more finding

A finding that is added somewhere among others raises the score of its file, or leaves it where it
is a hundred already. It also brings the first finding of its file forward, or leaves that in its
place. All other files keep their scores, and their first findings stay in the order in which they
were. So the file of the added finding moves up the ranking or keeps its place, and a file that was
listed stays so; the other files are ranked as before, though one of them may be cut.

The file may come to a tie in score with files that were above it. Of those it passes the ones whose
first findings come after its own by now.

## Main results

* `Stats.ranksBefore_insert_iff`: the order of two other files.
* `Stats.RanksBefore.of_insert`: whatever is still ranked before the file was so.
* `Stats.hotFiles_insert`: what happens to the files that are listed.
-/

namespace DebtSurvey

section Lists

variable {α : Type}

theorem idxOf_insert_of_ne [BEq α] [LawfulBEq α] {a b : α} (h : b ≠ a) (front back : List α) :
    (front ++ a :: back).idxOf b =
      (front ++ back).idxOf b + if (front ++ back).idxOf b < front.length then 0 else 1 := by
  by_cases hb : b ∈ front
  · have hlt : front.idxOf b < front.length := List.idxOf_lt_length_of_mem hb
    rw [List.idxOf_append_of_mem hb, List.idxOf_append_of_mem hb, if_pos hlt, Nat.add_zero]
  · have hge : ¬front.length + back.idxOf b < front.length := Nat.not_lt.mpr (Nat.le_add_right _ _)
    rw [List.idxOf_append_of_notMem hb, List.idxOf_append_of_notMem hb, if_neg hge,
      List.idxOf_cons_ne back h.symm]
    rfl

theorem idxOf_insert_self [BEq α] [LawfulBEq α] (a : α) (front back : List α) :
    (front ++ a :: back).idxOf a = min ((front ++ back).idxOf a) front.length := by
  by_cases ha : a ∈ front
  · have hlt : front.idxOf a < front.length := List.idxOf_lt_length_of_mem ha
    rw [List.idxOf_append_of_mem ha, List.idxOf_append_of_mem ha, Nat.min_eq_left hlt.le]
  · rw [List.idxOf_append_of_notMem ha, List.idxOf_append_of_notMem ha, List.idxOf_cons_self,
      Nat.add_zero, Nat.min_eq_right (Nat.le_add_right _ _)]

/-- Of two lists in order, a member has at most as many others in front of it in the second, if
those were in front of it in the first as well. -/
theorem length_front_le {R S : α → α → Prop} [Std.Asymm R] [Std.Irrefl S] {a : α}
    {front back front' back' : List α} (h : (front ++ a :: back).Pairwise R)
    (h' : (front' ++ a :: back').Pairwise S)
    (hfront : ∀ b ∈ front', S b a → R b a ∧ b ∈ front ++ a :: back) :
    front'.length ≤ front.length := by
  have hbefore := (List.pairwise_append.mp h').2.2
  have hnodup : front'.Nodup :=
    (List.pairwise_append.mp h').1.imp fun hb => ne_of_irrefl hb
  refine (hnodup.subperm fun b hb => ?_).length_le
  obtain ⟨hba, hmem⟩ := hfront b hb (hbefore b hb a List.mem_cons_self)
  rcases List.mem_append.mp hmem with hin | hin
  · exact hin
  -- nothing else of the first list is before the member
  rcases List.mem_cons.mp hin with rfl | hback
  · exact absurd hba (Std.Irrefl.irrefl b)
  · have hab := (List.pairwise_cons.mp (List.pairwise_append.mp h).2.1).1 b hback
    exact absurd hba (Std.Asymm.asymm a b hab)

end Lists

namespace Stats

/-- Of two files at most one ranks before the other. -/
instance (findings : List Finding) : Std.Asymm (RanksBefore findings) where
  asymm file other h h' := by
    unfold RanksBefore at h h'
    omega

section Insert

variable {before after : List Finding} {added : Finding} {file other : Text}

theorem firstPlace_insert_of_ne (h : file ≠ added.file) :
    firstPlace (before ++ added :: after) file = firstPlace (before ++ after) file +
      if firstPlace (before ++ after) file < before.length then 0 else 1 := by
  simp only [firstPlace, List.map_append, List.map_cons]
  rw [idxOf_insert_of_ne h, List.length_map]

theorem firstPlace_insert_self :
    firstPlace (before ++ added :: after) added.file =
      min (firstPlace (before ++ after) added.file) before.length := by
  simp only [firstPlace, List.map_append, List.map_cons]
  rw [idxOf_insert_self, List.length_map]

theorem fileScore_insert_of_ne (h : file ≠ added.file) :
    fileScore (before ++ added :: after) file = fileScore (before ++ after) file := by
  have hother : decide (added.file = file) = false := decide_eq_false (Ne.symm h)
  rw [fileScore, fileScore, List.filter_append, List.filter_append,
    List.filter_cons_of_neg (by simp [hother])]

theorem fileScore_le_insert :
    fileScore (before ++ after) file ≤ fileScore (before ++ added :: after) file := by
  unfold fileScore
  have hsub : (before ++ after).Sublist (before ++ added :: after) :=
    (List.Sublist.refl before).append (List.sublist_cons_self added after)
  exact min_le_min_left 100 (((hsub.filter _).map _).sum_le_sum fun _ _ => Nat.zero_le _)

/-- Two other files are ranked as they were. -/
theorem ranksBefore_insert_iff (hfile : file ≠ added.file) (hother : other ≠ added.file) :
    RanksBefore (before ++ added :: after) file other ↔
      RanksBefore (before ++ after) file other := by
  unfold RanksBefore
  rw [fileScore_insert_of_ne hfile, fileScore_insert_of_ne hother, firstPlace_insert_of_ne hfile,
    firstPlace_insert_of_ne hother]
  -- the places from that of the added finding on are shifted by one
  split <;> split <;> omega

/-- What is ranked before the file of the added finding was so without it. -/
theorem RanksBefore.of_insert (hfile : file ≠ added.file)
    (h : RanksBefore (before ++ added :: after) file added.file) :
    RanksBefore (before ++ after) file added.file := by
  have hscore : fileScore (before ++ after) added.file ≤
      fileScore (before ++ added :: after) added.file := fileScore_le_insert
  unfold RanksBefore at h ⊢
  rw [fileScore_insert_of_ne hfile, firstPlace_insert_of_ne hfile, firstPlace_insert_self] at h
  split at h <;> omega

end Insert

/-! ### The ranking -/

section Ranking

variable (before after : List Finding) (added : Finding) (fanIn : FanIn)

theorem mem_ranking_iff {findings : List Finding} {file : Text} :
    file ∈ (ranking findings fanIn).map (·.file) ↔ file ∈ findings.map (·.file) := by
  rw [(files_ranking_perm findings fanIn).mem_iff, mem_filesOf, List.mem_map]

/-- Lists of other files that are in the order of the ranking without the added finding and with it
are the same list, if they have the same members. -/
theorem eq_of_ranked {files files' : List Text} (hnew : added.file ∉ files)
    (h : files.Pairwise (RanksBefore (before ++ after)))
    (h' : files'.Pairwise (RanksBefore (before ++ added :: after)))
    (hmem : ∀ file, file ∈ files ↔ file ∈ files') : files = files' := by
  refine h.eq_of_mem_iff (h'.imp_of_mem fun {file other} hfile hother hbefore => ?_) hmem
  have hne : ∀ f ∈ files', f ≠ added.file := by
    rintro f hf rfl
    exact hnew ((hmem _).mpr hf)
  exact (ranksBefore_insert_iff (hne file hfile) (hne other hother)).mp hbefore

/-- The other files are ranked in the same order. -/
theorem filter_ranking_insert :
    ((ranking (before ++ after) fanIn).map (·.file)).filter (· ≠ added.file) =
      ((ranking (before ++ added :: after) fanIn).map (·.file)).filter (· ≠ added.file) := by
  refine eq_of_ranked before after added (by simp)
    ((pairwise_ranking _ fanIn).filter _) ((pairwise_ranking _ fanIn).filter _) fun file => ?_
  simp only [List.mem_filter, mem_ranking_iff, List.map_append, List.map_cons, List.mem_append,
    List.mem_cons, decide_eq_true_eq]
  exact and_congr_left fun hne => by simp [hne]

/-- The other files that are listed both times are listed in the same order. -/
theorem filter_listedFiles_insert :
    (listedFiles (before ++ after) fanIn).filter
        (fun file => file ≠ added.file ∧ file ∈ listedFiles (before ++ added :: after) fanIn) =
      (listedFiles (before ++ added :: after) fanIn).filter
        (fun file => file ≠ added.file ∧ file ∈ listedFiles (before ++ after) fanIn) := by
  have hordered (findings : List Finding) :
      (listedFiles findings fanIn).Pairwise (RanksBefore findings) := by
    rw [listedFiles_eq]
    exact (pairwise_ranking findings fanIn).sublist (List.take_sublist _ _)
  refine eq_of_ranked before after added (by simp) ((hordered _).filter _) ((hordered _).filter _)
    fun file => ?_
  simp only [List.mem_filter, decide_eq_true_eq]
  tauto

/-- The file of the added finding is ranked no further down than without it. -/
theorem exists_place_insert {place : Nat}
    (h : ((ranking (before ++ after) fanIn).map (·.file))[place]? = some added.file) :
    ∃ place' ≤ place,
      ((ranking (before ++ added :: after) fanIn).map (·.file))[place']? = some added.file := by
  have hplace : place < ((ranking (before ++ after) fanIn).map (·.file)).length :=
    (List.getElem?_eq_some_iff.mp h).1
  have hold := pairwise_ranking (before ++ after) fanIn
  have hsplit := List.take_append_drop place ((ranking (before ++ after) fanIn).map (·.file))
  rw [List.drop_eq_getElem_cons hplace, (List.getElem?_eq_some_iff.mp h).2] at hsplit
  have hmem : added.file ∈ (ranking (before ++ added :: after) fanIn).map (·.file) :=
    (mem_ranking_iff fanIn).mpr (by simp)
  obtain ⟨front, back, hnew⟩ := List.append_of_mem hmem
  refine ⟨front.length, ?_, by rw [hnew]; simp⟩
  have hpairwise := pairwise_ranking (before ++ added :: after) fanIn
  rw [← hsplit] at hold
  rw [hnew] at hpairwise
  calc front.length
      ≤ (((ranking (before ++ after) fanIn).map (·.file)).take place).length := by
        refine length_front_le hold hpairwise fun file hfile hbefore => ?_
        have hne : file ≠ added.file := by
          rintro rfl
          exact absurd hbefore (Std.Irrefl.irrefl _)
        refine ⟨hbefore.of_insert hne, ?_⟩
        -- every other file that is ranked now was ranked already
        have hranked : file ∈ (ranking (before ++ added :: after) fanIn).map (·.file) := by
          rw [hnew]
          exact List.mem_append_left _ hfile
        rw [hsplit, mem_ranking_iff]
        rw [mem_ranking_iff] at hranked
        simpa [hne] using hranked
    _ ≤ place := List.length_take_le _ _

/-- The listed files are those at the first ten places of the ranking. -/
theorem getElem?_hotFiles {findings : List Finding} {place : Nat} {entry : HotFile} :
    (ofFindings findings fanIn).hotFiles[place]? = some entry ↔
      place < 10 ∧ (ranking findings fanIn)[place]? = some entry := by
  show ((ranking findings fanIn).take 10)[place]? = some entry ↔ _
  rw [List.getElem?_take]
  split <;> simp [*]

end Ranking

/-- One more finding never cools its file. If the file is listed without the finding, it is listed
with it, no further down and with at least the score it had. The other files that are listed both
times are listed in the same order, and so are all other files in the whole ranking. -/
theorem hotFiles_insert (before after : List Finding) (added : Finding) (fanIn : FanIn) :
    let findings := before ++ after
    let findings' := before ++ added :: after
    (∀ (place : Nat) (entry : HotFile), (ofFindings findings fanIn).hotFiles[place]? = some entry →
      entry.file = added.file →
      ∃ (place' : Nat) (entry' : HotFile), place' ≤ place ∧
        (ofFindings findings' fanIn).hotFiles[place']? = some entry' ∧
        entry'.file = added.file ∧ entry.score ≤ entry'.score) ∧
    (listedFiles findings fanIn).filter
        (fun file => file ≠ added.file ∧ file ∈ listedFiles findings' fanIn) =
      (listedFiles findings' fanIn).filter
        (fun file => file ≠ added.file ∧ file ∈ listedFiles findings fanIn) ∧
    ((ranking findings fanIn).map (·.file)).filter (· ≠ added.file) =
      ((ranking findings' fanIn).map (·.file)).filter (· ≠ added.file) := by
  intro findings findings'
  refine ⟨fun place entry hentry hfile => ?_, filter_listedFiles_insert before after added fanIn,
    filter_ranking_insert before after added fanIn⟩
  obtain ⟨hlimit, hranked⟩ := (getElem?_hotFiles fanIn).mp hentry
  have hold : ((ranking findings fanIn).map (·.file))[place]? = some added.file := by
    rw [List.getElem?_map, hranked, ← hfile]
    rfl
  obtain ⟨place', hle, hnew⟩ := exists_place_insert before after added fanIn hold
  rw [List.getElem?_map] at hnew
  obtain ⟨entry', hranked', hfile'⟩ := Option.map_eq_some_iff.mp hnew
  refine ⟨place', entry', hle,
    (getElem?_hotFiles fanIn).mpr ⟨hle.trans_lt hlimit, hranked'⟩, hfile', ?_⟩
  -- the scores are those of the file among the findings without and with the added one
  have hscore {fs : List Finding} {e : HotFile} {n : Nat} (he : (ranking fs fanIn)[n]? = some e) :
      e.score = fileScore fs e.file := by
    rw [(eq_hotFile_of_mem_ranking fs fanIn (List.mem_of_getElem? he)).1]
    exact score_hotFile fs fanIn _
  rw [hscore hranked, hscore hranked', hfile, hfile']
  exact fileScore_le_insert

/-- A finding of the greatest weight in a file. -/
def criticalFinding (file : Text) : Finding :=
  { id := [], kind := .dep, severity := .critical, file := file, message := [] }

/-- A file that comes to a tie at the greatest score passes the other file, since its first finding
is the earlier one by now. -/
theorem hotFiles_insert_tie :
    let added := criticalFinding "b"
    let findings := List.replicate 4 (criticalFinding "a") ++ List.replicate 3 added
    (ofFindings findings []).hotFiles.map (fun entry => (entry.file, entry.score)) =
        [(("a" : Text), 100), (("b" : Text), 75)] ∧
      (ofFindings (added :: findings) []).hotFiles.map (fun entry => (entry.file, entry.score)) =
        [(("b" : Text), 100), (("a" : Text), 100)] ∧
      ∃ entry, (ofFindings findings []).hotFiles[1]? = some entry ∧ entry.file = added.file ∧
        ∃ (place' : Nat) (entry' : HotFile), place' ≤ 1 ∧
          (ofFindings (added :: findings) []).hotFiles[place']? = some entry' ∧
          entry'.file = added.file ∧ entry.score ≤ entry'.score := by
  intro added findings
  -- both times the files stand in the order of their scores already
  have hold : (ofFindings findings []).hotFiles.map (fun entry => (entry.file, entry.score)) =
      [(("a" : Text), 100), (("b" : Text), 75)] := by
    show ((ranking findings []).take 10).map _ = _
    rw [ranking, List.mergeSort_of_pairwise (by decide)]
    rfl
  have hnew : (ofFindings (added :: findings) []).hotFiles.map
      (fun entry => (entry.file, entry.score)) = [(("b" : Text), 100), (("a" : Text), 100)] := by
    show ((ranking (added :: findings) []).take 10).map _ = _
    rw [ranking, List.mergeSort_of_pairwise (by decide)]
    rfl
  have hsecond := congrArg (·[1]?) hold
  rw [List.getElem?_map] at hsecond
  obtain ⟨entry, hentry, hpair⟩ := Option.map_eq_some_iff.mp hsecond
  have hfile : entry.file = added.file := congrArg Prod.fst hpair
  exact ⟨hold, hnew, entry, hentry, hfile,
    (hotFiles_insert [] findings added []).1 1 entry hentry hfile⟩

end Stats

end DebtSurvey
