import DebtSurvey.Text.Basic
import Mathlib.Data.List.TakeWhile

/-!
# Pieces of texts

A text is split at a separator and joined by one. The pieces of a text hold no separator, and pieces
that hold none are found again after joining. Where a separator stands first or last can be told from
the text alone.

## Main results

* `Text.join_splitOn`: a text is the join of its pieces.
* `Text.splitOn_join`: pieces without the separator are those of their join.
* `Text.eq_of_append_cons_eq`: the last separator of a text tells the parts around it.
-/

namespace DebtSurvey.Text

/-! ### Splitting -/

/-- A text without the separator is one piece. -/
theorem splitOn_of_notMem {sep : Char} {piece : Text} (h : sep ∉ piece) :
    splitOn sep piece = [piece] := by
  induction piece with
  | nil => rfl
  | cons c rest ih =>
    rw [List.mem_cons, not_or] at h
    simp [splitOn, Ne.symm h.1, ih h.2]

/-- A text without the separator is the first piece when the separator follows it. -/
theorem splitOn_append_cons {sep : Char} {piece : Text} (h : sep ∉ piece) (rest : Text) :
    splitOn sep (piece ++ sep :: rest) = piece :: splitOn sep rest := by
  induction piece with
  | nil => simp [splitOn]
  | cons c piece ih =>
    rw [List.mem_cons, not_or] at h
    simp [splitOn, Ne.symm h.1, ih h.2]

/-- Splitting at a separator takes pieces without it apart again. -/
theorem splitOn_join (sep : Char) {pieces : List Text} (hne : pieces ≠ [])
    (h : ∀ piece ∈ pieces, sep ∉ piece) : splitOn sep (join [sep] pieces) = pieces := by
  induction pieces with
  | nil => exact absurd rfl hne
  | cons piece pieces ih =>
    cases pieces with
    | nil => exact splitOn_of_notMem (h piece (by simp))
    | cons next rest =>
      have hrest := ih (by simp) fun p hp => h p (by simp [hp])
      rw [join, List.append_assoc, List.singleton_append,
        splitOn_append_cons (h piece (by simp)), hrest]

/-- The pieces of a text, joined by the separator again, are the text. -/
theorem join_splitOn (sep : Char) (t : Text) : join [sep] (splitOn sep t) = t := by
  induction t with
  | nil => rfl
  | cons c rest ih =>
    rw [splitOn]
    by_cases hc : c = sep
    · -- an empty piece goes in front, and the separator is put after it
      rw [if_pos hc]
      obtain ⟨piece, pieces, hpieces⟩ := List.exists_cons_of_ne_nil (splitOn_ne_nil sep rest)
      rw [hpieces] at ih ⊢
      rw [join, ih, hc]
      rfl
    · rw [if_neg hc]
      obtain ⟨piece, pieces, hpieces⟩ := List.exists_cons_of_ne_nil (splitOn_ne_nil sep rest)
      rw [hpieces] at ih ⊢
      rw [← ih]
      cases pieces <;> rfl

theorem notMem_of_mem_splitOn {sep : Char} {t piece : Text} (h : piece ∈ splitOn sep t) :
    sep ∉ piece := by
  induction t generalizing piece with
  | nil => simp_all [splitOn]
  | cons c rest ih =>
    rw [splitOn] at h
    split at h
    · rcases List.mem_cons.mp h with rfl | hrest
      · exact List.not_mem_nil
      · exact ih hrest
    · -- the character joins the first of the pieces behind it
      rename_i hc
      obtain ⟨first, others, hpieces⟩ := List.exists_cons_of_ne_nil (splitOn_ne_nil sep rest)
      rw [hpieces] at h ih
      rcases List.mem_cons.mp h with rfl | hothers
      · exact List.not_mem_cons_of_ne_of_not_mem (Ne.symm hc) (ih List.mem_cons_self)
      · exact ih (List.mem_cons_of_mem _ hothers)

/-! ### Joining -/

theorem join_cons (sep piece : Text) {pieces : List Text} (h : pieces ≠ []) :
    join sep (piece :: pieces) = piece ++ sep ++ join sep pieces := by
  cases pieces with
  | nil => exact absurd rfl h
  | cons next rest => rfl

/-- A text that follows the last piece follows the join. -/
theorem join_concat_append (sep : Text) (pieces : List Text) (last suffix : Text) :
    join sep (pieces ++ [last ++ suffix]) = join sep (pieces ++ [last]) ++ suffix := by
  induction pieces with
  | nil => rfl
  | cons piece pieces ih =>
    rw [List.cons_append, List.cons_append, join_cons _ _ (by simp), join_cons _ _ (by simp), ih,
      ← List.append_assoc]

theorem join_append (sep : Text) {pieces others : List Text} (hpieces : pieces ≠ [])
    (hothers : others ≠ []) :
    join sep (pieces ++ others) = join sep pieces ++ sep ++ join sep others := by
  induction pieces with
  | nil => exact absurd rfl hpieces
  | cons piece pieces ih =>
    by_cases hnone : pieces = []
    · rw [hnone]
      exact join_cons sep piece hothers
    · rw [List.cons_append, join_cons _ _ (by simp [hnone]), ih hnone, join_cons _ _ hnone]
      simp only [List.append_assoc]

/-- A separator parts the pieces before it from those after it. -/
theorem splitOn_append (sep : Char) (a b : Text) :
    splitOn sep (a ++ sep :: b) = splitOn sep a ++ splitOn sep b := by
  have hjoin : join [sep] (splitOn sep a ++ splitOn sep b) = a ++ sep :: b := by
    rw [join_append _ (splitOn_ne_nil sep a) (splitOn_ne_nil sep b), join_splitOn, join_splitOn,
      List.append_assoc]
    rfl
  have hne : splitOn sep a ++ splitOn sep b ≠ [] := by simp [splitOn_ne_nil]
  rw [← hjoin]
  refine splitOn_join sep hne fun piece hpiece => ?_
  rcases List.mem_append.mp hpiece with h | h <;> exact notMem_of_mem_splitOn h

/-- Without its last piece a join is no longer. -/
theorem length_join_dropLast_le (sep : Text) (pieces : List Text) :
    (join sep pieces.dropLast).length ≤ (join sep pieces).length := by
  by_cases hnone : pieces.dropLast = []
  · rw [hnone]
    exact Nat.zero_le _
  · -- with more than one piece, the last one and its separator are left out
    have hne : pieces ≠ [] := by
      rintro rfl
      exact hnone rfl
    have hjoin := join_append sep hnone (List.cons_ne_nil (pieces.getLast hne) [])
    rw [List.dropLast_concat_getLast] at hjoin
    rw [hjoin, List.append_assoc, List.length_append]
    exact Nat.le_add_right _ _

/-! ### The first and the last separator -/

/-- A separator that does not occur behind its last place tells that place. -/
theorem eq_of_append_cons_eq {sep : Char} {a b s t : Text} (hs : sep ∉ s) (ht : sep ∉ t)
    (h : a ++ sep :: s = b ++ sep :: t) : a = b ∧ s = t := by
  have hfront {a b s t : Text} (hs : sep ∉ s) {d : Text} (hb : b = a ++ d)
      (hd : sep :: s = d ++ sep :: t) : a = b ∧ s = t := by
    cases d with
    | nil => exact ⟨by rw [hb, List.append_nil], (List.cons.inj hd).2⟩
    | cons c d =>
      -- the one separator would stand behind the other, among the characters of `s`
      refine absurd ?_ hs
      rw [(List.cons.inj hd).2]
      exact List.mem_append_right _ List.mem_cons_self
  rcases List.append_eq_append_iff.mp h with ⟨d, hb, hd⟩ | ⟨d, ha, hd⟩
  · exact hfront hs hb hd
  · exact (hfront ht ha hd).imp Eq.symm Eq.symm

/-- What stands before the first separator does not depend on what follows it. -/
theorem takeWhile_append_cons (sep : Char) (a b : Text) :
    (a ++ sep :: b).takeWhile (· ≠ sep) = a.takeWhile (· ≠ sep) := by
  induction a with
  | nil => simp
  | cons c a ih => rw [List.cons_append, List.takeWhile_cons, List.takeWhile_cons, ih]

theorem takeWhile_of_notMem {sep : Char} {a : Text} (h : sep ∉ a) : a.takeWhile (· ≠ sep) = a := by
  refine List.takeWhile_eq_self_iff.mpr fun c hc => decide_eq_true ?_
  rintro rfl
  exact h hc

end DebtSurvey.Text
