import DebtSurvey.Proofs.Pieces
import DebtSurvey.Text.Newline
import Mathlib.Data.List.Basic

/-!
# Texts in lines

A text can be cut at newlines only, or at every character that ends a line in some convention. A
newline ends a line either way, so the first cut can be followed by the second: cutting everywhere
is cutting each line of the first kind everywhere.

## Main results

* `Text.join_lines`: a text is its lines, joined by newlines again.
* `Text.breakLines_append_newline`: cutting everywhere starts anew after every newline.
* `Text.breakLines_terminated`: lines without line breaks in them are found as they were.
-/

namespace DebtSurvey.Text

/-- A text within one line: no character of it ends a line. -/
def Unbroken (t : Text) : Prop := ∀ c ∈ t, isLineBreak c = false

instance (t : Text) : Decidable (Unbroken t) :=
  List.decidableBAll (fun c => isLineBreak c = false) t

/-- Texts one after the other, each ended by a newline. -/
def terminated (texts : List Text) : Text := texts.flatMap (· ++ ['\n'])

/-- An unbroken text stays unbroken with an unbroken text before it. -/
theorem Unbroken.append {s t : Text} (hs : Unbroken s) (ht : Unbroken t) : Unbroken (s ++ t) :=
  fun c hc => (List.mem_append.mp hc).elim (hs c) (ht c)

/-- A text is unbroken when its first character and the others are. -/
theorem unbroken_cons {c : Char} {t : Text} :
    Unbroken (c :: t) ↔ isLineBreak c = false ∧ Unbroken t := List.forall_mem_cons

/-! ### Cutting at a separator -/

/-- A text is its lines, joined by newlines again. -/
theorem join_lines (t : Text) : join ['\n'] (lines t) = t := join_splitOn '\n' t

/-! ### Cutting at every line break -/

/-- A character that ends no line is added to the line that is being read. -/
theorem breakLinesFrom_cons_of_unbroken {c : Char} (hc : isLineBreak c = false) (current t : Text) :
    breakLinesFrom current (c :: t) = breakLinesFrom (c :: current) t := by
  have hr : c ≠ '\r' := by
    rintro rfl
    exact absurd hc (by decide)
  rw [breakLinesFrom, if_neg (by rw [hc]; decide)]
  rintro rest rfl
  exact absurd rfl hr

/-- A character that ends a line ends the line that is being read, unless it is the first half of a
carriage return and newline. -/
theorem breakLinesFrom_break {c : Char} {t : Text} (hc : isLineBreak c)
    (ht : c = '\r' → t.head? ≠ some '\n') (current : Text) :
    breakLinesFrom current (c :: t) = current.reverse :: breakLines t := by
  rw [breakLinesFrom, if_pos hc]
  · rfl
  · rintro rest rfl rfl
    exact ht rfl rfl

/-- A newline ends the line that is being read. -/
theorem breakLinesFrom_newline (current t : Text) :
    breakLinesFrom current ('\n' :: t) = current.reverse :: breakLines t :=
  breakLinesFrom_break (by decide) (fun h => absurd h (by decide)) current

/-- A carriage return and a newline end the line that is being read together. -/
theorem breakLinesFrom_return_newline (current t : Text) :
    breakLinesFrom current ('\r' :: '\n' :: t) = current.reverse :: breakLines t := by
  rw [breakLinesFrom]
  rfl

/-- Where no newline follows a carriage return, none does after more text is put behind, provided
that there is text between. -/
theorem head?_append_ne {c : Char} {a : Text}
    (hpair : ∀ rest, c = '\r' → a = '\n' :: rest → False) (hlast : ¬(c = '\r' ∧ a = []))
    (behind : Text) : c = '\r' → (a ++ behind).head? ≠ some '\n' := by
  intro hc hhead
  cases a with
  | nil => exact hlast ⟨hc, rfl⟩
  | cons d a =>
    obtain rfl : d = '\n' := Option.some.inj hhead
    exact hpair a hc rfl

/-- Cutting everywhere starts anew after a newline, whatever comes before it. -/
theorem breakLinesFrom_append_newline (current a rest : Text) :
    breakLinesFrom current (a ++ '\n' :: rest) =
      breakLinesFrom current (a ++ ['\n']) ++ breakLines rest := by
  fun_induction breakLinesFrom current a with
  | case1 current | case2 current =>
    rw [List.nil_append, List.nil_append, breakLinesFrom_newline, breakLinesFrom_newline]
    rfl
  | case3 current a ih =>
    simp only [List.cons_append, breakLinesFrom_return_newline]
    rw [breakLines, ih]
    rfl
  | case4 current c a hpair hbreak ih =>
    rw [List.cons_append, List.cons_append]
    by_cases hlast : c = '\r' ∧ a = []
    · -- the carriage return stands before the newline, and goes with it
      obtain ⟨rfl, rfl⟩ := hlast
      simp only [List.nil_append, breakLinesFrom_return_newline]
      rfl
    · have hhead := head?_append_ne hpair hlast
      rw [breakLinesFrom_break hbreak (hhead _), breakLinesFrom_break hbreak (hhead _), breakLines,
        ih]
      rfl
  | case5 current c a hpair hbreak ih =>
    have hc : isLineBreak c = false := by simpa using hbreak
    rw [List.cons_append, List.cons_append, breakLinesFrom_cons_of_unbroken hc,
      breakLinesFrom_cons_of_unbroken hc, ih]

/-- Cutting everywhere starts anew after every newline. -/
theorem breakLines_append_newline (a rest : Text) :
    breakLines (a ++ '\n' :: rest) = breakLines (a ++ ['\n']) ++ breakLines rest :=
  breakLinesFrom_append_newline [] a rest

/-- A newline at the end adds an empty line at most: it ends the last line, unless that was ended
before. -/
theorem breakLinesFrom_concat_newline (current a : Text) :
    breakLinesFrom current (a ++ ['\n']) = breakLinesFrom current a ∨
      breakLinesFrom current (a ++ ['\n']) = breakLinesFrom current a ++ [[]] := by
  fun_induction breakLinesFrom current a with
  | case1 current hempty =>
    -- nothing was read since the last break
    obtain rfl : current = [] := List.isEmpty_iff.mp hempty
    exact .inr rfl
  | case2 current hempty => exact .inl (breakLinesFrom_newline _ _)
  | case3 current a ih =>
    simp only [List.cons_append, breakLinesFrom_return_newline]
    exact ih.imp (congrArg (current.reverse :: ·)) (congrArg (current.reverse :: ·))
  | case4 current c a hpair hbreak ih =>
    rw [List.cons_append]
    by_cases hlast : c = '\r' ∧ a = []
    · obtain ⟨rfl, rfl⟩ := hlast
      exact .inl (breakLinesFrom_return_newline _ _)
    · rw [breakLinesFrom_break hbreak (head?_append_ne hpair hlast _)]
      exact ih.imp (congrArg (current.reverse :: ·)) (congrArg (current.reverse :: ·))
  | case5 current c a hpair hbreak ih =>
    have hc : isLineBreak c = false := by simpa using hbreak
    rw [List.cons_append, breakLinesFrom_cons_of_unbroken hc]
    exact ih

/-- An unbroken text goes on with the line that is being read, up to the newline after it. -/
theorem breakLinesFrom_unbroken {t : Text} (ht : Unbroken t) (current rest : Text) :
    breakLinesFrom current (t ++ '\n' :: rest) = (current.reverse ++ t) :: breakLines rest := by
  induction t generalizing current with
  | nil => rw [List.nil_append, List.append_nil, breakLinesFrom_newline]
  | cons c t ih =>
    obtain ⟨hc, ht⟩ := unbroken_cons.mp ht
    rw [List.cons_append, breakLinesFrom_cons_of_unbroken hc, ih ht, List.reverse_cons,
      List.append_assoc, List.singleton_append]

/-- Lines without line breaks in them, each ended by a newline, are found as they were. -/
theorem breakLines_terminated {texts : List Text} (h : ∀ t ∈ texts, Unbroken t) :
    breakLines (terminated texts) = texts := by
  induction texts with
  | nil => rfl
  | cons t texts ih =>
    rw [List.forall_mem_cons] at h
    rw [terminated, List.flatMap_cons, List.append_assoc, List.singleton_append, breakLines,
      breakLinesFrom_unbroken h.1, List.reverse_nil, List.nil_append, ← terminated, ih h.2]

end DebtSurvey.Text
