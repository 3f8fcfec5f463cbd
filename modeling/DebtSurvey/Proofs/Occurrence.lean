import DebtSurvey.Code.Complexity
import Mathlib.Data.List.TakeWhile
import Mathlib.Order.Basic

/-!
# Occurrences beside a separator

Decision points are words and operators, with blanks inside at most. A character that is neither a
word character nor blank nor part of an operator separates: no decision point holds it, and for the
boundaries of words it counts like an end of the text. So what is counted in a text with a separator
in it is what is counted before the separator and what is counted behind it.

## Main results

* `Code.count_append_cons`: occurrences of such a pattern, on both sides of a separator.
* `Code.stops_decisionPoint`: every decision point is confined.
* `Code.complexity_append_cons`: the complexity of code with a separator in it.
* `Code.additive_iff_isSeparator`: no other characters separate.
-/

namespace DebtSurvey.Code

/-- The characters of operators. -/
def operatorCharacters : Text := "&|?"

/-- A character that no decision point holds and that no word goes on with. -/
structure IsSeparator (c : Char) : Prop where
  not_word : Text.isWord c = false
  not_blank : Text.isBlank c = false
  not_operator : c ∉ operatorCharacters

instance (c : Char) : Decidable (IsSeparator c) :=
  decidable_of_iff
    (Text.isWord c = false ∧ Text.isBlank c = false ∧ c ∉ operatorCharacters)
    ⟨fun ⟨hword, hblank, hoperator⟩ => ⟨hword, hblank, hoperator⟩,
      fun ⟨hword, hblank, hoperator⟩ => ⟨hword, hblank, hoperator⟩⟩

/-- A text that is empty or starts with a separator. -/
def StartsApart (t : Text) : Prop := ∀ c ∈ t.head?, IsSeparator c

theorem IsSeparator.startsApart {c : Char} (h : IsSeparator c) (t : Text) : StartsApart (c :: t) := by
  rintro d ⟨rfl⟩
  exact h

/-- A pattern that reads a text up to the next separator only. -/
structure StopsAtSeparators (width : Width) : Prop where
  /-- What stands from a separator on does not matter. -/
  append : ∀ before a {b : Text}, StartsApart b → width before (a ++ b) = width before a
  /-- An occurrence is part of the text. -/
  le_length : ∀ before t, width before t ≤ t.length
  /-- Behind a separator a text is read as if it were the whole one. -/
  behind : ∀ {c : Char} t, IsSeparator c → width (some c) t = width none t

/-! ### Counting -/

section Count

variable {width : Width} (h : StopsAtSeparators width)

include h

/-- Where a separator comes next, or nothing, it does not matter what came before. -/
theorem countFrom_of_startsApart {b : Text} (hb : StartsApart b) (before : Option Char) :
    countFrom width before 0 b = count width b := by
  cases b with
  | nil => rfl
  | cons c rest =>
    -- nothing occurs at a separator, for it would have to fit into the empty text
    have hnone : ∀ before, width before (c :: rest) = 0 := fun before =>
      Nat.le_zero.mp ((h.append before [] hb).trans_le (h.le_length before []))
    simp [count, countFrom, hnone]

/-- What is counted from a place on is what is counted up to the next separator, and what is counted
from there. -/
theorem countFrom_append {a b : Text} (hb : StartsApart b) {skip : Nat} (hskip : skip ≤ a.length)
    (before : Option Char) :
    countFrom width before skip (a ++ b) = countFrom width before skip a + count width b := by
  -- an occurrence that is skipped ends before the separator, since it is part of `a`
  induction a generalizing before skip with
  | nil =>
    obtain rfl : skip = 0 := Nat.le_zero.mp hskip
    rw [List.nil_append, countFrom_of_startsApart h hb, countFrom, Nat.zero_add]
  | cons c a ih =>
    cases skip with
    | succ skip => exact ih (Nat.le_of_succ_le_succ hskip) (some c)
    | zero =>
      have hwidth : width before (c :: a ++ b) = width before (c :: a) := h.append before _ hb
      have hlength := h.le_length before (c :: a)
      rw [List.cons_append] at hwidth ⊢
      rw [countFrom, countFrom, hwidth]
      split
      · exact ih (Nat.zero_le _) (some c)
      · rename_i more hmore
        rw [hmore] at hlength
        rw [ih (Nat.le_of_succ_le_succ hlength) (some c), Nat.add_right_comm]

/-- A separator at the front does not count. -/
theorem count_cons {c : Char} (hc : IsSeparator c) (t : Text) :
    count width (c :: t) = count width t := by
  have hnone : width none (c :: t) = 0 :=
    Nat.le_zero.mp ((h.append none [] (hc.startsApart t)).trans_le (h.le_length none []))
  have hbehind : countFrom width (some c) 0 t = count width t := by
    cases t with
    | nil => rfl
    | cons d rest => rw [count, countFrom, countFrom, h.behind _ hc]
  rw [← hbehind, count, countFrom, hnone]

/-- Occurrences in a text with a separator are those before it and those behind it. -/
theorem count_append_cons {c : Char} (hc : IsSeparator c) (a b : Text) :
    count width (a ++ c :: b) = count width a + count width b := by
  rw [count, countFrom_append h (hc.startsApart b) (Nat.zero_le _), count_cons h hc, ← count]

end Count

/-! ### Decision points -/

/-- A text without separators stands at the front up to the next separator, if at all. -/
theorem isPrefixOf_append {s : Text} (hs : ∀ c ∈ s, ¬IsSeparator c) (a : Text) {b : Text}
    (hb : StartsApart b) : s.isPrefixOf (a ++ b) = s.isPrefixOf a := by
  induction s generalizing a with
  | nil => simp
  | cons d s ih =>
    rw [List.forall_mem_cons] at hs
    cases a with
    | cons c a => simp [List.isPrefixOf, ih hs.2]
    | nil =>
      cases b with
      | nil => rfl
      | cons c rest =>
        have hne : d ≠ c := by
          rintro rfl
          exact hs.1 (hb d rfl)
        simp [List.isPrefixOf, hne]

/-- What stands at the front is part of the text. -/
theorem length_le_of_isPrefixOf {s t : Text} (h : s.isPrefixOf t) : s.length ≤ t.length :=
  (List.isPrefixOf_iff_prefix.mp h).length_le

theorem not_isSeparator_of_isWord {c : Char} (h : Text.isWord c) : ¬IsSeparator c :=
  fun hc => Bool.false_ne_true (hc.not_word.symm.trans h)

theorem stops_symbol {s : Text} (hs : s.all fun c => decide ¬IsSeparator c) :
    StopsAtSeparators (symbol s) where
  append before a b hb := by
    have hnone : ∀ c ∈ s, ¬IsSeparator c := fun c hc =>
      of_decide_eq_true (List.all_eq_true.mp hs c hc)
    rw [symbol, symbol, isPrefixOf_append hnone a hb]
  le_length before t := by
    rw [symbol]
    split
    · exact length_le_of_isPrefixOf ‹_›
    · exact Nat.zero_le _
  behind t _ := rfl

/-- A word that occurs at a place stands there. -/
theorem isPrefixOf_of_wholeWord {w t : Text} {before : Option Char} (h : wholeWord w before t ≠ 0) :
    w.isPrefixOf t ∧ wholeWord w before t = w.length := by
  unfold wholeWord at h ⊢
  split at h
  · rename_i hstands
    simp only [Bool.and_eq_true] at hstands
    exact ⟨hstands.1.2, by simp [hstands]⟩
  · exact absurd rfl h

/-- No word goes on with a separator. -/
theorem wordAfter_append (a : Text) {b : Text} (hb : StartsApart b) :
    Text.wordAfter (a ++ b) = Text.wordAfter a := by
  cases a with
  | cons c a => rfl
  | nil =>
    cases b with
    | nil => rfl
    | cons c rest => exact (hb c rfl).not_word

theorem stops_wholeWord {w : Text} (hw : w.all Text.isWord) : StopsAtSeparators (wholeWord w) where
  append before a b hb := by
    have hnone : ∀ c ∈ w, ¬IsSeparator c := fun c hc =>
      not_isSeparator_of_isWord (List.all_eq_true.mp hw c hc)
    rw [wholeWord, wholeWord, isPrefixOf_append hnone a hb]
    by_cases hstands : w.isPrefixOf a
    · rw [List.drop_append_of_le_length (length_le_of_isPrefixOf hstands), wordAfter_append _ hb]
    · simp [hstands]
  le_length before t := by
    by_cases h : wholeWord w before t = 0
    · exact h.trans_le (Nat.zero_le _)
    · obtain ⟨hstands, hwidth⟩ := isPrefixOf_of_wholeWord h
      exact hwidth.trans_le (length_le_of_isPrefixOf hstands)
  behind t hc := by
    simp [wholeWord, Text.wordBefore, hc.not_word]

/-- Blanks at the front end before the next separator. -/
theorem takeWhile_isBlank_append (a : Text) {b : Text} (hb : StartsApart b) :
    (a ++ b).takeWhile Text.isBlank = a.takeWhile Text.isBlank := by
  have hnone : b.takeWhile Text.isBlank = [] := by
    cases b with
    | nil => rfl
    | cons c rest => rw [List.takeWhile_cons_of_neg (by simp [(hb c rfl).not_blank])]
  rw [List.takeWhile_append, hnone, List.append_nil]
  split
  · exact ((List.takeWhile_prefix _).eq_of_length ‹_›).symm
  · rfl

theorem stops_elseIfWidth : StopsAtSeparators elseIfWidth := by
  have helse : StopsAtSeparators (wholeWord "else") := stops_wholeWord (by decide)
  have hif : StopsAtSeparators (wholeWord "if") := stops_wholeWord (by decide)
  refine ⟨fun before a b hb => ?_, fun before t => ?_, fun t hc => ?_⟩
  · rw [elseIfWidth, elseIfWidth, helse.append before a hb]
    cases hstands : wholeWord "else" before a with
    | zero => rfl
    | succ n =>
      -- the first word is part of `a`, and so are the blanks behind it
      have hword : 4 ≤ a.length := length_le_of_isPrefixOf
        (isPrefixOf_of_wholeWord (w := "else") (by rw [hstands]; exact n.succ_ne_zero)).1
      have hgap : 4 + ((a.drop 4).takeWhile Text.isBlank).length ≤ a.length := by
        have hpart := (List.takeWhile_prefix (l := a.drop 4) Text.isBlank).length_le
        rw [List.length_drop] at hpart
        omega
      simp only
      rw [List.drop_append_of_le_length hword, takeWhile_isBlank_append _ hb,
        List.drop_append_of_le_length hgap, hif.append _ _ hb]
  · rw [elseIfWidth]
    split
    · exact Nat.zero_le _
    · simp only
      split
      · exact Nat.zero_le _
      · rename_i width hnonzero
        have hlength := hif.le_length ((t.drop 4).takeWhile Text.isBlank).getLast?
          (t.drop (4 + ((t.drop 4).takeWhile Text.isBlank).length))
        rw [List.length_drop] at hlength
        have hsome := Nat.pos_of_ne_zero hnonzero
        omega
  · rw [elseIfWidth, elseIfWidth, helse.behind t hc]

/-- Every decision point stops at separators. -/
theorem stops_decisionPoint : ∀ p ∈ decisionPoints, StopsAtSeparators p.width := by
  have hword (w : Text) (hw : w.all Text.isWord) :
      StopsAtSeparators (DecisionPoint.word w).width := stops_wholeWord hw
  have hoperator (s : Text) (hs : s.all fun c => decide ¬IsSeparator c) :
      StopsAtSeparators (DecisionPoint.operator s).width := stops_symbol hs
  simp only [decisionPoints, List.forall_mem_cons]
  exact ⟨hword _ (by decide), stops_elseIfWidth, hword _ (by decide), hword _ (by decide),
    hword _ (by decide), hword _ (by decide), hoperator _ (by decide), hoperator _ (by decide),
    hoperator _ (by decide), List.forall_mem_nil _⟩

/-! ### Complexity -/

/-- Decision points of some kinds are counted on both sides of a separator. -/
theorem foldl_count_append_cons {points : List DecisionPoint}
    (hpoints : ∀ p ∈ points, StopsAtSeparators p.width) {c : Char} (hc : IsSeparator c)
    (a b : Text) (m n : Nat) :
    points.foldl (fun k p => k + count p.width (a ++ c :: b)) (m + n) =
      points.foldl (fun k p => k + count p.width a) m +
        points.foldl (fun k p => k + count p.width b) n := by
  induction points generalizing m n with
  | nil => rfl
  | cons p points ih =>
    rw [List.forall_mem_cons] at hpoints
    simp only [List.foldl_cons]
    rw [← ih hpoints.2, count_append_cons hpoints.1 hc]
    congr 1
    omega

/-- Counting decision points goes on from where it starts. -/
theorem foldl_count_succ (points : List DecisionPoint) (code : Text) (n : Nat) :
    points.foldl (fun k p => k + count p.width code) (n + 1) =
      points.foldl (fun k p => k + count p.width code) n + 1 := by
  induction points generalizing n with
  | nil => rfl
  | cons p points ih => rw [List.foldl_cons, List.foldl_cons, ← ih, Nat.add_right_comm]

/-- The decision points of code with a separator in it are those before it and those behind it. -/
theorem complexity_append_cons {c : Char} (hc : IsSeparator c) (a b : Text) :
    complexity (a ++ c :: b) + 1 = complexity a + complexity b := by
  have happend := foldl_count_append_cons stops_decisionPoint hc a b 1 0
  have hstart := foldl_count_succ decisionPoints b 0
  rw [complexity, complexity, complexity, happend, hstart, Nat.add_assoc]

/-- Code without decision points has complexity one, and there is none of less. -/
theorem one_le_complexity (code : Text) : 1 ≤ complexity code := by
  rw [complexity, foldl_count_succ]
  exact Nat.le_add_left 1 _

/-! ### Characters that do not separate -/

/-- A word character goes on with the word `if`, which does not count any more. -/
theorem complexity_if_append {c : Char} (hc : Text.isWord c) : complexity ("if" ++ [c]) = 1 := by
  have hi : Text.isWord 'i' := by decide
  have hf : Text.isWord 'f' := by decide
  have hquestion : '?' ≠ c := by
    rintro rfl
    exact absurd hc (by decide)
  simp [complexity, decisionPoints, DecisionPoint.width, count, countFrom, wholeWord, elseIfWidth,
    symbol, Text.ofString, Text.wordBefore, Text.wordAfter, hc, hi, hf, hquestion]

/-- A blank between the words `else` and `if` makes a decision point of them, besides the one that
the second word is. -/
theorem complexity_else_append_if {c : Char} (hblank : Text.isBlank c) (hword : ¬Text.isWord c) :
    complexity ("else" ++ [c] ++ "if") = 3 := by
  have hletters : Text.isWord 'e' ∧ Text.isWord 'l' ∧ Text.isWord 's' ∧ Text.isWord 'i' := by decide
  have hi : Text.isBlank 'i' = false := by decide
  have hquestion : '?' ≠ c := by
    rintro rfl
    exact absurd hblank (by decide)
  simp [complexity, decisionPoints, DecisionPoint.width, count, countFrom, wholeWord, elseIfWidth,
    symbol, Text.ofString, Text.wordBefore, Text.wordAfter, hletters, hblank, hword, hi, hquestion]

/-- Complexity is additive over a character, in whatever code it stands, if and only if the
character is a separator: neither a word character nor blank nor part of an operator. -/
theorem additive_iff_isSeparator (c : Char) :
    (∀ a b : Text, (complexity (a ++ [c] ++ b) : Int) = complexity a + complexity b - 1) ↔
      IsSeparator c := by
  constructor
  · intro hadditive
    have hword : ¬Text.isWord c := by
      intro hc
      have hif := hadditive "if" []
      rw [List.append_nil, complexity_if_append hc] at hif
      exact absurd hif (by decide)
    refine ⟨Bool.eq_false_iff.mpr hword, Bool.eq_false_iff.mpr ?_, ?_⟩
    · intro hblank
      have helse := hadditive "else" "if"
      rw [complexity_else_append_if hblank hword] at helse
      exact absurd helse (by decide)
    · intro hoperator
      -- twice the character is an operator, or two of them
      have htwice := hadditive [c] []
      have hcases : c = '&' ∨ c = '|' ∨ c = '?' := by
        simpa [operatorCharacters, Text.ofString] using hoperator
      rcases hcases with rfl | rfl | rfl <;> exact absurd htwice (by decide)
  · intro hc a b
    have hsplit := complexity_append_cons hc a b
    rw [List.append_assoc, List.singleton_append]
    omega

end DebtSurvey.Code
