import DebtSurvey.Analysis.Functions
import DebtSurvey.Analysis.Markers
import DebtSurvey.Proofs.LineBreak
import DebtSurvey.Workspace.Discovery
import Mathlib.Algebra.GroupWithZero.Nat

/-!
# Places in a source text

A marked line and the head of a function both divide their source text. The line number that is
reported for them is one more than the number of newlines above, and as there is text behind the
place, it is the number of a line of the text, even when a final newline is not counted as the start
of another line.

## Main results

* `Text.terminated_append_join`, `Text.count_terminated_lines`: a line divides its text, with as many
  newlines above as there are lines.
* `Workspace.count_lt_length_keptLines`: a place with text behind it is on one of the lines.
* `Marker.mem_findings`, `Code.mem_complexityFindings`: what is found, with the place where it stands.
-/

namespace DebtSurvey

namespace Text

/-- A text has one line more than newlines. -/
theorem length_lines (t : Text) : (lines t).length = t.count '\n' + 1 := by
  unfold lines
  induction t with
  | nil => rfl
  | cons c rest ih =>
    obtain ⟨line, others, hlines⟩ := List.exists_cons_of_ne_nil (splitOn_ne_nil '\n' rest)
    rw [hlines] at ih
    rw [splitOn]
    -- a newline starts a line, any other character is added to the first one
    split
    · rename_i hc
      rw [hc, List.count_cons_self, hlines, List.length_cons, ih]
    · rename_i hc
      rw [List.count_cons_of_ne hc, hlines, ← ih]
      rfl

/-- Pieces are joined when those in front are ended by newlines and the others are joined. -/
theorem terminated_append_join {pieces : List Text} {n : Nat} (hn : n < pieces.length) :
    terminated (pieces.take n) ++ join ['\n'] (pieces.drop n) = join ['\n'] pieces := by
  induction n generalizing pieces with
  | zero => rfl
  | succ n ih =>
    cases pieces with
    | nil => cases hn
    | cons piece rest =>
      have hn : n < rest.length := Nat.lt_of_succ_lt_succ hn
      rw [List.take_succ_cons, List.drop_succ_cons, terminated, List.flatMap_cons, ← terminated,
        List.append_assoc, ih hn, join_cons ['\n'] piece (List.ne_nil_of_length_pos (by omega))]

/-- Pieces, each ended by a newline, hold one newline for each piece and those inside of pieces. -/
theorem count_terminated_add (pieces : List Text) : (terminated pieces).count '\n' =
    pieces.length + (pieces.map (·.count '\n')).sum := by
  induction pieces with
  | nil => rfl
  | cons piece pieces ih =>
    rw [terminated, List.flatMap_cons, ← terminated, List.count_append, List.count_append, ih,
      List.count_singleton_self, List.length_cons, List.map_cons, List.sum_cons]
    omega

/-- Lines without newlines in them have as many newlines as there are of them. -/
theorem count_terminated {pieces : List Text} (h : ∀ piece ∈ pieces, '\n' ∉ piece) :
    (terminated pieces).count '\n' = pieces.length := by
  have hnone : pieces.map (·.count '\n') = pieces.map fun _ => 0 :=
    List.map_congr_left fun piece hpiece => List.count_eq_zero.mpr (h piece hpiece)
  rw [count_terminated_add, hnone]
  simp

/-- There are as many newlines above a line as there are lines. -/
theorem count_terminated_lines {t : Text} {n : Nat} (hn : n < (lines t).length) :
    (terminated ((lines t).take n)).count '\n' = n := by
  have hpieces : ∀ piece ∈ (lines t).take n, '\n' ∉ piece := fun piece hpiece =>
    notMem_of_mem_splitOn (List.mem_of_mem_take hpiece)
  rw [count_terminated hpieces, List.length_take, Nat.min_eq_left hn.le]

/-- A line that is not empty is text behind its place. -/
theorem join_drop_ne_nil {pieces : List Text} {n : Nat} {piece : Text}
    (h : pieces[n]? = some piece) (hpiece : piece ≠ []) : join ['\n'] (pieces.drop n) ≠ [] := by
  obtain ⟨hn, rfl⟩ := List.getElem?_eq_some_iff.mp h
  rw [List.drop_eq_getElem_cons hn]
  cases pieces.drop (n + 1) with
  | nil => exact hpiece
  | cons next rest => simp [join]

/-- What ends a text whose lines all have their newline is a newline. -/
theorem newline_mem_of_terminated {pieces : List Text} {above below : Text}
    (h : terminated pieces = above ++ below) (hbelow : below ≠ []) : '\n' ∈ below := by
  have hne : pieces ≠ [] := by
    rintro rfl
    exact hbelow (List.append_eq_nil_iff.mp h.symm).2
  have hlast : (above ++ below).getLast? = some '\n' := by
    rw [← h, ← List.dropLast_concat_getLast hne, terminated, List.flatMap_append]
    simp
  rw [List.getLast?_append_of_ne_nil _ hbelow] at hlast
  exact List.mem_of_getLast? hlast

end Text

namespace Workspace

/-- The lines of a text, from those that newlines end and the text behind them. -/
theorem keptLines_eq {t last : Text} {ended : List Text} (h : Text.lines t = ended ++ [last]) :
    keptLines t = ended.map (· ++ ['\n']) ++ if last.isEmpty then [] else [last] := by
  rw [keptLines, h, List.reverse_append, List.reverse_singleton, List.singleton_append]
  simp only [List.reverse_reverse]

/-- What has text behind it ends on one of the lines. -/
theorem count_lt_length_keptLines {t above below : Text} (ht : t = above ++ below)
    (hbelow : below ≠ []) : above.count '\n' < (keptLines t).length := by
  obtain hnone | ⟨ended, last, hlines⟩ := List.eq_nil_or_concat' (Text.lines t)
  · exact absurd hnone (Text.splitOn_ne_nil '\n' t)
  have hended : ended.length = above.count '\n' + below.count '\n' := by
    have hlength := Text.length_lines t
    rw [hlines, List.length_append, List.length_singleton, ht, List.count_append] at hlength
    omega
  rw [keptLines_eq hlines, List.length_append, List.length_map]
  by_cases hnewline : '\n' ∈ below
  · have := List.count_pos_iff.mpr hnewline
    omega
  · -- without a newline behind it, it ends on the last line, which is not empty then
    have hlast : last ≠ [] := by
      rintro rfl
      have hn : ended.length < (ended ++ [[]]).length := by simp
      have hterminated : Text.terminated ended = t := by
        rw [← Text.join_lines t, hlines, ← Text.terminated_append_join hn, List.take_left,
          List.drop_left, Text.join, List.append_nil]
      exact hnewline (Text.newline_mem_of_terminated (hterminated.trans ht) hbelow)
    rw [List.isEmpty_eq_false_iff.mpr hlast, List.count_eq_zero.mpr hnewline] at *
    simp [hended]

end Workspace

namespace Marker

variable {words : List Text}

/-- There is no marker in an empty line. -/
theorem search_nil (words : List Text) : search words [] = none := rfl

/-- The lines that carry a marker stand in order. -/
theorem pairwise_markedLines (words : List Text) (source : Text) :
    (markedLines words source).Pairwise fun x y => x.1 < y.1 := by
  refine List.Pairwise.filter _ (List.pairwise_iff_getElem.mpr fun i j hi hj hij => ?_)
  simpa using hij

/-- The findings of markers are those of the lines in which one is found, numbered from one. -/
theorem mem_findings {file source : Text} {blame : List BlameRow} {clock : Int} {f : Finding} :
    f ∈ findings words file source blame clock ↔
      ∃ n line, (Text.lines source)[n]? = some line ∧ (search words line).isSome ∧
        f = finding file blame clock (n + 1) line := by
  simp only [findings, markedLines, List.mem_map, List.mem_filter, List.mem_mapIdx]
  constructor
  · -- lines are numbered from one, their places from zero
    rintro ⟨_, ⟨⟨n, hn, rfl⟩, hmarked⟩, rfl⟩
    exact ⟨n, _, List.getElem?_eq_getElem hn, hmarked, rfl⟩
  · rintro ⟨n, line, hline, hmarked, rfl⟩
    obtain ⟨hn, rfl⟩ := List.getElem?_eq_some_iff.mp hline
    exact ⟨_, ⟨⟨n, hn, rfl⟩, hmarked⟩, rfl⟩

/-- A marked line is one of the lines of its text. -/
theorem lt_length_keptLines {source line : Text} {n : Nat}
    (hline : (Text.lines source)[n]? = some line) (hmarked : (search words line).isSome) :
    n < (Workspace.keptLines source).length := by
  have hn : n < (Text.lines source).length := (List.getElem?_eq_some_iff.mp hline).1
  have hempty : line ≠ [] := by
    rintro rfl
    rw [search_nil] at hmarked
    cases hmarked
  have hsource : source = Text.terminated ((Text.lines source).take n) ++
      Text.join ['\n'] ((Text.lines source).drop n) := by
    rw [Text.terminated_append_join hn, Text.join_lines]
  have hcount := Workspace.count_lt_length_keptLines hsource (Text.join_drop_ne_nil hline hempty)
  rwa [Text.count_terminated_lines hn] at hcount

end Marker

namespace Code

/-- A function has its head in a text that starts at a position and line, on the line that the
newlines above the head tell. -/
def Function.HasHead (f : Function) (position line : Nat) (t : Text) : Prop :=
  ∃ above below, t = above ++ below ∧ f.headStart = position + above.length ∧
    f.line = line + above.count '\n' ∧ ∃ after, takeHead? below = some (f.name, after)

/-- With a character before the text, the position is one less, and so is the line if that character
is a newline. -/
theorem Function.HasHead.cons {f : Function} {position line : Nat} {c : Char} {rest : Text}
    (h : f.HasHead (position + 1) (if c = '\n' then line + 1 else line) rest) :
    f.HasHead position line (c :: rest) := by
  obtain ⟨above, below, rfl, hstart, hline, hhead⟩ := h
  refine ⟨c :: above, below, rfl, ?_, ?_, hhead⟩
  · rw [hstart, List.length_cons]
    omega
  · rw [hline]
    split
    · rename_i hc
      rw [hc, List.count_cons_self]
      omega
    · rename_i hc
      rw [List.count_cons_of_ne hc]

/-- The functions that are found have their heads in the text. -/
theorem hasHead_of_mem_functionsFrom {position line skip : Nat} {t : Text} {f : Function}
    (h : f ∈ functionsFrom position line skip t) : f.HasHead position line t := by
  -- a character that is skipped, has no head, or has a head without a body, is put above the others
  fun_induction functionsFrom position line skip t with
  | case1 => cases h
  | case2 position line skip c rest ih => exact .cons (ih h)
  | case3 position line c rest next hhead ih => exact .cons (ih h)
  | case4 position line c rest next name after hhead others hbody ih => exact .cons (ih h)
  | case5 position line c rest next name after hhead others gap body hbody ih =>
    rcases List.mem_cons.mp h with rfl | hothers
    · exact ⟨[], c :: rest, rfl, rfl, rfl, after, hhead⟩
    · exact .cons (ih hothers)

/-- The head of a function divides its source: `f.headStart` characters come before it. -/
theorem head_of_mem {source : Text} {f : Function} (h : f ∈ functions source) :
    f.line = (source.take f.headStart).count '\n' + 1 ∧
      ∃ after, takeHead? (source.drop f.headStart) = some (f.name, after) := by
  obtain ⟨above, below, rfl, hstart, hline, hhead⟩ := hasHead_of_mem_functionsFrom h
  rw [Nat.zero_add] at hstart
  rw [hstart, List.take_left, List.drop_left]
  exact ⟨by omega, hhead⟩

/-- The head of a function is on one of the lines of its source. -/
theorem line_le_of_mem {source : Text} {f : Function} (h : f ∈ functions source) :
    f.line ≤ (Workspace.keptLines source).length := by
  obtain ⟨hline, after, hhead⟩ := head_of_mem h
  have hbelow : source.drop f.headStart ≠ [] := by
    intro hnil
    rw [hnil] at hhead
    cases hhead
  rw [hline]
  exact Workspace.count_lt_length_keptLines (List.take_append_drop f.headStart source).symm hbelow

/-- The findings of functions are those of the functions that reach the lowest band. -/
theorem mem_complexityFindings {bands : Bands Int} {file : Text} {functions : List Function}
    {blame : List BlameRow} {clock : Int} {f : Finding} :
    f ∈ complexityFindings bands file functions blame clock ↔
      ∃ function ∈ functions, bands.low ≤ (complexity function.body : Int) ∧
        f = complexityFinding bands file blame clock function (complexity function.body) := by
  simp only [complexityFindings, List.mem_filterMap, complexityFinding?,
    Option.ite_none_right_eq_some, Option.some.injEq, eq_comm (b := f)]

end Code

end DebtSurvey
