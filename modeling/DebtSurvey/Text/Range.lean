/-!
# Ranges of code points

A class of characters is written as a table of code point ranges, ascending and disjoint, and
looked up by halving the table.
-/

namespace DebtSurvey.Text

/-- Whether `n` lies in one of the ranges `table[lo], …, table[hi - 1]`; the first argument bounds
the number of halvings. -/
def inRangesFrom (table : Array (Nat × Nat)) (n : Nat) : Nat → Nat → Nat → Bool
  | 0, _, _ => false
  | fuel + 1, lo, hi =>
    if lo < hi then
      let mid := (lo + hi) / 2
      match table[mid]? with
      | none => false
      | some (first, last) =>
        if n < first then inRangesFrom table n fuel lo mid
        else if last < n then inRangesFrom table n fuel (mid + 1) hi
        else true
    else false

/-- Whether `n` lies in one of the ranges of an ascending table. -/
def inRanges (table : Array (Nat × Nat)) (n : Nat) : Bool :=
  inRangesFrom table n table.size 0 table.size

end DebtSurvey.Text
