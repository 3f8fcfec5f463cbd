import DebtSurvey.Text.Word

/-!
# Occurrences in a text

A pattern is given by the width it takes at a place, zero where it does not occur; a place is the
character before it and the text after it. Occurrences are found from left to right, and after one
the search goes on behind it, so they never overlap.
-/

namespace DebtSurvey.Code

/-- How many characters a pattern takes at a place; zero where it does not occur. -/
abbrev Width := Option Char → Text → Nat

/-- The number of occurrences; `skip` characters still belong to the last one. -/
def countFrom (width : Width) : Option Char → Nat → Text → Nat
  | _, _, [] => 0
  | _, skip + 1, c :: rest => countFrom width (some c) skip rest
  | before, 0, c :: rest =>
    match width before (c :: rest) with
    | 0 => countFrom width (some c) 0 rest
    | more + 1 => countFrom width (some c) more rest + 1

/-- The number of occurrences of a pattern in a text. -/
def count (width : Width) (t : Text) : Nat := countFrom width none 0 t

/-- A symbol, wherever it stands. -/
def symbol (s : Text) : Width := fun _ t => if s.isPrefixOf t then s.length else 0

/-- A word that is not part of a longer one. -/
def wholeWord (w : Text) : Width := fun before t =>
  if !Text.wordBefore before && w.isPrefixOf t && !Text.wordAfter (t.drop w.length) then w.length
  else 0

end DebtSurvey.Code
