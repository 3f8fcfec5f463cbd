/-!
# Text

Text is a list of Unicode scalar values. This module holds the few operations that every other
module needs: splitting at a separator, joining, and reading and writing from string literals.

`splitOn` and `join` undo each other: a text is the join of its pieces, and no piece holds the
separator.
-/

namespace DebtSurvey

/-- A text: its characters in order. -/
abbrev Text := List Char

namespace Text

/-- The text of a string literal. -/
def ofString (s : String) : Text := s.toList

/-- String literals may stand where a text is expected. -/
instance : Coe String Text := ⟨ofString⟩

/-- Split at every occurrence of a separator; the empty text has one empty piece. -/
def splitOn (sep : Char) : Text → List Text
  | [] => [[]]
  | c :: rest =>
    if c = sep then [] :: splitOn sep rest
    else
      match splitOn sep rest with
      | [] => [[c]]
      | piece :: pieces => (c :: piece) :: pieces

/-- Put a separator between neighbouring pieces. -/
def join (sep : Text) : List Text → Text
  | [] => []
  | [piece] => piece
  | piece :: next :: rest => piece ++ sep ++ join sep (next :: rest)

/-- The lines of a text that only the newline ends: a final newline is followed by an empty line. -/
def lines (t : Text) : List Text := splitOn '\n' t

/-- Split at the first occurrence of a character; the second part lacks it. -/
def cut (sep : Char) (t : Text) : Text × Text :=
  (t.takeWhile (· ≠ sep), (t.dropWhile (· ≠ sep)).drop 1)

/-- A natural number in decimal. -/
def ofNat (n : Nat) : Text := Nat.toDigits 10 n

/-- An integer in decimal, with a minus sign when it is negative. -/
def ofInt : Int → Text
  | .ofNat n => ofNat n
  | .negSucc n => '-' :: ofNat (n + 1)

/-- A numeral of at least `width` places, filled from the left with a given character. -/
def padLeft (width : Nat) (fill : Char) (t : Text) : Text :=
  List.replicate (width - t.length) fill ++ t

/-- A text of at least `width` places, filled from the right with blanks. -/
def padRight (width : Nat) (t : Text) : Text :=
  t ++ List.replicate (width - t.length) ' '

/-- Order by code point, a proper beginning first. -/
def le : Text → Text → Bool
  | [], _ => true
  | _ :: _, [] => false
  | a :: s, b :: t => if a.val < b.val then true else if b.val < a.val then false else le s t

theorem splitOn_ne_nil (sep : Char) (t : Text) : splitOn sep t ≠ [] := by
  cases t with
  | nil => simp [splitOn]
  | cons c rest =>
    unfold splitOn
    split
    · simp
    · split <;> simp

end Text

end DebtSurvey
