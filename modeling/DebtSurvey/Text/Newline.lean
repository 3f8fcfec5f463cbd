import DebtSurvey.Text.Basic

/-!
# Line ends

A text file may end its lines with a newline, a carriage return, or both together; reading it turns
each into one newline. Some outputs are cut at every character that ends a line anywhere.
-/

namespace DebtSurvey.Text

/-- Turn every line end (`\r\n`, `\r` or `\n`) into one newline. -/
def unifyNewlines : Text → Text
  | [] => []
  | '\r' :: '\n' :: rest => '\n' :: unifyNewlines rest
  | '\r' :: rest => '\n' :: unifyNewlines rest
  | c :: rest => c :: unifyNewlines rest

/-- Characters that end a line in some convention: the line and page controls, the information
separators but the unit separator, and the Unicode line and paragraph separators. -/
def isLineBreak (c : Char) : Bool :=
  let n := c.toNat
  (10 ≤ n && n ≤ 13) || (28 ≤ n && n ≤ 30) || n == 0x85 || n == 0x2028 || n == 0x2029

/-- Lines, each ended by any line break or by the end of the text; `current` holds the characters of
the line so far, last first. A carriage return and a newline together end one line. -/
def breakLinesFrom (current : Text) : Text → List Text
  | [] => if current.isEmpty then [] else [current.reverse]
  | '\r' :: '\n' :: rest => current.reverse :: breakLinesFrom [] rest
  | c :: rest =>
    if isLineBreak c then current.reverse :: breakLinesFrom [] rest
    else breakLinesFrom (c :: current) rest

/-- The lines of a text under every convention at once; a final line break adds no empty line. -/
def breakLines (t : Text) : List Text := breakLinesFrom [] t

end DebtSurvey.Text
