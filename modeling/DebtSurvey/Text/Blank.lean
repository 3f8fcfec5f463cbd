import DebtSurvey.Text.Basic

/-!
# Blank characters

White space of every script, with the four information separators that ASCII puts among its control
characters. The zero-width space and the byte order mark are not blank.
-/

namespace DebtSurvey.Text

/-- Blank characters. -/
def isBlank (c : Char) : Bool :=
  let n := c.toNat
  (9 ≤ n && n ≤ 13) || (28 ≤ n && n ≤ 32) || n == 0x85 || n == 0xa0 || n == 0x1680 ||
    (0x2000 ≤ n && n ≤ 0x200a) || n == 0x2028 || n == 0x2029 || n == 0x202f || n == 0x205f ||
    n == 0x3000

/-- Drop blanks at the start. -/
def trimStart (t : Text) : Text := t.dropWhile isBlank

/-- Drop blanks at the end. -/
def trimEnd (t : Text) : Text := (t.reverse.dropWhile isBlank).reverse

/-- Drop blanks at both ends. -/
def trim (t : Text) : Text := trimEnd (trimStart t)

end DebtSurvey.Text
