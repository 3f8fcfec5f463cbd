import DebtSurvey.Text.Basic

/-!
# Places in a document

A cursor is a place in a document: the text that is left, and how far it is from the start, in
characters, lines, and columns. A byte order mark takes no column. Past the end stands the null
character, which a document cannot hold.
-/

namespace DebtSurvey.Yaml

/-- A place in a document. -/
structure Cursor where
  /-- The text that is left. -/
  rest : Text
  /-- The number of characters before the place. -/
  index : Nat := 0
  /-- The number of lines before the line of the place. -/
  line : Nat := 0
  /-- The number of columns before the place in its line. -/
  column : Nat := 0
deriving Repr, Inhabited

/-- The character past the end. -/
def pastEnd : Char := '\x00'

/-- Characters that end a line. -/
def isBreak (c : Char) : Bool := c == '\n' || c == '\x85' || c == '\u2028' || c == '\u2029'

/-- Characters that end a line, and the end. -/
def isEnd (c : Char) : Bool := c == pastEnd || isBreak c

/-- A blank or the end of a line. -/
def isSpaceOrEnd (c : Char) : Bool := c == ' ' || isEnd c

/-- A blank, a tab or the end of a line. -/
def isBlankOrEnd (c : Char) : Bool := c == '\t' || isSpaceOrEnd c

/-- Letters, digits and marks that names consist of. -/
def isNameChar (c : Char) : Bool := c.isAlphanum || c == '-' || c == '_'

/-- The byte order mark. -/
def byteOrderMark : Char := '\ufeff'

/-- What a line break in the document is in a value: the Unicode separators stay, all other breaks
are newlines. -/
def breakValue (c : Char) : Char := if c == '\u2028' || c == '\u2029' then c else '\n'

/-- The line breaks in a text, as they are in a value. -/
def breaksOf (t : Text) : Text := (t.filter isBreak).map breakValue

/-- Fold line breaks: a single newline is a blank, and of more newlines the first is dropped. -/
def foldBreaks : Text → Text
  | [] => []
  | b :: rest =>
    if b = '\n' then if rest.isEmpty then [' '] else rest
    else b :: rest

namespace Cursor

/-- The character a number of places ahead. -/
def peek (c : Cursor) (ahead : Nat) : Char := c.rest.getD ahead pastEnd

/-- The character at the place. -/
def here (c : Cursor) : Char := c.peek 0

/-- Go on by one character. -/
def next (c : Cursor) : Cursor :=
  match c.rest with
  | [] => c
  | ch :: rest =>
    if isBreak ch then { rest, index := c.index + 1, line := c.line + 1, column := 0 }
    else
      { rest, index := c.index + 1, line := c.line
        column := if ch = byteOrderMark then c.column else c.column + 1 }

/-- Go on by some characters. -/
def advance : Nat → Cursor → Cursor
  | 0, c => c
  | n + 1, c => advance n c.next

/-- The characters ahead that have a property, and the place after them. -/
def span (p : Char → Bool) (c : Cursor) : Text × Cursor :=
  let run := c.rest.takeWhile p
  (run, c.advance run.length)

/-- Skip the characters ahead that have a property. -/
def skip (p : Char → Bool) (c : Cursor) : Cursor := (c.span p).2

/-- Skip blanks. -/
def skipSpaces (c : Cursor) : Cursor := c.skip (· == ' ')

/-- Skip a comment, if one starts here. -/
def skipComment (c : Cursor) : Cursor := if c.here = '#' then c.skip (!isEnd ·) else c

/-- Whether a marker between documents stands here. -/
def atMarker (c : Cursor) : Bool :=
  (c.rest.take 3 == ['-', '-', '-'] || c.rest.take 3 == ['.', '.', '.']) && isBlankOrEnd (c.peek 3)

/-- The rest of a line that may hold blanks and a comment only; none if it holds more. -/
def skipLine? (c : Cursor) : Option Cursor :=
  let c := c.skipSpaces.skipComment
  if isBreak c.here then some c.next else if isEnd c.here then some c else none

end Cursor

end DebtSurvey.Yaml
