import DebtSurvey.Text.CodePoint
import DebtSurvey.Yaml.Cursor
import DebtSurvey.Yaml.Error

/-!
# Scalars in a document

A scalar is written plain, in quotes, or as a block. Plain and quoted scalars may go over several
lines, which are folded; a block keeps its lines or folds them, as its header says.
-/

namespace DebtSurvey.Yaml

/-! ### Plain scalars -/

/-- Characters with a meaning of their own inside brackets. -/
def isFlowMark (c : Char) : Bool :=
  c == ',' || c == '[' || c == ']' || c == '\x7b' || c == '\x7d'

/-- Whether a plain scalar ends before a character, with another one after it. -/
def endsPlain (inFlow : Bool) (c next : Char) : Bool :=
  isBlankOrEnd c || (c == ':' && (isBlankOrEnd next || (inFlow && isFlowMark next))) ||
    (inFlow && (isFlowMark c || c == '?'))

/-- The part of a plain scalar up to the next blank. -/
def plainRun (inFlow : Bool) : Text → Text
  | [] => []
  | c :: rest =>
    if endsPlain inFlow c (rest.headD pastEnd) then [] else c :: plainRun inFlow rest

/-- What blanks between two parts of a scalar are in its value. -/
def gapValue (gap : Text) : Text := if gap.any isBreak then foldBreaks (breaksOf gap) else gap

/-- Whether blanks end at the start of a line, where a marker between documents stands. -/
def meetsMarker (gap : Text) (after : Cursor) : Bool := gap.getLast?.any isBreak && after.atMarker

/-- A plain scalar, the place after it and the blanks behind it, and whether these blanks hold a line
break. Lines that go on must be indented. The first argument bounds the number of parts. -/
def plainFrom (inFlow : Bool) (indent : Int) : Nat → Cursor → Text × Cursor × Bool
  | 0, c => ([], c, false)
  | fuel + 1, c =>
    let run := plainRun inFlow c.rest
    let (gap, after) := (c.advance run.length).span fun ch => ch == ' ' || isBreak ch
    let crossed := gap.any isBreak
    if gap.isEmpty || meetsMarker gap after || after.here == '#' ||
        (!inFlow && after.column < indent) || (plainRun inFlow after.rest).isEmpty then
      (run, after, crossed)
    else
      let (more, after, crossed) := plainFrom inFlow indent fuel after
      (run ++ gapValue gap ++ more, after, crossed)

/-- The plain scalar at a place. -/
def plain (inFlow : Bool) (indent : Int) (c : Cursor) : Text × Cursor × Bool :=
  plainFrom inFlow indent (c.rest.length + 1) c

/-! ### Quoted scalars -/

/-- What a letter after a backslash stands for. -/
def shortEscapes : List (Char × Char) :=
  [('0', '\x00'), ('a', '\x07'), ('b', '\x08'), ('t', '\t'), ('\t', '\t'), ('n', '\n'),
    ('v', '\x0b'), ('f', '\x0c'), ('r', '\r'), ('e', '\x1b'), (' ', ' '), ('"', '"'), ('\\', '\\'),
    ('/', '/'), ('N', '\x85'), ('_', '\xa0'), ('L', '\u2028'), ('P', '\u2029')]

/-- How many hexadecimal digits follow a letter after a backslash. -/
def escapeWidths : List (Char × Nat) := [('x', 2), ('u', 4), ('U', 8)]

/-- The value of a hexadecimal digit. -/
def hexValue? (c : Char) : Option Nat :=
  if c.isDigit then some (c.toNat - 48)
  else if 'a' ≤ c ∧ c ≤ 'f' then some (c.toNat - 87)
  else if 'A' ≤ c ∧ c ≤ 'F' then some (c.toNat - 55)
  else none

/-- The number that exactly `width` hexadecimal digits ahead spell. -/
def hexAhead? (width : Nat) (c : Cursor) : Option Nat := do
  let digits ← (c.rest.take width).mapM hexValue?
  if digits.length = width then some (digits.foldl (fun n d => 16 * n + d) 0) else none

/-- The code point of a number. -/
def codePoint (n : Nat) : Except Error CodePoint :=
  match CodePoint.ofNat? n with
  | some p => .ok p
  | none => .error (if n < Nat.pow 2 31 then .noCodePoint else .hugeCodePoint)

/-- Blanks inside quotes. -/
def isQuotedBlank (c : Char) : Bool := c == ' ' || c == '\t' || isBreak c

/-- What an escape stands for, from the place after its backslash. A line break after a backslash is
dropped with the blanks behind it, but further line breaks stay. -/
def escape (c : Cursor) : Except Error (DocText × Cursor) :=
  match shortEscapes.lookup c.here, escapeWidths.lookup c.here with
  | some ch, _ => .ok ([.scalar ch], c.next)
  | none, some width =>
    match hexAhead? width c.next with
    | none => .error .malformed
    | some n => (codePoint n).map fun p => ([p], c.next.advance width)
  | none, none =>
    if isBreak c.here then
      let (gap, after) := c.span isQuotedBlank
      if meetsMarker gap after then .error .malformed
      else .ok (DocText.ofText ((breaksOf gap).drop 1), after)
    else .error .malformed

/-- The rest of a quoted scalar and the place after its closing quote. In single quotes a quote is
written twice; in double quotes a backslash starts an escape. The first argument bounds the number of
parts. -/
def quotedFrom (double : Bool) : Nat → Cursor → Except Error (DocText × Cursor)
  | 0, _ => .error .malformed
  | fuel + 1, c => do
    let ch := c.here
    if ch = pastEnd then throw .malformed
    if double ∧ ch = '"' then return ([], c.next)
    if !double ∧ ch = '\'' ∧ c.peek 1 ≠ '\'' then return ([], c.next)
    let (value, after) ←
      if !double ∧ ch = '\'' then pure (DocText.ofText ['\''], c.advance 2)
      else if double ∧ ch = '\\' then escape c.next
      else if isQuotedBlank ch then
        let (gap, after) := c.span isQuotedBlank
        if meetsMarker gap after then throw .malformed else pure (DocText.ofText (gapValue gap), after)
      else pure ([.scalar ch], c.next)
    let (more, after) ← quotedFrom double fuel after
    return (value ++ more, after)

/-- The quoted scalar at a place. -/
def quoted (double : Bool) (c : Cursor) : Except Error (DocText × Cursor) :=
  quotedFrom double (c.rest.length + 1) c.next

/-! ### Block scalars -/

/-- What becomes of the line breaks at the end of a block. -/
inductive Chomping where
  /-- The last line keeps its break. -/
  | clip
  /-- All breaks stay. -/
  | keep
  /-- No break stays. -/
  | strip
deriving DecidableEq, Repr

/-- The header of a block. -/
structure BlockHeader where
  /-- What becomes of the line breaks at the end. -/
  chomping : Chomping := .clip
  /-- How much deeper than its surroundings the block is indented, if that is given. -/
  increment : Option Nat := none

/-- The chomping that a mark stands for. -/
def chompingOf? (c : Char) : Option Chomping :=
  if c = '+' then some .keep else if c = '-' then some .strip else none

/-- The increment that a digit stands for, at least one. -/
def incrementOf? (c : Char) : Option Nat :=
  if c.isDigit ∧ c ≠ '0' then some (c.toNat - 48) else none

/-- Read the header of a block: a mark and a digit, each at most once, in either order. A zero and
anything else but a blank or the end of the line is refused. -/
def blockHeader (c : Cursor) : Except Error (BlockHeader × Cursor) :=
  let (header, c) : BlockHeader × Cursor :=
    match chompingOf? c.here, incrementOf? c.here with
    | some chomping, _ =>
      match incrementOf? c.next.here with
      | some n => (⟨chomping, some n⟩, c.next.next)
      | none => (⟨chomping, none⟩, c.next)
    | none, some n =>
      match chompingOf? c.next.here with
      | some chomping => (⟨chomping, some n⟩, c.next.next)
      | none => (⟨.clip, some n⟩, c.next)
    | none, none => ({}, c)
  if isSpaceOrEnd c.here then .ok (header, c) else .error .malformed

/-- Skip blanks up to a column. -/
def skipIndent (indent : Nat) (c : Cursor) : Cursor :=
  c.advance (min (indent - c.column) (c.rest.takeWhile (· == ' ')).length)

/-- The breaks of empty lines ahead, and the place after them, with blanks up to a column skipped. The
first argument bounds the number of lines. -/
def emptyLines (indent : Nat) : Nat → Cursor → Text × Cursor
  | 0, c => ([], c)
  | fuel + 1, c =>
    let c := skipIndent indent c
    if isBreak c.here then
      let (breaks, after) := emptyLines indent fuel c.next
      (breakValue c.here :: breaks, after)
    else ([], c)

/-- The greatest column among blanks ahead. -/
def deepest (column : Nat) : Text → Nat
  | [] => 0
  | c :: rest => if isBreak c then deepest 0 rest else max (column + 1) (deepest (column + 1) rest)

/-- The lines of a block from a place on: their value, the break of the last one, the empty lines
after it, and the place where they end. A fold turns the break between two lines into a blank unless
one of them starts with a blank or empty lines follow. The first argument bounds the number of
lines. -/
def blockLines (folded : Bool) (indent : Nat) : Nat → Cursor → Text × Text × Text × Cursor
  | 0, c => ([], [], [], c)
  | fuel + 1, c =>
    let leadsBlank := c.here == ' ' || c.here == '\t'
    let (content, after) := c.span (!isEnd ·)
    let lineBreak := if isBreak after.here then [breakValue after.here] else []
    let after := if isBreak after.here then after.next else after
    let (breaks, after) := emptyLines indent (after.rest.length + 1) after
    if after.column = indent ∧ after.here ≠ pastEnd then
      let joint :=
        if folded && lineBreak == ['\n'] && !leadsBlank && !(after.here == ' ' || after.here == '\t')
        then if breaks.isEmpty then [' '] else []
        else lineBreak
      let (more, lastBreak, lastBreaks, after) := blockLines folded indent fuel after
      (content ++ joint ++ breaks ++ more, lastBreak, lastBreaks, after)
    else (content, lineBreak, breaks, after)

/-- The block scalar at a place in surroundings of some indentation, and the place after it. -/
def block (folded : Bool) (surrounding : Int) (c : Cursor) : Except Error (Text × Cursor) := do
  let (header, c) ← blockHeader c.next
  match c.skipLine? with
  | none => throw .malformed
  | some c =>
    let least := (max (surrounding + 1) 1).toNat
    let (indent, breaks, c) : Nat × Text × Cursor :=
      match header.increment with
      | some n =>
        let indent := least + n - 1
        (indent, emptyLines indent (c.rest.length + 1) c)
      | none =>
        let (gap, after) := c.span fun ch => ch == ' ' || isBreak ch
        (max least (deepest c.column gap), breaksOf gap, after)
    let (value, lastBreak, lastBreaks, after) :=
      if c.column = indent ∧ c.here ≠ pastEnd then
        let (value, lastBreak, lastBreaks, after) := blockLines folded indent (c.rest.length + 1) c
        (breaks ++ value, lastBreak, lastBreaks, after)
      else ([], [], breaks, c)
    let tail :=
      match header.chomping with
      | .strip => []
      | .clip => lastBreak
      | .keep => lastBreak ++ lastBreaks
    return (value ++ tail, after)

end DebtSurvey.Yaml
