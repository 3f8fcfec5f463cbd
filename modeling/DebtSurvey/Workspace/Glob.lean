import DebtSurvey.Text.Blank

/-!
# Ignore patterns

A line of an ignore file is a pattern for paths relative to the workspace. Its segments are globs; a
segment of two stars stands for any directories. Patterns are compiled to a list of pieces, and a
path matches when the pieces match a beginning of it that ends at a slash or at its end.

Discovery asks a `Dialect` how lines are read and which paths are dropped. The dialect at hand is
that of Git, made of `Pattern.parse`, which reads a line, and `Pattern.drop`.
-/

namespace DebtSurvey.Glob

/-- A piece of a compiled pattern. -/
inductive Piece where
  /-- A character. -/
  | char (c : Char)
  /-- Any character but a slash. -/
  | anyChar
  /-- Any characters but slashes, perhaps none. -/
  | run
  /-- One or more characters but slashes. -/
  | someRun
  /-- A character inside, or outside, of some ranges of code points. -/
  | set (negated : Bool) (ranges : List (Nat × Nat))
  /-- At the start: nothing, or directories with a slash after them. -/
  | leadingDirs
  /-- Between segments: nothing, or a slash with anything after it. -/
  | innerDirs
  /-- A slash, or the end of the path. -/
  | boundary
deriving DecidableEq, Repr

/-- Why a line is no pattern. -/
inductive PatternError where
  /-- Nothing is left of the pattern. -/
  | empty
  /-- A backslash with nothing after it. -/
  | loneBackslash
  /-- A range whose ends are the wrong way round. -/
  | reversedRange
deriving DecidableEq, Repr

/-- Whether what follows some characters of a class, perhaps none, satisfies a condition. -/
def afterRun (inClass : Char → Bool) (next : Text → Bool) : Text → Bool
  | [] => next []
  | c :: rest => next (c :: rest) || (inClass c && afterRun inClass next rest)

/-- The same with at least one character of the class. -/
def afterSome (inClass : Char → Bool) (next : Text → Bool) : Text → Bool
  | [] => false
  | c :: rest => inClass c && afterRun inClass next rest

/-- Whether a slash comes first and what follows it satisfies a condition. -/
def afterSlash (next : Text → Bool) : Text → Bool
  | '/' :: rest => next rest
  | _ => false

/-- Whether a set holds a character. -/
def inSet (negated : Bool) (ranges : List (Nat × Nat)) (c : Char) : Bool :=
  (ranges.any fun (first, last) => first ≤ c.toNat && c.toNat ≤ last) != negated

/-- Whether the pieces match a beginning of a text. A newline at the very end of a text still counts
as its end, and directories hold no newline. -/
def matchPieces : List Piece → Text → Bool
  | [], _ => true
  | .char a :: pieces, t =>
    match t with
    | c :: rest => c == a && matchPieces pieces rest
    | [] => false
  | .anyChar :: pieces, t =>
    match t with
    | c :: rest => c != '/' && matchPieces pieces rest
    | [] => false
  | .set negated ranges :: pieces, t =>
    match t with
    | c :: rest => inSet negated ranges c && matchPieces pieces rest
    | [] => false
  | .run :: pieces, t => afterRun (· != '/') (matchPieces pieces) t
  | .someRun :: pieces, t => afterSome (· != '/') (matchPieces pieces) t
  | .leadingDirs :: pieces, t =>
    afterSome (· != '\n') (afterSlash (matchPieces pieces)) t || matchPieces pieces t
  | .innerDirs :: pieces, t =>
    afterSlash (afterSome (· != '\n') (matchPieces pieces)) t || matchPieces pieces t
  | .boundary :: pieces, t =>
    match t with
    | [] => matchPieces pieces []
    | '/' :: rest => matchPieces pieces rest
    -- The end stands before a final newline too, which is left where it is.
    | _ => t == ['\n'] && matchPieces pieces t

/-- The ranges of the inside of a bracket expression; a dash at its end stands for itself. -/
def readSet : Text → List (Nat × Nat)
  | [] => []
  | [a] => [(a.toNat, a.toNat)]
  | [a, b] => [(a.toNat, a.toNat), (b.toNat, b.toNat)]
  | a :: b :: c :: rest =>
    if b = '-' then (a.toNat, c.toNat) :: readSet rest
    else (a.toNat, a.toNat) :: readSet (b :: c :: rest)

/-- Whether a piece has a range whose ends are the wrong way round. -/
def Piece.isReversed : Piece → Bool
  | .set _ ranges => ranges.any fun (first, last) => last < first
  | _ => false

/-- The negation that a bracket expression may start with. -/
def takeNegation (t : Text) : Bool × Text :=
  match t with
  | '!' :: rest => (true, rest)
  | '^' :: rest => (true, rest)
  | _ => (false, t)

/-- A closing bracket that comes first and so stands for itself. -/
def takeOpening (t : Text) : Text × Text :=
  match t with
  | ']' :: rest => ([']'], rest)
  | _ => ([], t)

/-- Cut a bracket expression, from after its opening bracket, at its closing bracket: whether it is
negated, its inside, and the text after it. -/
def cutBracket? (t : Text) : Option (Bool × Text × Text) :=
  let (negated, t) := takeNegation t
  let (opening, t) := takeOpening t
  match t.dropWhile (· ≠ ']') with
  | [] => none
  | _ :: after => some (negated, opening ++ t.takeWhile (· ≠ ']'), after)

theorem length_takeNegation_le (t : Text) : (takeNegation t).2.length ≤ t.length := by
  unfold takeNegation
  split <;> simp

theorem length_takeOpening_le (t : Text) : (takeOpening t).2.length ≤ t.length := by
  unfold takeOpening
  split <;> simp

/-- The text after a bracket expression is shorter than the text before it. -/
theorem length_cutBracket {t : Text} {negated : Bool} {inside after : Text}
    (h : cutBracket? t = some (negated, inside, after)) : after.length < t.length := by
  simp only [cutBracket?] at h
  split at h
  · simp at h
  · rename_i c rest hs
    simp only [Option.some.injEq, Prod.mk.injEq] at h
    have hle := (List.dropWhile_sublist (l := (takeOpening (takeNegation t).2).2) (· ≠ ']')).length_le
    rw [hs, List.length_cons, h.2.2] at hle
    have h1 := length_takeOpening_le (takeNegation t).2
    have h2 := length_takeNegation_le t
    omega

/-- The pieces of a glob segment; none where a bracket is never closed, which disables the pattern. -/
def readSegment (t : Text) : Except PatternError (Option (List Piece)) :=
  match t with
  | [] => .ok (some [])
  | '\\' :: rest =>
    match rest with
    | [] => .error .loneBackslash
    | c :: rest => do return (← readSegment rest).map (.char c :: ·)
  | '*' :: rest => do return (← readSegment rest).map (.run :: ·)
  | '?' :: rest => do return (← readSegment rest).map (.anyChar :: ·)
  | '[' :: rest =>
    match h : cutBracket? rest with
    | none => .ok none
    | some (negated, inside, after) => do
      have : after.length < rest.length := length_cutBracket h
      return (← readSegment after).map (.set negated (readSet inside) :: ·)
  | c :: rest => do return (← readSegment rest).map (.char c :: ·)
termination_by t.length
decreasing_by all_goals simp only [List.length_cons]; omega

/-- A segment of two stars. -/
def isDeep (segment : Text) : Bool := segment == ['*', '*']

/-- Of neighbouring segments of two stars keep one. -/
def collapseDeep : List Text → List Text
  | a :: b :: rest =>
    if isDeep a && isDeep b then collapseDeep (b :: rest) else a :: collapseDeep (b :: rest)
  | segments => segments

/-- The pieces of the segments after the first place; `slash` says whether a slash is due before the
next segment. -/
def readSegments (slash : Bool) : List Text → Except PatternError (Option (List Piece))
  | [] => .ok (some [])
  | segment :: rest => do
    if isDeep segment then
      if rest.isEmpty then return some [.char '/']
      return (← readSegments true rest).map (.innerDirs :: ·)
    else
      match ← (if segment = ['*'] then pure (some [.someRun]) else readSegment segment) with
      | none => return none
      | some pieces =>
        let pieces := if slash then .char '/' :: pieces else pieces
        if rest.isEmpty then return some (pieces ++ [.boundary])
        return (← readSegments true rest).map (pieces ++ ·)

/-- Matches every path that leads into a directory. -/
def insideDirectory : List Piece := [.someRun, .char '/']

/-- The pieces of normalised segments; `directory` says whether the pattern ended in a slash. -/
def compile (directory : Bool) (segments : List Text) : Except PatternError (Option (List Piece)) :=
  match segments with
  | [] => .error .empty
  -- Patterns of stars alone match every path, or every path with a directory.
  | [['*', '*']] => .ok (some (if directory then insideDirectory else []))
  | [['*', '*'], ['*']] => .ok (some [])
  | [['*', '*'], ['*'], ['*', '*']] => .ok (some insideDirectory)
  | ['*', '*'] :: rest => do return (← readSegments false rest).map (.leadingDirs :: ·)
  | segments => readSegments false segments

/-- The segments of a pattern in normal form: anchored ones lose their empty start, a single one may
stand at any depth, and an empty end stands for everything below. -/
def normalSegments (segments : List Text) : List Text :=
  let placed :=
    match segments with
    | [] :: rest => rest
    | [a] => if isDeep a then [a] else [['*', '*'], a]
    | [a, []] => if isDeep a then [a, []] else [['*', '*'], a, []]
    | _ => segments
  -- An empty end is what a slash at the end of the line leaves.
  let ended := if placed.getLast? = some [] then placed.dropLast ++ [['*', '*']] else placed
  collapseDeep ended

/-- A compiled pattern. -/
structure Pattern where
  /-- Whether it takes paths back in. -/
  negated : Bool
  /-- What it matches. -/
  pieces : List Piece
deriving DecidableEq, Repr

/-- The text of a line that counts: blanks at its end do not, unless the line ends in a backslash
and a blank. -/
def trimLine (line : Text) : Text :=
  if ['\\', ' '].isSuffixOf line then line else Text.trimEnd line

/-- The pattern of a line, if it has one: empty lines and comments have none. Only a pattern that is
not disabled is checked for reversed ranges. -/
def Pattern.parse (line : Text) : Except PatternError (Option Pattern) := do
  let line := trimLine line
  match line with
  | [] => return none
  | '#' :: _ => return none
  | ['/'] => return none
  | c :: rest =>
    let negated := c == '!'
    let segments := Text.splitOn '/' (if negated then rest else line)
    match ← compile (segments.getLast? == some []) (normalSegments segments) with
    | none => return none
    | some pieces =>
      if pieces.any Piece.isReversed then throw .reversedRange
      return some ⟨negated, pieces⟩

/-- Whether a pattern matches a path. -/
def Pattern.matches (p : Pattern) (path : Text) : Bool := matchPieces p.pieces path

/-- Whether a list of patterns drops a path: the last pattern that matches decides. -/
def Pattern.drop (patterns : List Pattern) (path : Text) : Bool :=
  match patterns.reverse.find? (·.matches path) with
  | some p => !p.negated
  | none => false

/-- A dialect of patterns. -/
class Dialect where
  /-- A pattern that has been read. -/
  Compiled : Type
  /-- Read a line; it may have no pattern. -/
  read : Text → Except PatternError (Option Compiled)
  /-- Whether the patterns of some lines, in their order, drop a path. -/
  drops : List Compiled → Text → Bool

/-- The patterns of Git. -/
instance : Dialect where
  Compiled := Pattern
  read := Pattern.parse
  drops := Pattern.drop

variable [Dialect]

/-- The patterns of some lines. -/
def parseLines (lines : List Text) : Except PatternError (List Dialect.Compiled) := do
  return (← lines.mapM Dialect.read).filterMap id

end DebtSurvey.Glob
