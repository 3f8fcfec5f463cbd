import DebtSurvey.Yaml.Token

/-!
# Reading tokens

Tokens are read from the front. A colon may turn out to make a key of what stands before it on its
line, so the place of the last possible key is remembered at every depth of brackets, and the token
that announces the key is put in later. Outside brackets, columns open and close blocks.
-/

namespace DebtSurvey.Yaml

/-- A place at which a key may have started. -/
structure PossibleKey where
  /-- The number of tokens before it. -/
  place : Nat
  /-- Whether it must be a key, as it starts a line of a mapping. -/
  isRequired : Bool
  /-- The number of characters before it. -/
  index : Nat
  /-- Its line. -/
  line : Nat
  /-- Its column. -/
  column : Nat
deriving Repr, Inhabited

/-- How far the tokens of a document have been read. -/
structure Lexer where
  /-- The place in the document. -/
  cursor : Cursor
  /-- How many brackets are open. -/
  depth : Nat := 0
  /-- The tokens read, the last one first. -/
  tokens : List Token := []
  /-- The column of the innermost block. -/
  indent : Int := -1
  /-- The columns of the blocks around it, the innermost first. -/
  outer : List Int := []
  /-- Whether a key may start here. -/
  allowsKey : Bool := true
  /-- Where keys may have started, by the number of brackets open there. -/
  keys : List (Nat × PossibleKey) := []
  /-- Whether the end has been read. -/
  isDone : Bool := false
deriving Inhabited

namespace Lexer

/-- The longest stretch of characters between the start of a key and its colon. -/
def keyReach : Nat := 1024

/-- Whether the place is inside brackets. -/
def inFlow (l : Lexer) : Bool := l.depth != 0

/-- Read a token. -/
def emit (token : Token) (l : Lexer) : Lexer := { l with tokens := token :: l.tokens }

/-- Read a token that ends at a place. -/
def emitTo (token : Token) (after : Cursor) (l : Lexer) : Lexer :=
  { l with tokens := token :: l.tokens, cursor := after }

/-- Put in a token after a number of tokens. -/
def insertAt (place : Nat) (token : Token) (l : Lexer) : Lexer :=
  { l with tokens := l.tokens.insertIdx (l.tokens.length - place) token }

/-- Say whether a key may start after what is read next. -/
def allowKey (allowed : Bool) (l : Lexer) : Lexer := { l with allowsKey := allowed }

/-- Open a block at a column, if that is deeper than the innermost block. -/
def openBlock? (column : Nat) (l : Lexer) : Option Lexer :=
  if l.indent < column then some { l with indent := column, outer := l.indent :: l.outer } else none

/-- Close the blocks that are deeper than a column: the tokens, the column of the innermost block
that is left, and the blocks around it. -/
def closing (column : Int) (tokens : List Token) (indent : Int) :
    List Int → List Token × Int × List Int
  | [] => (tokens, indent, [])
  | next :: outer =>
    if column < indent then closing column (.blockEnd :: tokens) next outer
    else (tokens, indent, next :: outer)

/-- Close the blocks that are deeper than a column. Inside brackets, columns do not matter. -/
def closeBlocks (column : Int) (l : Lexer) : Lexer :=
  if l.inFlow then l
  else
    let (tokens, indent, outer) := closing column l.tokens l.indent l.outer
    { l with tokens, indent, outer }

/-- Give up the possible key at the present depth; a required one cannot be given up. -/
def dropKey (l : Lexer) : Except Error Lexer :=
  match l.keys.lookup l.depth with
  | none => .ok l
  | some key =>
    if key.isRequired then .error .malformed
    else .ok { l with keys := l.keys.filter (·.1 ≠ l.depth) }

/-- Whether a possible key is out of reach: on another line or too far back. -/
def isStale (key : PossibleKey) (l : Lexer) : Bool :=
  key.line != l.cursor.line || keyReach < l.cursor.index - key.index

/-- Give up the possible keys that are out of reach. -/
def dropStale (l : Lexer) : Except Error Lexer :=
  if l.keys.any fun (_, key) => isStale key l && key.isRequired then .error .malformed
  else .ok { l with keys := l.keys.filter fun (_, key) => !isStale key l }

/-- Remember that a key may start here. -/
def saveKey (l : Lexer) : Except Error Lexer :=
  if l.allowsKey then do
    let c := l.cursor
    let key : PossibleKey :=
      ⟨l.tokens.length, !l.inFlow && l.indent == c.column, c.index, c.line, c.column⟩
    let l ← l.dropKey
    return { l with keys := (l.depth, key) :: l.keys }
  else .ok l

/-- Skip blanks, comments and line breaks up to the next token. Outside brackets, a key may start on
a new line. The first argument bounds the number of lines. -/
def skipToToken : Nat → Lexer → Lexer
  | 0, l => l
  | fuel + 1, l =>
    let c := l.cursor.skipSpaces.skipComment
    if isBreak c.here then
      skipToToken fuel { l with cursor := c.next, allowsKey := l.allowsKey || !l.inFlow }
    else { l with cursor := c }

/-- Read the end of all documents. -/
def readEnd (l : Lexer) : Except Error Lexer := do
  let l ← (l.closeBlocks (-1)).dropKey
  return { l.emit .streamEnd with allowsKey := false, keys := [], isDone := true }

/-- Leave all blocks before something that stands between documents. -/
def leaveBlocks (l : Lexer) : Except Error Lexer := do
  return (← (l.closeBlocks (-1)).dropKey).allowKey false

/-- Read a directive. -/
def readDirective (l : Lexer) : Except Error Lexer := do
  let l ← l.leaveBlocks
  let (token, after) ← Token.directiveAt l.cursor
  return l.emitTo token after

/-- Read a marker between documents. -/
def readMarker (token : Token) (l : Lexer) : Except Error Lexer := do
  let l ← l.leaveBlocks
  return l.emitTo token (l.cursor.advance 3)

/-- Read an opening bracket or brace. -/
def readOpening (token : Token) (l : Lexer) : Except Error Lexer := do
  let l ← l.saveKey
  return { (l.allowKey true).emitTo token l.cursor.next with depth := l.depth + 1 }

/-- Read a closing bracket or brace; one that closes nothing is refused. -/
def readClosing (token : Token) (l : Lexer) : Except Error Lexer := do
  let l ← l.dropKey
  match l.depth with
  | 0 => throw .malformed
  | depth + 1 => return { (l.allowKey false).emitTo token l.cursor.next with depth }

/-- Read a comma. -/
def readComma (l : Lexer) : Except Error Lexer := do
  let l ← (l.allowKey true).dropKey
  return l.emitTo .flowEntry l.cursor.next

/-- Open a block at the present column, if it is deeper, with a token. -/
def startBlock (token : Token) (l : Lexer) : Except Error Lexer :=
  if l.inFlow then .ok l
  else if l.allowsKey then
    match l.openBlock? l.cursor.column with
    | some l => .ok (l.emit token)
    | none => .ok l
  else .error .malformed

/-- Read the dash before an item. -/
def readDash (l : Lexer) : Except Error Lexer := do
  let l ← l.startBlock .blockSequenceStart
  let l ← (l.allowKey true).dropKey
  return l.emitTo .blockEntry l.cursor.next

/-- Read the mark of a key. -/
def readKeyMark (l : Lexer) : Except Error Lexer := do
  let l ← l.startBlock .blockMappingStart
  let l ← (l.allowKey !l.inFlow).dropKey
  return l.emitTo .key l.cursor.next

/-- Turn what started at a possible key into a key. -/
def confirmKey (key : PossibleKey) (l : Lexer) : Lexer :=
  let l := { l with keys := l.keys.filter (·.1 ≠ l.depth) }
  -- The block goes in after the mark of its first key, and so stands before it.
  let l := l.insertAt key.place .key
  let l :=
    if l.inFlow then l
    else
      match l.openBlock? key.column with
      | some l => l.insertAt key.place .blockMappingStart
      | none => l
  l.allowKey false

/-- Read a colon. -/
def readColon (l : Lexer) : Except Error Lexer := do
  match l.keys.lookup l.depth with
  | some key =>
    let l := l.confirmKey key
    return l.emitTo .value l.cursor.next
  | none =>
    let l ← l.startBlock .blockMappingStart
    let l ← (l.allowKey !l.inFlow).dropKey
    return l.emitTo .value l.cursor.next

/-- Read something that may start a key. -/
def readInline (read : Cursor → Except Error (Token × Cursor)) (l : Lexer) :
    Except Error Lexer := do
  let l ← l.saveKey
  let (token, after) ← read l.cursor
  return (l.allowKey false).emitTo token after

/-- Read a block scalar. -/
def readBlock (folded : Bool) (l : Lexer) : Except Error Lexer := do
  let l ← (l.allowKey true).dropKey
  let (value, after) ← block folded l.indent l.cursor
  return l.emitTo (.scalar false (DocText.ofText value)) after

/-- Read a plain scalar. -/
def readPlain (l : Lexer) : Except Error Lexer := do
  let l ← l.saveKey
  let (value, after, crossed) := plain l.inFlow (l.indent + 1) l.cursor
  return (l.allowKey crossed).emitTo (.scalar true (DocText.ofText value)) after

/-- Characters that a plain scalar cannot start with, or only before some others. -/
def isIndicator (c : Char) : Bool :=
  isFlowMark c || c == '-' || c == '?' || c == ':' || c == '#' || c == '&' || c == '*' ||
    c == '!' || c == '|' || c == '>' || c == '\'' || c == '"' || c == '%' || c == '@' || c == '\x60'

/-- Whether a plain scalar starts at a place. -/
def startsPlain (l : Lexer) : Bool :=
  let c := l.cursor.here
  (!isBlankOrEnd c && !isIndicator c) ||
    (!isBlankOrEnd (l.cursor.peek 1) && (c == '-' || (!l.inFlow && (c == '?' || c == ':'))))

/-- Read the token at a place. -/
def readToken (l : Lexer) : Except Error Lexer :=
  let c := l.cursor
  let blankNext := isBlankOrEnd (c.peek 1)
  let marker := c.column == 0 && c.atMarker
  -- Directives and markers count at the start of a line only, and before any other reading.
  if c.here = pastEnd then l.readEnd
  else if c.here = '%' && c.column == 0 then l.readDirective
  else if c.here = '-' && marker then l.readMarker .documentStart
  else if c.here = '.' && marker then l.readMarker .documentEnd
  else if c.here = '[' then l.readOpening .flowSequenceStart
  else if c.here = '\x7b' then l.readOpening .flowMappingStart
  else if c.here = ']' then l.readClosing .flowSequenceEnd
  else if c.here = '\x7d' then l.readClosing .flowMappingEnd
  else if c.here = ',' then l.readComma
  else if c.here = '-' && blankNext then l.readDash
  else if c.here = '?' && (l.inFlow || blankNext) then l.readKeyMark
  else if c.here = ':' && (l.inFlow || blankNext) then l.readColon
  else if c.here = '*' then
    l.readInline fun c => (Token.anchorName c).map fun (name, after) => (.alias name, after)
  else if c.here = '&' then
    l.readInline fun c => (Token.anchorName c).map fun (name, after) => (.anchor name, after)
  else if c.here = '!' then l.readInline Token.tagAt
  else if c.here = '|' && !l.inFlow then l.readBlock false
  else if c.here = '>' && !l.inFlow then l.readBlock true
  else if c.here = '\'' then
    l.readInline fun c => (quoted false c).map fun (value, after) => (.scalar false value, after)
  else if c.here = '"' then
    l.readInline fun c => (quoted true c).map fun (value, after) => (.scalar false value, after)
  else if l.startsPlain then l.readPlain
  else .error .malformed

/-- Go on to the next token and read it. -/
def step (l : Lexer) : Except Error Lexer := do
  let l ← (skipToToken (l.cursor.rest.length + 1) l).dropStale
  (l.closeBlocks l.cursor.column).readToken

/-- The tokens up to the first one that may still turn out to be a key. -/
def settled (l : Lexer) : List Token :=
  -- Keys that are out of reach but not yet given up hold nothing back.
  let pending := (l.keys.filter fun (_, key) => !isStale key l).map fun (_, key) => key.place
  l.tokens.reverse.take (pending.foldl min l.tokens.length)

/-- Read all tokens, the first argument bounding their number. Where no token can be read, nothing
that may still be a key counts as read. -/
def run : Nat → Lexer → List Token
  | 0, l => l.settled ++ [.broken .malformed]
  | fuel + 1, l =>
    match l.step with
    | .error cause => l.settled ++ [.broken cause]
    | .ok l => if l.isDone then l.tokens.reverse else run fuel l

end Lexer

/-- The tokens of a document. A byte order mark at its start is passed over. -/
def Token.ofText (t : Text) : List Token :=
  let start : Cursor := { rest := t }
  let start := if start.here = byteOrderMark then start.next else start
  Lexer.run (t.length + 2) { cursor := start }

end DebtSurvey.Yaml
