import DebtSurvey.Text.Utf8
import DebtSurvey.Yaml.Scalar

/-!
# Tokens of a document

The tokens of a document make its indentation explicit: where a nested block starts and ends there
is a token. Directives, anchors and tags are tokens of their own. A place where no token can be read
ends the tokens with a token that holds the cause.
-/

namespace DebtSurvey.Yaml

/-- A token of a document. -/
inductive Token where
  /-- A directive that names a version. -/
  | version (major : Nat)
  /-- A directive that gives a tag handle its meaning. -/
  | handle (name meaning : Text)
  /-- Any other directive. -/
  | directive
  /-- The start of a document. -/
  | documentStart
  /-- The end of a document. -/
  | documentEnd
  /-- The end of all documents. -/
  | streamEnd
  /-- The start of a block sequence. -/
  | blockSequenceStart
  /-- The start of a block mapping. -/
  | blockMappingStart
  /-- The end of a block sequence or mapping. -/
  | blockEnd
  /-- An opening bracket. -/
  | flowSequenceStart
  /-- A closing bracket. -/
  | flowSequenceEnd
  /-- An opening brace. -/
  | flowMappingStart
  /-- A closing brace. -/
  | flowMappingEnd
  /-- A comma. -/
  | flowEntry
  /-- A dash before an item. -/
  | blockEntry
  /-- The start of a key. -/
  | key
  /-- The start of a value. -/
  | value
  /-- A reference to an anchor. -/
  | alias (name : Text)
  /-- An anchor. -/
  | anchor (name : Text)
  /-- A tag: a handle, if it has one, and the rest of its name. -/
  | tag (handle : Option Text) (suffix : Text)
  /-- A scalar, plain or not. -/
  | scalar (isPlain : Bool) (value : DocText)
  /-- No token can be read here. -/
  | broken (cause : Error)
deriving DecidableEq, Repr, Inhabited

namespace Token

/-! ### Anchors and tags -/

/-- Characters that may follow an anchor. -/
def endsAnchor (c : Char) : Bool :=
  isBlankOrEnd c || c == '?' || c == ':' || c == ',' || c == ']' || c == '\x7d' || c == '%' ||
    c == '@' || c == '\x60'

/-- The name behind the mark of an anchor or alias. -/
def anchorName (c : Cursor) : Except Error (Text × Cursor) :=
  let (name, after) := c.next.span isNameChar
  if name.isEmpty || !endsAnchor after.here then .error .malformed else .ok (name, after)

/-- Characters of a tag's name that stand for themselves. -/
def isTagChar (c : Char) : Bool :=
  c.isAlphanum || c == '-' || c == ';' || c == '/' || c == '?' || c == ':' || c == '@' ||
    c == '&' || c == '=' || c == '+' || c == '$' || c == ',' || c == '_' || c == '.' ||
    c == '!' || c == '~' || c == '*' || c == '\'' || c == '(' || c == ')' || c == '[' || c == ']'

/-- The bytes that percent escapes ahead spell, and the place after them. -/
def percentBytes : Nat → Cursor → Except Error (List UInt8 × Cursor)
  | 0, c => .ok ([], c)
  | fuel + 1, c =>
    if c.here = '%' then
      match hexAhead? 2 c.next with
      | none => .error .malformed
      | some n => do
        let (bytes, after) ← percentBytes fuel (c.next.advance 2)
        return (UInt8.ofNat n :: bytes, after)
    else .ok ([], c)

/-- The name of a tag, with escapes resolved. The first argument bounds the number of parts. -/
def tagNameFrom : Nat → Cursor → Except Error (Text × Cursor)
  | 0, c => .ok ([], c)
  | fuel + 1, c => do
    let (run, after) := c.span isTagChar
    if after.here = '%' then
      let (bytes, after) ← percentBytes (after.rest.length + 1) after
      match Text.Utf8.decode? bytes with
      | none => throw .malformed
      | some escaped =>
        let (more, after) ← tagNameFrom fuel after
        return (run ++ escaped ++ more, after)
    else return (run, after)

/-- The name of a tag, which must not be missing. -/
def tagName (c : Cursor) : Except Error (Text × Cursor) :=
  if isTagChar c.here || c.here == '%' then tagNameFrom (c.rest.length + 1) c
  else .error .malformed

/-- A tag handle: an exclamation mark, or a name between two. -/
def tagHandle (c : Cursor) : Except Error (Text × Cursor) :=
  if c.here ≠ '!' then .error .malformed
  else if c.next.here = ' ' then .ok (['!'], c.next)
  else
    let (name, after) := c.next.span isNameChar
    if after.here = '!' then .ok ('!' :: name ++ ['!'], after.next) else .error .malformed

/-- The tag at a place: in angle brackets, a lone exclamation mark, or a handle and a name. -/
def tagAt (c : Cursor) : Except Error (Token × Cursor) := do
  let (token, after) ←
    if c.next.here = '<' then
      let (name, after) ← tagName (c.advance 2)
      if after.here = '>' then pure (Token.tag none name, after.next) else throw .malformed
    else if isBlankOrEnd c.next.here then pure (Token.tag none ['!'], c.next)
    else
      let ahead := (c.next.span (!isSpaceOrEnd ·)).1
      let (mark, after) ← if ahead.contains '!' then tagHandle c else pure (['!'], c.next)
      let (name, after) ← tagName after
      pure (Token.tag (some mark) name, after)
  if isSpaceOrEnd after.here then return (token, after) else throw .malformed

/-! ### Directives -/

/-- The number at a place. -/
def versionNumber (c : Cursor) : Except Error (Nat × Cursor) :=
  let (digits, after) := c.span Char.isDigit
  if digits.isEmpty then .error .malformed
  else .ok (digits.foldl (fun n d => 10 * n + (d.toNat - 48)) 0, after)

/-- The two numbers of a version. -/
def versionAt (c : Cursor) : Except Error (Token × Cursor) := do
  let (major, after) ← versionNumber c.skipSpaces
  if after.here ≠ '.' then throw .malformed
  let (_, after) ← versionNumber after.next
  if isSpaceOrEnd after.here then return (.version major, after) else throw .malformed

/-- The handle and the meaning of a tag directive. -/
def handleAt (c : Cursor) : Except Error (Token × Cursor) := do
  let (name, after) ← tagHandle c.skipSpaces
  if after.here ≠ ' ' then throw .malformed
  let (meaning, after) ← tagName after.skipSpaces
  if isSpaceOrEnd after.here then return (.handle name meaning, after) else throw .malformed

/-- The directive at a place, and the place after its line. -/
def directiveAt (c : Cursor) : Except Error (Token × Cursor) := do
  let (name, after) := c.next.span isNameChar
  if name.isEmpty || !isSpaceOrEnd after.here then throw .malformed
  let (token, after) ←
    if name = Text.ofString "YAML" then versionAt after
    else if name = Text.ofString "TAG" then handleAt after
    else pure (.directive, after.skip (!isEnd ·))
  match after.skipLine? with
  | some after => return (token, after)
  | none => throw .malformed

end Token

end DebtSurvey.Yaml
