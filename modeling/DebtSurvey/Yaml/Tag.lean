import DebtSurvey.Text.CodePoint
import DebtSurvey.Yaml.Number
import DebtSurvey.Yaml.Timestamp

/-!
# Tags

A tag says what a node denotes. A node without one is tagged by its form; for a plain scalar the
form of its text decides, by the rules of YAML 1.1.
-/

namespace DebtSurvey.Yaml

/-- What a node denotes. -/
inductive Tag where
  /-- No value. -/
  | null
  /-- A truth value. -/
  | bool
  /-- An integer. -/
  | int
  /-- A floating point number. -/
  | float
  /-- Bytes in base 64. -/
  | binary
  /-- A date. -/
  | timestamp
  /-- A sequence of distinct entries. -/
  | omap
  /-- A sequence of entries. -/
  | pairs
  /-- A set. -/
  | set
  /-- A string. -/
  | str
  /-- A sequence. -/
  | seq
  /-- A mapping. -/
  | map
  /-- A key whose value's entries are taken over. -/
  | merge
  /-- A key that holds the plain value of a mapping. -/
  | value
  /-- Anything else; it denotes nothing here. -/
  | unknown
deriving DecidableEq, Repr, Inhabited

namespace Tag

/-- What the names of the tags above start with. -/
def authority : Text := "tag:yaml.org,2002:"

/-- The tags by name. -/
def byName : List (Text × Tag) :=
  [("null", null), ("bool", bool), ("int", int), ("float", float), ("binary", binary),
    ("timestamp", timestamp), ("omap", omap), ("pairs", pairs), ("set", set), ("str", str),
    ("seq", seq), ("map", map), ("merge", merge), ("value", value)]

/-- The tag of a full name. -/
def ofName (t : Text) : Tag :=
  if authority.isPrefixOf t then (byName.lookup (t.drop authority.length)).getD unknown
  else unknown

/-- The names of truth values. -/
def truthNames : List (Text × Bool) :=
  [("yes", true), ("no", false), ("true", true), ("false", false), ("on", true), ("off", false)]

/-- The truth value of a name, whatever its case. -/
def truth? (t : Text) : Option Bool := truthNames.lookup (Text.lowerAscii t)

/-- The spellings of a lower-case word: as it is, with a capital, or in capitals. -/
def spellings (word : Text) : List Text :=
  [word, (word.take 1).map Char.toUpper ++ word.drop 1, word.map Char.toUpper]

/-- A text without its last character, where that is a newline and not all of the text. -/
def withoutFinalNewline (t : Text) : Text :=
  if t.getLast? = some '\n' ∧ t.length ≠ 1 then t.dropLast else t

/-- The tag of a plain scalar. -/
def ofPlain (t : Text) : Tag :=
  let t := withoutFinalNewline t
  if truthNames.any fun (word, _) => (spellings word).contains t then bool
  else if isFloat t then float
  else if isInteger t then int
  else if t = Text.ofString "<<" then merge
  else if t.isEmpty || t == ['~'] || (spellings "null").contains t then null
  else if Timestamp.isTimestamp t then timestamp
  else if t = ['='] then value
  else str

/-- The tag of a scalar that has a tag's full name or none. A lone exclamation mark lets the form
decide. -/
def ofScalar (name : Option Text) (isPlain : Bool) (content : DocText) : Tag :=
  let formed : Tag := match content.toText? with
    | some t => ofPlain t
    | none => str
  match name with
  | none => if isPlain then formed else str
  | some name => if name = ['!'] then formed else ofName name

/-- The tag of a collection that has a tag's full name or none. -/
def ofCollection (name : Option Text) (default : Tag) : Tag :=
  match name with
  | none => default
  | some name => if name = ['!'] then default else ofName name

end Tag

end DebtSurvey.Yaml
