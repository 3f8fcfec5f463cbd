import DebtSurvey.Json.Basic
import DebtSurvey.Number.Decimal

/-!
# Writing JSON

Strings are written in ASCII: other characters as escapes of their code units. A layout says how
items are separated and how far the inside of an array or object is indented.
-/

namespace DebtSurvey.Json

/-- How a document is laid out. -/
structure Layout where
  /-- The indentation of one level, with one item to a line; none writes everything on one line. -/
  indent : Option Nat
  /-- What stands between two items, before any line break. -/
  between : Text
  /-- What stands between a name and its value. -/
  colon : Text

/-- Everything on one line with blanks after commas and colons. -/
def Layout.line : Layout := ⟨none, ", ", ": "⟩

/-- One item to a line, indented by two. -/
def Layout.indented : Layout := ⟨some 2, ",", ": "⟩

/-- A code unit as a hexadecimal escape. -/
def hexEscape (unit : Nat) : Text :=
  '\\' :: 'u' :: Text.padLeft 4 '0' (Nat.toDigits 16 unit)

/-- A code point outside printable ASCII as one or two escapes. -/
def escapeValue (n : Nat) : Text :=
  if n < 0x10000 then hexEscape n
  else
    hexEscape (0xd800 + (n - 0x10000) / 0x400) ++ hexEscape (0xdc00 + (n - 0x10000) % 0x400)

/-- A code point inside a string. -/
def escapePoint (p : CodePoint) : Text :=
  match p with
  | .scalar '"' => ['\\', '"']
  | .scalar '\\' => ['\\', '\\']
  | .scalar '\n' => ['\\', 'n']
  | .scalar '\r' => ['\\', 'r']
  | .scalar '\t' => ['\\', 't']
  | .scalar '\x08' => ['\\', 'b']
  | .scalar '\x0c' => ['\\', 'f']
  | .scalar c => if 32 ≤ c.toNat ∧ c.toNat < 127 then [c] else escapeValue c.toNat
  | .surrogate n => hexEscape n

/-- A string with its quotes. -/
def quote (t : DocText) : Text := '"' :: t.flatMap escapePoint ++ ['"']

/-- A number. -/
def numeral : Number → Text
  | .int n => Text.ofInt n
  | .float .nan => "NaN"
  | .float (.infinite false) => "Infinity"
  | .float (.infinite true) => "-Infinity"
  | .float x => x.toText

/-- The line break and indentation at a depth. -/
def Layout.lineBreak (layout : Layout) (depth : Nat) : Text :=
  match layout.indent with
  | none => []
  | some width => '\n' :: List.replicate (width * depth) ' '

/-- Brackets around written items. -/
def enclose (layout : Layout) (depth : Nat) (opening closing : Char) (items : List Text) : Text :=
  if items.isEmpty then [opening, closing]
  else
    opening :: layout.lineBreak (depth + 1) ++
      Text.join (layout.between ++ layout.lineBreak (depth + 1)) items ++
      layout.lineBreak depth ++ [closing]

mutual

/-- A value whose closing bracket stands at a depth. -/
def renderAt (layout : Layout) (depth : Nat) : Json → Text
  | .null => "null"
  | .bool true => "true"
  | .bool false => "false"
  | .number n => numeral n
  | .text t => quote t
  | .array items => enclose layout depth '[' ']' (renderItems layout (depth + 1) items)
  | .object fields => enclose layout depth '\x7b' '\x7d' (renderFields layout (depth + 1) fields)

/-- The items of an array. -/
def renderItems (layout : Layout) (depth : Nat) : List Json → List Text
  | [] => []
  | item :: rest => renderAt layout depth item :: renderItems layout depth rest

/-- The fields of an object. -/
def renderFields (layout : Layout) (depth : Nat) : List (DocText × Json) → List Text
  | [] => []
  | (name, value) :: rest =>
    (quote name ++ layout.colon ++ renderAt layout depth value) ::
      renderFields layout depth rest

end

/-- The document of a value. -/
def render (layout : Layout) (value : Json) : Text := renderAt layout 0 value

end DebtSurvey.Json
