import DebtSurvey.Json.Basic
import DebtSurvey.Number.Decimal
import DebtSurvey.Text.Printable

/-!
# Showing values in messages

A value shown in a message is its bare text when it is a string, and otherwise a readable form in
which inner strings are quoted. Quoting prefers the apostrophe and escapes what is not printable.
-/

namespace DebtSurvey.Json

/-- The quote around a shown string: an apostrophe, unless the string has one and no double quote. -/
def quoteFor (t : DocText) : Char :=
  if t.contains (.scalar '\'') && !t.contains (.scalar '"') then '"' else '\''

/-- A code point as a hexadecimal escape, two, four or eight digits wide. -/
def showEscape (n : Nat) : Text :=
  let (letter, width) := if n < 0x100 then ('x', 2) else if n < 0x10000 then ('u', 4) else ('U', 8)
  '\\' :: letter :: Text.padLeft width '0' (Nat.toDigits 16 n)

/-- A code point inside a shown string. -/
def showPoint (quote : Char) (p : CodePoint) : Text :=
  match p with
  | .scalar '\\' => ['\\', '\\']
  | .scalar '\n' => ['\\', 'n']
  | .scalar '\r' => ['\\', 'r']
  | .scalar '\t' => ['\\', 't']
  | .scalar c =>
    if c = quote then ['\\', c]
    else if Text.isPrintable c.toNat then [c]
    else showEscape c.toNat
  | .surrogate n => showEscape n

/-- A quoted string. -/
def showText (t : DocText) : Text :=
  let quote := quoteFor t
  quote :: t.flatMap (showPoint quote) ++ [quote]

mutual

/-- A value inside another. -/
def showInner : Json → Text
  | .null => "None"
  | .bool true => "True"
  | .bool false => "False"
  | .number n => n.toText
  | .text t => showText t
  | .array items => '[' :: Text.join ", " (showItems items) ++ [']']
  | .object fields => '\x7b' :: Text.join ", " (showFields fields) ++ ['\x7d']

/-- The items of an array. -/
def showItems : List Json → List Text
  | [] => []
  | item :: rest => showInner item :: showItems rest

/-- The fields of an object. -/
def showFields : List (DocText × Json) → List Text
  | [] => []
  | (name, value) :: rest => (showText name ++ ": " ++ showInner value) :: showFields rest

end

/-- A value as part of a message. -/
def display : Json → DocText
  | .text t => t
  | value => DocText.ofText (showInner value)

end DebtSurvey.Json
