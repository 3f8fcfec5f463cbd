import DebtSurvey.Number.Basic
import DebtSurvey.Text.CodePoint

/-!
# JSON values

A value of a JSON document. The fields of an object stand in the order of their first appearance,
each name once: a later value for a name replaces the earlier one in its place.
-/

namespace DebtSurvey

/-- A JSON value. -/
inductive Json where
  /-- The null value. -/
  | null
  /-- A truth value. -/
  | bool (value : Bool)
  /-- A number, integers told apart from floating point numbers. -/
  | number (value : Number)
  /-- A string. -/
  | text (value : DocText)
  /-- An array. -/
  | array (items : List Json)
  /-- An object with its fields in order. -/
  | object (fields : List (DocText × Json))
deriving Inhabited, Repr

namespace Json

/-- Give a name a value among fields: in place when the name occurs, else at the end. -/
def setField {α : Type} (fields : List (DocText × α)) (name : DocText) (value : α) :
    List (DocText × α) :=
  match fields with
  | [] => [(name, value)]
  | (n, v) :: rest => if n = name then (n, value) :: rest else (n, v) :: setField rest name value

/-- The value of a name among fields. -/
def field? (fields : List (DocText × Json)) (name : DocText) : Option Json :=
  (fields.find? (·.1 = name)).map (·.2)

/-- The string of a text. -/
def ofText (t : Text) : Json := .text (DocText.ofText t)

/-- An integer as a JSON number. -/
def ofInt (n : Int) : Json := .number (.int n)

/-- Whether a value counts as present: null, false, zero and empty values do not. -/
def isTruthy : Json → Bool
  | .null => false
  | .bool b => b
  | .number (.int n) => n != 0
  | .number (.float x) => !x.isZero
  | .text t => !t.isEmpty
  | .array items => !items.isEmpty
  | .object fields => !fields.isEmpty

end Json

end DebtSurvey
