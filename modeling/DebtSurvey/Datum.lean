import DebtSurvey.Calendar.Moment
import DebtSurvey.Json.Basic

/-!
# Plain values

A document of settings denotes a plain value: a scalar, a list, a set, or a map whose keys are
scalars. Keys that denote the same scalar are one key, and a truth value counts as the number it
stands for. A later value for a key replaces the earlier one in its place.
-/

namespace DebtSurvey

/-- A plain value. -/
inductive Datum where
  /-- No value. -/
  | none
  /-- A truth value. -/
  | bool (value : Bool)
  /-- A number. -/
  | number (value : Number)
  /-- A string. -/
  | text (value : DocText)
  /-- A string of bytes. -/
  | bytes (value : List UInt8)
  /-- A date. -/
  | date (value : Calendar.Date)
  /-- A date and time. -/
  | moment (value : Calendar.Moment)
  /-- A list. -/
  | list (items : List Datum)
  /-- A set. -/
  | set (items : List Datum)
  /-- A map with its entries in order. -/
  | map (entries : List (Datum × Datum))
deriving Inhabited, Repr

namespace Datum

mutual

/-- The plain value of a JSON value. -/
def ofJson : Json → Datum
  | .null => .none
  | .bool b => .bool b
  | .number n => .number n
  | .text t => .text t
  | .array items => .list (ofItems items)
  | .object fields => .map (ofFields fields)

/-- The plain values of JSON values. -/
def ofItems : List Json → List Datum
  | [] => []
  | item :: rest => ofJson item :: ofItems rest

/-- The plain entries of JSON fields. -/
def ofFields : List (DocText × Json) → List (Datum × Datum)
  | [] => []
  | (name, value) :: rest => (.text name, ofJson value) :: ofFields rest

end

/-- The name of a value's type in messages. -/
def typeName : Datum → Text
  | .none => "NoneType"
  | .bool _ => "bool"
  | .number (.int _) => "int"
  | .number (.float _) => "float"
  | .text _ => "str"
  | .bytes _ => "bytes"
  | .date _ => "date"
  | .moment _ => "datetime"
  | .list _ => "list"
  | .set _ => "set"
  | .map _ => "dict"

/-- Whether a value counts as absent: no value, falsehood, zero, and everything empty. -/
def isBlank : Datum → Bool
  | .none => true
  | .bool b => !b
  | .number (.int n) => n == 0
  | .number (.float x) => x.isZero
  | .text t => t.isEmpty
  | .bytes b => b.isEmpty
  | .date _ => false
  | .moment _ => false
  | .list items => items.isEmpty
  | .set items => items.isEmpty
  | .map entries => entries.isEmpty

/-- The number that a scalar counts as. -/
def asNumber? : Datum → Option Number
  | .bool b => some (.int (if b then 1 else 0))
  | .number n => some n
  | _ => Option.none

/-- Whether two scalars are the same key. -/
def sameKey (a b : Datum) : Bool :=
  match a, b with
  | .none, .none => true
  | .text s, .text t => s == t
  | .bytes s, .bytes t => s == t
  | .date d, .date e => d == e
  | .moment m, .moment n => m.offset.isSome == n.offset.isSome && m.sinceEpoch == n.sinceEpoch
  | _, _ =>
    match a.asNumber?, b.asNumber? with
    | some m, some n => (m.position?.isSome) && m.position? == n.position?
    | _, _ => false

/-- Give a key a value among entries: in place when the key occurs, else at the end. -/
def setKey (entries : List (Datum × Datum)) (key value : Datum) : List (Datum × Datum) :=
  match entries with
  | [] => [(key, value)]
  | (k, v) :: rest => if sameKey k key then (k, value) :: rest else (k, v) :: setKey rest key value

/-- The value of a name among entries. -/
def value? (entries : List (Datum × Datum)) (name : Text) : Option Datum :=
  (entries.find? fun (k, _) => sameKey k (.text (DocText.ofText name))).map (·.2)

end Datum

end DebtSurvey
