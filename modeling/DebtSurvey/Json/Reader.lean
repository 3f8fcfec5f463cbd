import DebtSurvey.Json.Basic
import DebtSurvey.Number.Decimal

/-!
# Reading JSON

Beyond the standard grammar the words `NaN`, `Infinity` and `-Infinity` are numbers. A surrogate
escape without its partner is kept, a pair is one character. Control characters must be escaped, an
integer may have at most 4300 digits, and a byte order mark at the start is refused.

A reader keeps the arrays and objects that it is inside of on its stack, so there is a limit to how
many of them may stand inside each other. A document beyond it is not malformed: reading breaks off
at the bracket that would be one too many, and what stands behind it is never seen.
-/

namespace DebtSurvey.Json

/-- Blanks between the tokens of a document. -/
def isSpace (c : Char) : Bool := c == ' ' || c == '\t' || c == '\n' || c == '\r'

/-- Drop blanks at the start. -/
def skipSpace (t : Text) : Text := t.dropWhile isSpace

/-- The value of a hexadecimal digit. -/
def hexDigit? (c : Char) : Option Nat :=
  if c.isDigit then some (c.toNat - 48)
  else if 'a' ≤ c ∧ c ≤ 'f' then some (c.toNat - 87)
  else if 'A' ≤ c ∧ c ≤ 'F' then some (c.toNat - 55)
  else none

/-- The code unit that four hexadecimal digits spell. -/
def hexUnit? (a b c d : Char) : Option Nat := do
  return (((← hexDigit? a) * 16 + (← hexDigit? b)) * 16 + (← hexDigit? c)) * 16 + (← hexDigit? d)

/-- The character of a one-letter escape. -/
def shortEscape? : Char → Option Char
  | '"' => some '"'
  | '\\' => some '\\'
  | '/' => some '/'
  | 'b' => some '\x08'
  | 'f' => some '\x0c'
  | 'n' => some '\n'
  | 'r' => some '\r'
  | 't' => some '\t'
  | _ => none

/-- The code units of a string's inside up to its closing quote, and the text after it. A character
stands for itself, a hexadecimal escape for a code unit. -/
def readUnits? : Text → Option (List (Char ⊕ Nat) × Text)
  | [] => none
  | '"' :: rest => some ([], rest)
  | '\\' :: 'u' :: a :: b :: c :: d :: rest => do
    let unit ← hexUnit? a b c d
    let (units, after) ← readUnits? rest
    return (.inr unit :: units, after)
  | '\\' :: c :: rest => do
    let c ← shortEscape? c
    let (units, after) ← readUnits? rest
    return (.inl c :: units, after)
  | c :: rest => do
    if c.toNat < 0x20 ∨ c = '\\' then none
    let (units, after) ← readUnits? rest
    return (.inl c :: units, after)

/-- Join the surrogate pairs among code units. -/
def joinPairs : List (Char ⊕ Nat) → DocText
  | [] => []
  | .inl c :: rest => .scalar c :: joinPairs rest
  | .inr high :: .inr low :: rest =>
    if 0xd800 ≤ high ∧ high < 0xdc00 ∧ 0xdc00 ≤ low ∧ low < 0xe000 then
      .scalar (Char.ofNat (0x10000 + (high - 0xd800) * 0x400 + (low - 0xdc00))) :: joinPairs rest
    else ((CodePoint.ofNat? high).getD default) :: joinPairs (.inr low :: rest)
  | .inr unit :: rest => ((CodePoint.ofNat? unit).getD default) :: joinPairs rest

/-- The string after its opening quote, and the text after it. -/
def readString? (t : Text) : Option (DocText × Text) := do
  let (units, after) ← readUnits? t
  return (joinPairs units, after)

/-- The number that decimal digits of ASCII spell. -/
def decimal (digits : Text) : Nat := digits.foldl (fun n c => 10 * n + (c.toNat - 48)) 0

/-- The whole part of a number: one zero, or digits that start with another digit. -/
def readWhole? (t : Text) : Option (Text × Text) :=
  match t with
  | '0' :: rest => some (['0'], rest)
  | _ =>
    let digits := t.takeWhile Char.isDigit
    if digits.isEmpty then none else some (digits, t.dropWhile Char.isDigit)

/-- The digits after a point, if a point and a digit follow. -/
def readFraction (t : Text) : Option (Text × Text) :=
  match t with
  | '.' :: rest =>
    let digits := rest.takeWhile Char.isDigit
    if digits.isEmpty then none else some (digits, rest.dropWhile Char.isDigit)
  | _ => none

/-- An exponent, if one follows. -/
def readExponent (t : Text) : Option (Int × Text) :=
  match t with
  | e :: rest =>
    if e = 'e' ∨ e = 'E' then
      let (negative, rest) :=
        match rest with
        | '-' :: r => (true, r)
        | '+' :: r => (false, r)
        | r => (false, r)
      let digits := rest.takeWhile Char.isDigit
      if digits.isEmpty then none
      else
        let n : Int := decimal digits
        some (if negative then -n else n, rest.dropWhile Char.isDigit)
    else none
  | [] => none

/-- The most digits of an integer. -/
def digitLimit : Nat := 4300

/-- A number after its sign, and the text after it. -/
def readNumber? (negative : Bool) (t : Text) : Option (Number × Text) := do
  let (whole, rest) ← readWhole? t
  match readFraction rest, rest with
  | some (fraction, rest), _ =>
    let (exponent, rest) := (readExponent rest).getD (0, rest)
    let x := Binary64.ofDecimal negative (decimal (whole ++ fraction)) (exponent - fraction.length)
    return (.float x, rest)
  | none, rest =>
    match readExponent rest with
    | some (exponent, rest) =>
      return (.float (Binary64.ofDecimal negative (decimal whole) exponent), rest)
    | none =>
      if digitLimit < whole.length then none
      let n : Int := decimal whole
      return (.int (if negative then -n else n), rest)

/-- Take a word from the front of a text. -/
def takeWord? (word t : Text) : Option Text :=
  if word.isPrefixOf t then some (t.drop word.length) else none

/-- A value that is neither a string nor an array nor an object. -/
def readSimple? (t : Text) : Option (Json × Text) :=
  match takeWord? "null" t, takeWord? "true" t, takeWord? "false" t with
  | some rest, _, _ => some (.null, rest)
  | _, some rest, _ => some (.bool true, rest)
  | _, _, some rest => some (.bool false, rest)
  | none, none, none =>
    match takeWord? "NaN" t, takeWord? "Infinity" t, takeWord? "-Infinity" t with
    | some rest, _, _ => some (.number (.float .nan), rest)
    | _, some rest, _ => some (.number (.float (.infinite false)), rest)
    | _, _, some rest => some (.number (.float (.infinite true)), rest)
    | none, none, none =>
      match t with
      | '-' :: rest => (readNumber? true rest).map fun (n, after) => (.number n, after)
      | _ => (readNumber? false t).map fun (n, after) => (.number n, after)

/-- Why a document is not read. -/
inductive Fault where
  /-- It is no JSON. -/
  | malformed
  /-- Arrays and objects stand too deep inside each other. -/
  | tooDeep
deriving DecidableEq, Repr

/-- A part is malformed if it cannot be read. -/
def orMalformed {α : Type} : Option α → Except Fault α
  | some a => .ok a
  | none => .error .malformed

mutual

/-- A value at the front of a text. The first argument bounds the recursion, the second says how many
arrays and objects there may still be around a value. -/
def readValue : Nat → Nat → Text → Except Fault (Json × Text)
  | 0, _, _ => .error .malformed
  | fuel + 1, nesting, t =>
    match t with
    | '"' :: rest => (orMalformed (readString? rest)).map fun (s, after) => (.text s, after)
    | '[' :: rest =>
      match nesting with
      | 0 => .error .tooDeep
      | nesting + 1 =>
        match skipSpace rest with
        | ']' :: after => .ok (.array [], after)
        | inside =>
          (readItems fuel nesting inside).map fun (items, after) => (.array items, after)
    | '{' :: rest =>
      match nesting with
      | 0 => .error .tooDeep
      | nesting + 1 =>
        match skipSpace rest with
        | '}' :: after => .ok (.object [], after)
        | inside =>
          (readFields fuel nesting [] inside).map fun (fields, after) => (.object fields, after)
    | _ => orMalformed (readSimple? t)

/-- The items of an array up to its closing bracket. -/
def readItems : Nat → Nat → Text → Except Fault (List Json × Text)
  | 0, _, _ => .error .malformed
  | fuel + 1, nesting, t => do
    let (item, after) ← readValue fuel nesting t
    match skipSpace after with
    | ']' :: rest => return ([item], rest)
    | ',' :: rest =>
      let (items, rest) ← readItems fuel nesting (skipSpace rest)
      return (item :: items, rest)
    | _ => .error .malformed

/-- The fields of an object up to its closing brace, added to those before. -/
def readFields : Nat → Nat → List (DocText × Json) → Text →
    Except Fault (List (DocText × Json) × Text)
  | 0, _, _, _ => .error .malformed
  | fuel + 1, nesting, fields, t => do
    match t with
    | '"' :: rest =>
      let (name, after) ← orMalformed (readString? rest)
      match skipSpace after with
      | ':' :: rest =>
        let (value, after) ← readValue fuel nesting (skipSpace rest)
        let fields := setField fields name value
        match skipSpace after with
        | '}' :: rest => return (fields, rest)
        | ',' :: rest => readFields fuel nesting fields (skipSpace rest)
        | _ => .error .malformed
      | _ => .error .malformed
    | _ => .error .malformed

end

/-- The value of a whole document whose arrays and objects are nested up to a limit. -/
def read (nesting : Nat) (t : Text) : Except Fault Json := do
  let (value, after) ← readValue (2 * t.length + 2) nesting (skipSpace t)
  if (skipSpace after).isEmpty then return value else .error .malformed

/-- The value of a whole document, however deep its arrays and objects are nested: there is no deeper
nesting than brackets in the text. -/
def parse? (t : Text) : Option Json := (read t.length t).toOption

end DebtSurvey.Json
