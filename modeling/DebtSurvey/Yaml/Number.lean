import DebtSurvey.Number.Decimal
import DebtSurvey.Text.Case
import DebtSurvey.Text.Digit
import DebtSurvey.Yaml.Error

/-!
# Numbers in a document

A number may be split by underscores, and its parts may be counted in sixties with colons between
them. Integers may be written in base 2, 8 or 16 as well.
-/

namespace DebtSurvey.Yaml

/-! ### Which plain scalars are numbers -/

/-- What is left of a numeral behind its sign. -/
def unsigned (t : Text) : Text :=
  match t with
  | '-' :: rest => rest
  | '+' :: rest => rest
  | _ => t

/-- A digit or an underscore. -/
def isSpacedDigit (c : Char) : Bool := c.isDigit || c == '_'

/-- A digit, then digits and underscores. -/
def isSpacedNumeral (t : Text) : Bool :=
  match t with
  | c :: rest => c.isDigit && rest.all isSpacedDigit
  | [] => false

/-- A part that counts ones or sixties: one digit, or two below sixty. -/
def isSixty (t : Text) : Bool :=
  match t with
  | [d] => d.isDigit
  | [d, e] => d.isDigit && d.toNat < 54 && e.isDigit
  | _ => false

/-- Whether a numeral is split by colons into a first part and sixties. -/
def isSixties (isFirst : Text → Bool) (t : Text) : Bool :=
  match Text.splitOn ':' t with
  | first :: next :: rest => isFirst first && (next :: rest).all isSixty
  | _ => false

/-- Digits after a letter that names the base. -/
def isInBase (letter : Char) (isDigit : Char → Bool) (t : Text) : Bool :=
  match t with
  | '0' :: c :: d :: rest => c == letter && (d :: rest).all fun e => e == '_' || isDigit e
  | _ => false

/-- Whether a plain scalar is an integer. -/
def isInteger (t : Text) : Bool :=
  let t := unsigned t
  let isOctal (c : Char) := '0' ≤ c && c ≤ '7'
  let isHex (c : Char) := c.isDigit || ('a' ≤ c && c ≤ 'f') || ('A' ≤ c && c ≤ 'F')
  let isDecimal (t : Text) := isSpacedNumeral t && t.head? != some '0'
  isInBase 'b' (fun c => c == '0' || c == '1') t || isInBase 'x' isHex t || t == ['0'] ||
    (t.head? == some '0' && t.length != 1 && t.all fun c => c == '_' || isOctal c) ||
    isDecimal t || isSixties isDecimal t

/-- Whether a text is nothing or an exponent with a sign. -/
def isExponent (t : Text) : Bool :=
  match t with
  | [] => true
  | e :: sign :: d :: rest =>
    (e == 'e' || e == 'E') && (sign == '-' || sign == '+') && (d :: rest).all Char.isDigit
  | _ => false

/-- Whether a plain scalar is a floating point number: it has a point. -/
def isFloat (t : Text) : Bool :=
  let u := unsigned t
  let (whole, fraction) := Text.cut '.' u
  let behind := fraction.dropWhile isSpacedDigit
  u.contains '.' &&
    ((isSpacedNumeral whole && isExponent behind) ||
      (whole.isEmpty && u == t && fraction.head?.any Char.isDigit && isExponent behind) ||
      (isSixties isSpacedNumeral whole && behind.isEmpty) ||
      [Text.ofString ".inf", ".Inf", ".INF"].contains u ||
      [Text.ofString ".nan", ".NaN", ".NAN"].contains t)

/-! ### What they denote -/

/-- The value of a digit in a base. -/
def digitIn? (base : Nat) (c : Char) : Option Nat := do
  let value ← match Text.digitValue? c with
    | some d => some d
    | none =>
      let c := Text.lowerAscii [c]
      match c with
      | [c] => if 'a' ≤ c ∧ c ≤ 'z' then some (c.toNat - 87) else none
      | _ => none
  if value < base then some value else none

/-- The letter that may follow a zero in front of digits in a base. -/
def letterOf (base : Nat) : Char := if base = 2 then 'b' else if base = 8 then 'o' else 'x'

/-- The number that a numeral in base 2, 8 or 16 denotes. Blanks may stand around it, and a sign and
a zero with the letter of the base in front. -/
def numeralIn? (base : Nat) (t : Text) : Option Int := do
  let body := ((t.dropWhile Text.isNumberBlank).reverse.dropWhile Text.isNumberBlank).reverse
  let negative := body.head? == some '-'
  let digits := match unsigned body with
    | '0' :: c :: rest => if Text.lowerAscii [c] = [letterOf base] then rest else '0' :: c :: rest
    | digits => digits
  if digits.isEmpty then none
  let values ← digits.mapM (digitIn? base)
  let n : Nat := values.foldl (fun n d => base * n + d) 0
  return if negative then -(n : Int) else n

/-- A number counted in sixties, from its parts, the last part first. -/
def sixties : List Int → Int
  | [] => 0
  | n :: rest => n + 60 * sixties rest

/-- The integer that a numeral denotes. -/
def integerOf (t : Text) : Except Error Int :=
  let spaced := t.filter (· ≠ '_')
  let negative := spaced.head? == some '-'
  let body := unsigned spaced
  let magnitude : Option Int :=
    match body with
    | ['0'] => some 0
    | '0' :: 'b' :: rest => numeralIn? 2 rest
    | '0' :: 'x' :: rest => numeralIn? 16 rest
    | '0' :: _ => numeralIn? 8 body
    | _ =>
      if body.contains ':' then
        ((Text.splitOn ':' body).mapM Text.toInt?).map fun parts => sixties parts.reverse
      else Text.toInt? body
  if body.isEmpty then .error .emptyNumber
  else
    match magnitude with
    | some n => .ok (if negative then -n else n)
    | none => .error .badNumber

/-- The other sign. -/
def negate : Binary64 → Binary64
  | .nan => .nan
  | .infinite negative => .infinite !negative
  | .finite negative significand exponent => .finite (!negative) significand exponent

/-- The number that decimal digits of any script spell. -/
def decimalOf (digits : Text) : Nat := Text.digitsToNat (digits.filterMap Text.digitValue?)

/-- The exponent that a text behind a number is, if it is one or nothing. -/
def exponentOf? (t : Text) : Option Int :=
  match t with
  | [] => some 0
  | 'e' :: rest =>
    let digits := unsigned rest
    if digits.isEmpty || !digits.all Text.isDigit then none
    else some (if rest.head? = some '-' then -(decimalOf digits : Int) else decimalOf digits)
  | _ => none

/-- The floating point number that a numeral in lower case denotes: digits with or without a point
and an exponent, or a word. -/
def plainFloat? (t : Text) : Option Binary64 :=
  let body := ((t.dropWhile Text.isNumberBlank).reverse.dropWhile Text.isNumberBlank).reverse
  let negative := body.head? == some '-'
  let u := unsigned body
  if u = Text.ofString "inf" ∨ u = Text.ofString "infinity" then some (.infinite negative)
  else if u = Text.ofString "nan" then some .nan
  else
    let whole := u.takeWhile Text.isDigit
    let behind := u.dropWhile Text.isDigit
    let (fraction, behind) := match behind with
      | '.' :: rest => (rest.takeWhile Text.isDigit, rest.dropWhile Text.isDigit)
      | _ => ([], behind)
    if whole.isEmpty && fraction.isEmpty then none
    else
      (exponentOf? behind).map fun exponent =>
        .ofDecimal negative (decimalOf (whole ++ fraction)) (exponent - fraction.length)

/-- A floating point number counted in sixties, from its parts, the last part first; every step is
rounded. -/
def floatSixties (sum : Binary64) (unit : Int) : List Binary64 → Binary64
  | [] => sum
  | x :: rest =>
    floatSixties (Binary64.lift₂ (· + ·) sum (Binary64.lift₂ (· * ·) x (.ofInt unit))) (unit * 60) rest

/-- The floating point number that a numeral denotes. -/
def floatOf (t : Text) : Except Error Binary64 :=
  let spaced := Text.lowerAscii (t.filter (· ≠ '_'))
  let negative := spaced.head? == some '-'
  let body := unsigned spaced
  let magnitude : Option Binary64 :=
    if body = Text.ofString ".inf" then some (.infinite false)
    else if body = Text.ofString ".nan" then some .nan
    else if body.contains ':' then
      ((Text.splitOn ':' body).mapM plainFloat?).map fun parts =>
        floatSixties (.ofInt 0) 1 parts.reverse
    else plainFloat? body
  if spaced.isEmpty then .error .emptyNumber
  else
    match magnitude with
    | some x => .ok (if negative then negate x else x)
    | none => .error .badNumber

end DebtSurvey.Yaml
