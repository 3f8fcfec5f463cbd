import DebtSurvey.Number.Basic
import DebtSurvey.Text.Basic

/-!
# Decimal notation

Reading a decimal numeral rounds it once to the nearest floating point number. Writing takes the
fewest digits that read back as the same number and, of those, the digits nearest to it.
-/

namespace DebtSurvey

namespace Binary64

/-- The number nearest to `digits * 10 ^ exponent`. Powers that no digits can bring into the range
of the format are not computed. -/
def ofDecimal (negative : Bool) (digits : Nat) (exponent : Int) : Binary64 :=
  if digits = 0 then .finite negative 0 minExponent
  else
    let places : Int := (Nat.toDigits 10 digits).length + exponent
    if 400 < places then .infinite negative
    else if places < -400 then .finite negative 0 minExponent
    else ofRatio negative (digits * Nat.pow 10 exponent.toNat) (Nat.pow 10 (-exponent).toNat)

/-- The power of ten at or below a positive quotient of natural numbers. -/
def floorLog10 (num den : Nat) : Int :=
  if den ≤ num then (Nat.toDigits 10 (num / den)).length - 1
  else
    let k := (Nat.toDigits 10 (den / num)).length - 1
    if den ≤ num * Nat.pow 10 k then -k else -(k + 1)

/-- Of the two neighbours of `num / den` on the grid of `10 ^ unit`, the nearest that reads back as
`x`, a tie to the even one. -/
def readingBack? (x : Binary64) (num den : Nat) (unit : Int) : Option Nat :=
  let a := num * Nat.pow 10 (-unit).toNat
  let b := den * Nat.pow 10 unit.toNat
  let below := a / b
  let readsBack (d : Nat) := decide (ofDecimal false d unit = x)
  let nearest := roundDiv a b
  let other := if nearest = below then below + 1 else below
  if readsBack nearest then some nearest
  else if readsBack other then some other
  else none

/-- The digits and the power of ten of the shortest numeral that reads back as `x`, looked for with
one more digit at a time. -/
def shortestFrom (x : Binary64) (num den : Nat) (top : Int) : Nat → Nat × Int
  | 0 =>
    (roundDiv (num * Nat.pow 10 (16 - top).toNat) (den * Nat.pow 10 (top - 16).toNat), top - 16)
  | fuel + 1 =>
    let unit := top - (16 - (fuel : Int))
    match readingBack? x num den unit with
    | some digits => (digits, unit)
    | none => shortestFrom x num den top fuel

/-- Drop zeros at the end of a numeral's digits, counting them into the power of ten; the first
argument bounds their number. -/
def dropZeros : Nat → Nat × Int → Nat × Int
  | 0, d => d
  | fuel + 1, (digits, unit) =>
    if digits % 10 = 0 then dropZeros fuel (digits / 10, unit + 1) else (digits, unit)

/-- The shortest numeral of a positive number: its digits and their power of ten. -/
def shortest (significand : Nat) (exponent : Int) : Nat × Int :=
  let num := significand * Nat.pow 2 exponent.toNat
  let den := Nat.pow 2 (-exponent).toNat
  dropZeros 20 (shortestFrom (.finite false significand exponent) num den (floorLog10 num den) 17)

/-- How a numeral is laid out. -/
structure Layout where
  /-- The least power of ten of the first digit that is written without an exponent. -/
  leastPositional : Int
  /-- The power of ten from which on the exponent is written. -/
  positionalLimit : Int
  /-- The least number of digits in an exponent. -/
  exponentWidth : Nat

/-- Numbers from `0.0001` to below `10 ^ 16` are written positionally, and with `.0` when they are
whole; an exponent has a sign and at least two digits. -/
def Layout.plain : Layout := ⟨-4, 16, 2⟩

/-- Lay out a positive numeral. -/
def Layout.render (layout : Layout) (digits : Nat) (unit : Int) : Text :=
  let ds := Text.ofNat digits
  let top : Int := ds.length - 1 + unit
  if layout.leastPositional ≤ top ∧ top < layout.positionalLimit then
    if 0 ≤ unit then ds ++ List.replicate unit.toNat '0' ++ ['.', '0']
    else if 0 ≤ top then ds.take (top + 1).toNat ++ '.' :: ds.drop (top + 1).toNat
    else '0' :: '.' :: List.replicate (-top - 1).toNat '0' ++ ds
  else
    let fraction := if ds.length = 1 then [] else '.' :: ds.drop 1
    let sign := if top < 0 then '-' else '+'
    ds.take 1 ++ fraction ++
      'e' :: sign :: Text.padLeft layout.exponentWidth '0' (Text.ofNat top.natAbs)

/-- The text of a number: the shortest numeral that reads back. -/
def toText : Binary64 → Text
  | .nan => Text.ofString "nan"
  | .infinite negative => Text.ofString (if negative then "-inf" else "inf")
  | .finite negative significand exponent =>
    let numeral :=
      if significand = 0 then Text.ofString "0.0"
      else
        let (digits, unit) := shortest significand exponent
        Layout.plain.render digits unit
    if negative then '-' :: numeral else numeral

end Binary64

/-- The text of a number. -/
def Number.toText : Number → Text
  | .int n => Text.ofInt n
  | .float x => x.toText

end DebtSurvey
