/-!
# Binary floating point

Numbers of the 64-bit binary format, held exactly: a sign, a significand below `2 ^ 53` and a power
of two. Every operation computes the exact rational result and rounds it once, to the nearest
number of the format, a tie to the even significand (`ofRat`). So each operation is a statement
about rationals, and nothing here is opaque to a proof.
-/

namespace DebtSurvey

/-- A number of the 64-bit binary format. -/
inductive Binary64 where
  /-- Not a number. -/
  | nan
  /-- An infinity. -/
  | infinite (negative : Bool)
  /-- The number `± significand * 2 ^ exponent`. -/
  | finite (negative : Bool) (significand : Nat) (exponent : Int)
deriving DecidableEq, Repr, Inhabited

namespace Binary64

/-- The least exponent of the format, that of zero and of the subnormal numbers. -/
def minExponent : Int := -1074

/-- The greatest exponent of the format. -/
def maxExponent : Int := 971

/-- Significands are below this bound. -/
def significandLimit : Nat := Nat.pow 2 53

/-- A quotient of natural numbers to the nearest whole, a half to the even neighbour. -/
def roundDiv (num den : Nat) : Nat :=
  let q := num / den
  let r := num % den
  if 2 * r < den then q
  else if den < 2 * r then q + 1
  else if q % 2 = 0 then q
  else q + 1

/-- The power of two at or below a positive quotient of natural numbers. -/
def floorLog2 (num den : Nat) : Int :=
  let k : Int := (Nat.log2 num : Int) - Nat.log2 den
  if num * Nat.pow 2 (-k).toNat < den * Nat.pow 2 k.toNat then k - 1 else k

/-- The number nearest to `± num / den`, a tie to the even significand; infinite beyond the range of
the format. -/
def ofRatio (negative : Bool) (num den : Nat) : Binary64 :=
  if num = 0 then .finite negative 0 minExponent
  else
    let exponent := max (floorLog2 num den - 52) minExponent
    let significand :=
      roundDiv (num * Nat.pow 2 (-exponent).toNat) (den * Nat.pow 2 exponent.toNat)
    let rounded : Nat × Int :=
      if significand = significandLimit then (Nat.pow 2 52, exponent + 1) else (significand, exponent)
    if maxExponent < rounded.2 then .infinite negative else .finite negative rounded.1 rounded.2

/-- The number nearest to a rational; zero is positive. -/
def ofRat (r : Rat) : Binary64 := ofRatio (r < 0) r.num.natAbs r.den

/-- The number nearest to an integer. -/
def ofInt (n : Int) : Binary64 := ofRat n

/-- The exact value of a finite number. -/
def toRat? : Binary64 → Option Rat
  | .finite negative significand exponent =>
    let magnitude : Rat :=
      mkRat (significand * Nat.pow 2 exponent.toNat) (Nat.pow 2 (-exponent).toNat)
    some (if negative then -magnitude else magnitude)
  | _ => none

/-- The result of an operation on exact values, rounded; infinities are not followed. -/
def lift₂ (op : Rat → Rat → Rat) (x y : Binary64) : Binary64 :=
  match x.toRat?, y.toRat? with
  | some a, some b => ofRat (op a b)
  | _, _ => .nan

/-- The rounded difference; an infinity less a finite number stays, of two infinities no number
comes. -/
def sub : Binary64 → Binary64 → Binary64
  | .infinite n, .finite .. => .infinite n
  | .finite .., .infinite n => .infinite !n
  | .infinite m, .infinite n => if m = n then .nan else .infinite m
  | x, y => lift₂ (· - ·) x y

/-- The rounded product with a finite positive rational. -/
def scale (k : Rat) : Binary64 → Binary64
  | .nan => .nan
  | .infinite n => .infinite n
  | x => lift₂ (· * ·) x (ofRat k)

/-- The part of a rational before the point. -/
def truncate (r : Rat) : Int := if r < 0 then r.ceil else r.floor

/-- The whole quotient toward minus infinity by a positive finite number, every step rounded: the
remainder first, then the quotient of what it leaves, then the nearest whole number to it. -/
def floorDiv (x : Binary64) (divisor : Rat) : Binary64 :=
  match x.toRat? with
  | none => .nan
  | some v =>
    let remainder := v - divisor * truncate (v / divisor)
    let quotient := lift₂ (· / ·) (ofRat (v - remainder)) (ofRat divisor)
    let quotient := if remainder < 0 then sub quotient (ofInt 1) else quotient
    match quotient.toRat? with
    | none => quotient
    | some q =>
      let whole := ofInt q.floor
      -- The quotient is whole up to rounding, so the nearest whole number is meant.
      match (sub quotient whole).toRat? with
      | some fraction => if fraction * 2 > 1 then sub whole (ofInt (-1)) else whole
      | none => whole

/-- Whether a number is zero, of either sign. -/
def isZero : Binary64 → Bool
  | .finite _ significand _ => significand == 0
  | _ => false

end Binary64

end DebtSurvey
