import DebtSurvey.Number.Binary64

/-!
# Numbers

A number of a document or a request is an integer of any size or a floating point number. Order
compares exact values, so a large integer is never rounded to be compared; nothing compares with a
number that is none.
-/

namespace DebtSurvey

/-- An integer or a floating point number. -/
inductive Number where
  /-- An integer. -/
  | int (value : Int)
  /-- A floating point number. -/
  | float (value : Binary64)
deriving DecidableEq, Repr, Inhabited

/-- Why a number has no whole part. -/
inductive NumberError where
  /-- An infinity, or an integer too large for the floating point format. -/
  | overflow
  /-- Not a number. -/
  | notANumber
deriving DecidableEq, Repr

namespace Number

/-- A natural number is a number. -/
instance : NatCast Number := ⟨fun n => .int n⟩

/-- Where a number stands on the extended line: below all rationals, at one, above all; nowhere when
it is no number. -/
def position? : Number → Option (Int × Rat)
  | .int n => some (0, n)
  | .float (.infinite negative) => some (if negative then -1 else 1, 0)
  | .float x => x.toRat?.map ((0, ·))

/-- Exact comparison. -/
def lt (x y : Number) : Bool :=
  match x.position?, y.position? with
  | some (i, a), some (j, b) => i < j || (i == j && a < b)
  | _, _ => false

/-- Exact comparison that admits equality. -/
def le (x y : Number) : Bool :=
  match x.position?, y.position? with
  | some (i, a), some (j, b) => i < j || (i == j && a ≤ b)
  | _, _ => false

/-- Numbers are ordered by their exact values. -/
instance : LT Number := ⟨fun x y => lt x y = true⟩

/-- Numbers are ordered by their exact values. -/
instance : LE Number := ⟨fun x y => le x y = true⟩

instance (x y : Number) : Decidable (x < y) := inferInstanceAs (Decidable (lt x y = true))

instance (x y : Number) : Decidable (x ≤ y) := inferInstanceAs (Decidable (le x y = true))

/-- The whole part of a floating point number, toward zero. -/
def wholePart : Binary64 → Except NumberError Int
  | .nan => .error .notANumber
  | .infinite _ => .error .overflow
  | x => .ok (Binary64.truncate (x.toRat?.getD 0))

/-- A number as a floating point number. -/
def toFloat : Number → Except NumberError Binary64
  | .float x => .ok x
  | .int n =>
    match Binary64.ofInt n with
    | .infinite _ => .error .overflow
    | x => .ok x

/-- The whole number that a number stands for, toward zero. -/
def toInt : Number → Except NumberError Int
  | .int n => .ok n
  | .float x => wholePart x

/-- The difference: exact between integers, in floating point otherwise. -/
def sub : Number → Number → Except NumberError Number
  | .int a, .int b => .ok (.int (a - b))
  | x, y => do return .float (Binary64.sub (← x.toFloat) (← y.toFloat))

/-- The whole quotient toward minus infinity by a positive integer: exact on integers, in floating
point otherwise. -/
def floorDiv (x : Number) (divisor : Nat) : Number :=
  match x with
  | .int n => .int (n.fdiv divisor)
  | .float x => .float (x.floorDiv divisor)

end Number

end DebtSurvey
