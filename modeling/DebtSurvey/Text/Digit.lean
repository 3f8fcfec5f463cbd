import DebtSurvey.Text.Blank

/-!
# Decimal digits and integers in text

Every script's decimal digits count. An integer may have blanks around it, a sign, and single
underscores between digits; one of more than 4300 digits is refused.
-/

namespace DebtSurvey.Text

/-- The code points of the zeros of all scripts (Unicode 14); each is followed by its nine
companions. -/
def zeros : List Nat := [
  0x30, 0x660, 0x6f0, 0x7c0, 0x966, 0x9e6, 0xa66, 0xae6, 0xb66, 0xbe6, 0xc66, 0xce6, 0xd66, 0xde6,
  0xe50, 0xed0, 0xf20, 0x1040, 0x1090, 0x17e0, 0x1810, 0x1946, 0x19d0, 0x1a80, 0x1a90, 0x1b50,
  0x1bb0, 0x1c40, 0x1c50, 0xa620, 0xa8d0, 0xa900, 0xa9d0, 0xa9f0, 0xaa50, 0xabf0, 0xff10, 0x104a0,
  0x10d30, 0x11066, 0x110f0, 0x11136, 0x111d0, 0x112f0, 0x11450, 0x114d0, 0x11650, 0x116c0,
  0x11730, 0x118e0, 0x11950, 0x11c50, 0x11d50, 0x11da0, 0x16a60, 0x16ac0, 0x16b50, 0x1d7ce,
  0x1d7d8, 0x1d7e2, 0x1d7ec, 0x1d7f6, 0x1e140, 0x1e2f0, 0x1e950, 0x1fbf0]

/-- The value of a decimal digit of any script. -/
def digitValue? (c : Char) : Option Nat :=
  if c.toNat < 128 then
    if c.isDigit then some (c.toNat - 48) else none
  else (zeros.find? fun first => first ≤ c.toNat && c.toNat < first + 10).map (c.toNat - ·)

/-- Whether a character is a decimal digit of any script. -/
def isDigit (c : Char) : Bool := (digitValue? c).isSome

/-- The most digits an integer read from text may have. -/
def digitLimit : Nat := 4300

/-- The digits of an integer's magnitude: one or more, with single underscores between them. -/
def magnitudeDigits? : Text → Option (List Nat)
  | [] => none
  | [c] => (digitValue? c).map ([·])
  | c :: '_' :: rest => do
    let d ← digitValue? c
    let ds ← magnitudeDigits? rest
    return d :: ds
  | c :: rest => do
    let d ← digitValue? c
    let ds ← magnitudeDigits? rest
    return d :: ds

/-- The number that decimal digits spell. -/
def digitsToNat (digits : List Nat) : Nat := digits.foldl (fun n d => 10 * n + d) 0

/-- The number of a non-empty run of digits, refused beyond the limit. -/
def natOfDigits? (digits : List Nat) : Option Nat :=
  if digits.length ≤ digitLimit then some (digitsToNat digits) else none

/-- Blanks that may stand around an integer: all but the information separators. -/
def isNumberBlank (c : Char) : Bool := isBlank c && !(28 ≤ c.toNat && c.toNat ≤ 31)

/-- Read an integer written in decimal. -/
def toInt? (t : Text) : Option Int :=
  let body := ((t.dropWhile isNumberBlank).reverse.dropWhile isNumberBlank).reverse
  match body with
  | '-' :: rest => do return -((← natOfDigits? (← magnitudeDigits? rest)) : Int)
  | '+' :: rest => do return ((← natOfDigits? (← magnitudeDigits? rest)) : Int)
  | rest => do return ((← natOfDigits? (← magnitudeDigits? rest)) : Int)

end DebtSurvey.Text
