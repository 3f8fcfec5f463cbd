import DebtSurvey.Text.Basic

/-!
# Base 64

Four characters of the alphabet spell three bytes. Characters outside the alphabet are passed over;
padding that completes a group of four ends the text, and a group that stays incomplete refuses it.
-/

namespace DebtSurvey.Base64

/-- The value of a character of the alphabet. -/
def value? (c : Char) : Option Nat :=
  if c.isUpper then some (c.toNat - 65)
  else if c.isLower then some (c.toNat - 97 + 26)
  else if c.isDigit then some (c.toNat - 48 + 52)
  else if c = '+' then some 62
  else if c = '/' then some 63
  else none

/-- The bytes that are left to read, with `count` characters of the present group read, bits of them
left over in `bits`, and some padding met in the group. -/
def decodeFrom (count bits padding : Nat) : Text → Option (List UInt8)
  | [] => if count = 0 then some [] else none
  | c :: rest =>
    if c = '=' then
      if 2 ≤ count ∧ 4 ≤ count + padding + 1 then some []
      else decodeFrom count bits (if 2 ≤ count then padding + 1 else padding) rest
    else
      match value? c, count with
      | none, _ => decodeFrom count bits padding rest
      | some v, 0 => decodeFrom 1 v 0 rest
      | some v, 1 => (decodeFrom 2 (v % 16) 0 rest).map (UInt8.ofNat (bits * 4 + v / 16) :: ·)
      | some v, 2 => (decodeFrom 3 (v % 4) 0 rest).map (UInt8.ofNat (bits * 16 + v / 4) :: ·)
      | some v, _ => (decodeFrom 0 0 0 rest).map (UInt8.ofNat (bits * 64 + v) :: ·)

/-- The bytes that a text spells. -/
def decode? (t : Text) : Option (List UInt8) := decodeFrom 0 0 0 t

end DebtSurvey.Base64
