import DebtSurvey.Text.Basic

/-!
# Letter case

The lower case of one letter, and when two letters are the same but for case. Case maps letters one
to one: no letter stands for two. A few lower-case letters are forms of each other (`s` and the long
`ſ`, the two sigmas), and their capitals go with them.
-/

namespace DebtSurvey.Text

/-- Where capitals stand outside ASCII (Unicode 14): first and last code point, distance to the
lower-case letter, and step. -/
def capitals : Array (Nat × Nat × Int × Nat) := #[
  (0xc0, 0xd6, 32, 1), (0xd8, 0xde, 32, 1), (0x100, 0x12e, 1, 2), (0x130, 0x130, -199, 1),
  (0x132, 0x136, 1, 2), (0x139, 0x147, 1, 2), (0x14a, 0x176, 1, 2), (0x178, 0x178, -121, 1),
  (0x179, 0x17d, 1, 2), (0x181, 0x181, 210, 1), (0x182, 0x184, 1, 2), (0x186, 0x186, 206, 1),
  (0x187, 0x187, 1, 1), (0x189, 0x18a, 205, 1), (0x18b, 0x18b, 1, 1), (0x18e, 0x18e, 79, 1),
  (0x18f, 0x18f, 202, 1), (0x190, 0x190, 203, 1), (0x191, 0x191, 1, 1), (0x193, 0x193, 205, 1),
  (0x194, 0x194, 207, 1), (0x196, 0x196, 211, 1), (0x197, 0x197, 209, 1), (0x198, 0x198, 1, 1),
  (0x19c, 0x19c, 211, 1), (0x19d, 0x19d, 213, 1), (0x19f, 0x19f, 214, 1), (0x1a0, 0x1a4, 1, 2),
  (0x1a6, 0x1a6, 218, 1), (0x1a7, 0x1a7, 1, 1), (0x1a9, 0x1a9, 218, 1), (0x1ac, 0x1ac, 1, 1),
  (0x1ae, 0x1ae, 218, 1), (0x1af, 0x1af, 1, 1), (0x1b1, 0x1b2, 217, 1), (0x1b3, 0x1b5, 1, 2),
  (0x1b7, 0x1b7, 219, 1), (0x1b8, 0x1b8, 1, 1), (0x1bc, 0x1bc, 1, 1), (0x1c4, 0x1c4, 2, 1),
  (0x1c5, 0x1c5, 1, 1), (0x1c7, 0x1c7, 2, 1), (0x1c8, 0x1c8, 1, 1), (0x1ca, 0x1ca, 2, 1),
  (0x1cb, 0x1db, 1, 2), (0x1de, 0x1ee, 1, 2), (0x1f1, 0x1f1, 2, 1), (0x1f2, 0x1f4, 1, 2),
  (0x1f6, 0x1f6, -97, 1), (0x1f7, 0x1f7, -56, 1), (0x1f8, 0x21e, 1, 2), (0x220, 0x220, -130, 1),
  (0x222, 0x232, 1, 2), (0x23a, 0x23a, 10795, 1), (0x23b, 0x23b, 1, 1), (0x23d, 0x23d, -163, 1),
  (0x23e, 0x23e, 10792, 1), (0x241, 0x241, 1, 1), (0x243, 0x243, -195, 1), (0x244, 0x244, 69, 1),
  (0x245, 0x245, 71, 1), (0x246, 0x24e, 1, 2), (0x370, 0x372, 1, 2), (0x376, 0x376, 1, 1),
  (0x37f, 0x37f, 116, 1), (0x386, 0x386, 38, 1), (0x388, 0x38a, 37, 1), (0x38c, 0x38c, 64, 1),
  (0x38e, 0x38f, 63, 1), (0x391, 0x3a1, 32, 1), (0x3a3, 0x3ab, 32, 1), (0x3cf, 0x3cf, 8, 1),
  (0x3d8, 0x3ee, 1, 2), (0x3f4, 0x3f4, -60, 1), (0x3f7, 0x3f7, 1, 1), (0x3f9, 0x3f9, -7, 1),
  (0x3fa, 0x3fa, 1, 1), (0x3fd, 0x3ff, -130, 1), (0x400, 0x40f, 80, 1), (0x410, 0x42f, 32, 1),
  (0x460, 0x480, 1, 2), (0x48a, 0x4be, 1, 2), (0x4c0, 0x4c0, 15, 1), (0x4c1, 0x4cd, 1, 2),
  (0x4d0, 0x52e, 1, 2), (0x531, 0x556, 48, 1), (0x10a0, 0x10c5, 7264, 1),
  (0x10c7, 0x10c7, 7264, 1), (0x10cd, 0x10cd, 7264, 1), (0x13a0, 0x13ef, 38864, 1),
  (0x13f0, 0x13f5, 8, 1), (0x1c90, 0x1cba, -3008, 1), (0x1cbd, 0x1cbf, -3008, 1),
  (0x1e00, 0x1e94, 1, 2), (0x1e9e, 0x1e9e, -7615, 1), (0x1ea0, 0x1efe, 1, 2),
  (0x1f08, 0x1f0f, -8, 1), (0x1f18, 0x1f1d, -8, 1), (0x1f28, 0x1f2f, -8, 1),
  (0x1f38, 0x1f3f, -8, 1), (0x1f48, 0x1f4d, -8, 1), (0x1f59, 0x1f5f, -8, 2),
  (0x1f68, 0x1f6f, -8, 1), (0x1f88, 0x1f8f, -8, 1), (0x1f98, 0x1f9f, -8, 1),
  (0x1fa8, 0x1faf, -8, 1), (0x1fb8, 0x1fb9, -8, 1), (0x1fba, 0x1fbb, -74, 1),
  (0x1fbc, 0x1fbc, -9, 1), (0x1fc8, 0x1fcb, -86, 1), (0x1fcc, 0x1fcc, -9, 1),
  (0x1fd8, 0x1fd9, -8, 1), (0x1fda, 0x1fdb, -100, 1), (0x1fe8, 0x1fe9, -8, 1),
  (0x1fea, 0x1feb, -112, 1), (0x1fec, 0x1fec, -7, 1), (0x1ff8, 0x1ff9, -128, 1),
  (0x1ffa, 0x1ffb, -126, 1), (0x1ffc, 0x1ffc, -9, 1), (0x2126, 0x2126, -7517, 1),
  (0x212a, 0x212a, -8383, 1), (0x212b, 0x212b, -8262, 1), (0x2132, 0x2132, 28, 1),
  (0x2160, 0x216f, 16, 1), (0x2183, 0x2183, 1, 1), (0x24b6, 0x24cf, 26, 1),
  (0x2c00, 0x2c2f, 48, 1), (0x2c60, 0x2c60, 1, 1), (0x2c62, 0x2c62, -10743, 1),
  (0x2c63, 0x2c63, -3814, 1), (0x2c64, 0x2c64, -10727, 1), (0x2c67, 0x2c6b, 1, 2),
  (0x2c6d, 0x2c6d, -10780, 1), (0x2c6e, 0x2c6e, -10749, 1), (0x2c6f, 0x2c6f, -10783, 1),
  (0x2c70, 0x2c70, -10782, 1), (0x2c72, 0x2c72, 1, 1), (0x2c75, 0x2c75, 1, 1),
  (0x2c7e, 0x2c7f, -10815, 1), (0x2c80, 0x2ce2, 1, 2), (0x2ceb, 0x2ced, 1, 2),
  (0x2cf2, 0x2cf2, 1, 1), (0xa640, 0xa66c, 1, 2), (0xa680, 0xa69a, 1, 2), (0xa722, 0xa72e, 1, 2),
  (0xa732, 0xa76e, 1, 2), (0xa779, 0xa77b, 1, 2), (0xa77d, 0xa77d, -35332, 1),
  (0xa77e, 0xa786, 1, 2), (0xa78b, 0xa78b, 1, 1), (0xa78d, 0xa78d, -42280, 1),
  (0xa790, 0xa792, 1, 2), (0xa796, 0xa7a8, 1, 2), (0xa7aa, 0xa7aa, -42308, 1),
  (0xa7ab, 0xa7ab, -42319, 1), (0xa7ac, 0xa7ac, -42315, 1), (0xa7ad, 0xa7ad, -42305, 1),
  (0xa7ae, 0xa7ae, -42308, 1), (0xa7b0, 0xa7b0, -42258, 1), (0xa7b1, 0xa7b1, -42282, 1),
  (0xa7b2, 0xa7b2, -42261, 1), (0xa7b3, 0xa7b3, 928, 1), (0xa7b4, 0xa7c2, 1, 2),
  (0xa7c4, 0xa7c4, -48, 1), (0xa7c5, 0xa7c5, -42307, 1), (0xa7c6, 0xa7c6, -35384, 1),
  (0xa7c7, 0xa7c9, 1, 2), (0xa7d0, 0xa7d0, 1, 1), (0xa7d6, 0xa7d8, 1, 2), (0xa7f5, 0xa7f5, 1, 1),
  (0xff21, 0xff3a, 32, 1), (0x10400, 0x10427, 40, 1), (0x104b0, 0x104d3, 40, 1),
  (0x10570, 0x1057a, 39, 1), (0x1057c, 0x1058a, 39, 1), (0x1058c, 0x10592, 39, 1),
  (0x10594, 0x10595, 39, 1), (0x10c80, 0x10cb2, 64, 1), (0x118a0, 0x118bf, 32, 1),
  (0x16e40, 0x16e5f, 32, 1), (0x1e900, 0x1e921, 34, 1)]

/-- Lower-case letters that are forms of each other. -/
def letterForms : List (List Nat) := [
  [0x69, 0x131], [0x73, 0x17f], [0xb5, 0x3bc], [0x345, 0x3b9, 0x1fbe], [0x390, 0x1fd3],
  [0x3b0, 0x1fe3], [0x3b2, 0x3d0], [0x3b5, 0x3f5], [0x3b8, 0x3d1], [0x3ba, 0x3f0], [0x3c0, 0x3d6],
  [0x3c1, 0x3f1], [0x3c2, 0x3c3], [0x3c6, 0x3d5], [0x432, 0x1c80], [0x434, 0x1c81],
  [0x43e, 0x1c82], [0x441, 0x1c83], [0x442, 0x1c84, 0x1c85], [0x44a, 0x1c86], [0x463, 0x1c87],
  [0x1c88, 0xa64b], [0x1e61, 0x1e9b], [0xfb05, 0xfb06]]

/-- The lower case of a code point, found by halving the table of capitals; the first argument
bounds the number of halvings. -/
def lowerFrom (n : Nat) : Nat → Nat → Nat → Nat
  | 0, _, _ => n
  | fuel + 1, lo, hi =>
    if lo < hi then
      let mid := (lo + hi) / 2
      match capitals[mid]? with
      | none => n
      | some (first, last, distance, step) =>
        if n < first then lowerFrom n fuel lo mid
        else if last < n then lowerFrom n fuel (mid + 1) hi
        else if (n - first) % step = 0 then ((n : Int) + distance).toNat
        else n
    else n

/-- The lower case of one letter, as a code point. -/
def lower (c : Char) : Nat :=
  if c.toNat < 128 then c.toLower.toNat else lowerFrom c.toNat capitals.size 0 capitals.size

/-- The lower-case letters that are other forms of a lower-case letter. -/
def formsOf (n : Nat) : List Nat := (letterForms.find? (·.contains n)).getD []

/-- Two letters are the same but for case and form. -/
def sameLetter (a b : Char) : Bool :=
  lower a == lower b || (formsOf (lower a)).contains (lower b)

/-- The lower case of the ASCII letters of a text; other characters stay. -/
def lowerAscii (t : Text) : Text := t.map Char.toLower

end DebtSurvey.Text
