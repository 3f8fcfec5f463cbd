import DebtSurvey.Text.Basic

/-!
# MD5 digests

The 128-bit digest of a list of bytes, written as 32 hexadecimal digits.
-/

namespace DebtSurvey.Digest

/-- The sixty-four additive constants, the whole parts of `2 ^ 32 * |sin i|`. -/
def sines : Array UInt32 := #[
  0xd76aa478, 0xe8c7b756, 0x242070db, 0xc1bdceee, 0xf57c0faf, 0x4787c62a, 0xa8304613, 0xfd469501,
  0x698098d8, 0x8b44f7af, 0xffff5bb1, 0x895cd7be, 0x6b901122, 0xfd987193, 0xa679438e, 0x49b40821,
  0xf61e2562, 0xc040b340, 0x265e5a51, 0xe9b6c7aa, 0xd62f105d, 0x02441453, 0xd8a1e681, 0xe7d3fbc8,
  0x21e1cde6, 0xc33707d6, 0xf4d50d87, 0x455a14ed, 0xa9e3e905, 0xfcefa3f8, 0x676f02d9, 0x8d2a4c8a,
  0xfffa3942, 0x8771f681, 0x6d9d6122, 0xfde5380c, 0xa4beea44, 0x4bdecfa9, 0xf6bb4b60, 0xbebfbc70,
  0x289b7ec6, 0xeaa127fa, 0xd4ef3085, 0x04881d05, 0xd9d4d039, 0xe6db99e5, 0x1fa27cf8, 0xc4ac5665,
  0xf4292244, 0x432aff97, 0xab9423a7, 0xfc93a039, 0x655b59c3, 0x8f0ccc92, 0xffeff47d, 0x85845dd1,
  0x6fa87e4f, 0xfe2ce6e0, 0xa3014314, 0x4e0811a1, 0xf7537e82, 0xbd3af235, 0x2ad7d2bb, 0xeb86d391]

/-- How far each step of a round rotates. -/
def rotations : Array UInt32 := #[7, 12, 17, 22, 5, 9, 14, 20, 4, 11, 16, 23, 6, 10, 15, 21]

/-- The four words that a digest is made of. -/
structure State where
  /-- The first word. -/
  a : UInt32
  /-- The second word. -/
  b : UInt32
  /-- The third word. -/
  c : UInt32
  /-- The fourth word. -/
  d : UInt32

/-- The state before any byte. -/
def State.initial : State := ⟨0x67452301, 0xefcdab89, 0x98badcfe, 0x10325476⟩

/-- A word rotated to the left. -/
def rotateLeft (x n : UInt32) : UInt32 := (x <<< n) ||| (x >>> (32 - n))

/-- Four bytes as a word, the least significant first. -/
def word (bytes : Array UInt8) (i : Nat) : UInt32 :=
  let byte (k : Nat) : UInt32 := ((bytes[i + k]?).getD 0).toUInt32
  byte 0 ||| (byte 1 <<< 8) ||| (byte 2 <<< 16) ||| (byte 3 <<< 24)

/-- One of the sixty-four steps on a block that starts at `offset`. -/
def step (bytes : Array UInt8) (offset : Nat) (s : State) (i : Nat) : State :=
  let round := i / 16
  let (mix, index) :=
    if round = 0 then ((s.b &&& s.c) ||| (~~~s.b &&& s.d), i)
    else if round = 1 then ((s.d &&& s.b) ||| (~~~s.d &&& s.c), (5 * i + 1) % 16)
    else if round = 2 then (s.b ^^^ s.c ^^^ s.d, (3 * i + 5) % 16)
    else (s.c ^^^ (s.b ||| ~~~s.d), 7 * i % 16)
  let sum := s.a + mix + (sines[i]?).getD 0 + word bytes (offset + 4 * index)
  ⟨s.d, s.b + rotateLeft sum ((rotations[4 * round + i % 4]?).getD 0), s.b, s.c⟩

/-- Take in the block that starts at `offset`. -/
def block (bytes : Array UInt8) (s : State) (offset : Nat) : State :=
  let t := (List.range 64).foldl (step bytes offset) s
  ⟨s.a + t.a, s.b + t.b, s.c + t.c, s.d + t.d⟩

/-- The bytes of a number, the least significant first. -/
def littleEndian (count n : Nat) : List UInt8 :=
  (List.range count).map fun i => UInt8.ofNat (n / Nat.pow 256 i % 256)

/-- Pad to whole blocks: a one bit, zeros, and the length in bits. -/
def pad (bytes : List UInt8) : List UInt8 :=
  bytes ++ 0x80 :: List.replicate ((119 - bytes.length % 64) % 64) 0 ++
    littleEndian 8 (8 * bytes.length)

/-- A byte as two hexadecimal digits. -/
def hexByte (b : UInt8) : Text := Text.padLeft 2 '0' (Nat.toDigits 16 b.toNat)

/-- The digest of some bytes, in hexadecimal. -/
def md5 (bytes : List UInt8) : Text :=
  let padded := (pad bytes).toArray
  let s := (List.range (padded.size / 64)).foldl (fun s i => block padded s (64 * i)) State.initial
  [s.a, s.b, s.c, s.d].flatMap fun w => (littleEndian 4 w.toNat).flatMap hexByte

end DebtSurvey.Digest
