import DebtSurvey.Text.Basic

/-!
# UTF-8

Bytes are read from the front: either a character stands there, or a broken piece, which is the
longest beginning of some character that the bytes still agree with, and at least one byte. Strict
reading refuses broken pieces, lenient reading drops them.
-/

namespace DebtSurvey.Text.Utf8

/-- What stands at the front of some bytes, and how many bytes it takes. -/
inductive Front where
  /-- A character. -/
  | char (c : Char) (width : Nat)
  /-- A piece that is no character. -/
  | broken (width : Nat)

/-- Bytes that continue a character. -/
def isContinuation (b : UInt8) : Bool := 0x80 ≤ b && b < 0xc0

/-- The payload of a continuation byte. -/
def payload (b : UInt8) : Nat := b.toNat % 64

/-- Whether a byte may come second after the first byte of a character of three or four bytes. The
bounds exclude overlong forms, surrogates, and numbers beyond the last code point. -/
def isSecond (first second : UInt8) : Bool :=
  isContinuation second &&
    (first != 0xe0 || 0xa0 ≤ second) && (first != 0xed || second < 0xa0) &&
    (first != 0xf0 || 0x90 ≤ second) && (first != 0xf4 || second < 0x90)

/-- What stands at the front of the bytes `first :: rest`. -/
def front (first : UInt8) (rest : List UInt8) : Front :=
  if first < 0x80 then .char (Char.ofNat first.toNat) 1
  else if 0xc2 ≤ first && first < 0xe0 then
    match rest with
    | b :: _ =>
      if isContinuation b then .char (Char.ofNat (first.toNat % 32 * 64 + payload b)) 2
      else .broken 1
    | [] => .broken 1
  else if 0xe0 ≤ first && first < 0xf0 then
    match rest with
    | b :: c :: _ =>
      if !isSecond first b then .broken 1
      else if isContinuation c then
        .char (Char.ofNat ((first.toNat % 16 * 64 + payload b) * 64 + payload c)) 3
      else .broken 2
    | [b] => if isSecond first b then .broken 2 else .broken 1
    | [] => .broken 1
  else if 0xf0 ≤ first && first < 0xf5 then
    match rest with
    | b :: c :: d :: _ =>
      if !isSecond first b then .broken 1
      else if !isContinuation c then .broken 2
      else if isContinuation d then
        .char (Char.ofNat
          (((first.toNat % 8 * 64 + payload b) * 64 + payload c) * 64 + payload d)) 4
      else .broken 3
    | [b, c] =>
      if !isSecond first b then .broken 1 else if isContinuation c then .broken 3 else .broken 2
    | [b] => if isSecond first b then .broken 2 else .broken 1
    | [] => .broken 1
  else .broken 1

/-- Read bytes, dropping broken pieces. -/
def decodeLenient : List UInt8 → Text
  | [] => []
  | b :: rest =>
    match front b rest with
    | .char c width => c :: decodeLenient (rest.drop (width - 1))
    | .broken width => decodeLenient (rest.drop (width - 1))
termination_by bytes => bytes.length
decreasing_by all_goals simp only [List.length_drop, List.length_cons]; omega

/-- Read bytes; any broken piece refuses them. -/
def decode? : List UInt8 → Option Text
  | [] => some []
  | b :: rest =>
    match front b rest with
    | .char c width => (decode? (rest.drop (width - 1))).map (c :: ·)
    | .broken _ => none
termination_by bytes => bytes.length
decreasing_by all_goals simp only [List.length_drop, List.length_cons]; omega

/-- The bytes of a text. -/
def encode (t : Text) : List UInt8 := t.flatMap String.utf8EncodeChar

end DebtSurvey.Text.Utf8
