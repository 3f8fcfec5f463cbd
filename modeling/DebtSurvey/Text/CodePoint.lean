import DebtSurvey.Text.Basic

/-!
# Document text

An escape in a JSON or YAML document can spell half of a surrogate pair. Such a half is a code point
but no character, so it can be kept and compared but never encoded. Document text is a list of code
points; it is a text exactly when no surrogate occurs in it.
-/

namespace DebtSurvey

/-- A code point of a document. -/
inductive CodePoint where
  /-- A Unicode scalar value. -/
  | scalar (c : Char)
  /-- A surrogate without its partner. -/
  | surrogate (value : Nat)
deriving DecidableEq, Repr, Inhabited

namespace CodePoint

/-- The number of a code point. -/
def value : CodePoint → Nat
  | .scalar c => c.toNat
  | .surrogate n => n

/-- The code point of a number, if there is one. -/
def ofNat? (n : Nat) : Option CodePoint :=
  if h : n.isValidChar then some (.scalar (Char.ofNatAux n h))
  else if 0xd800 ≤ n ∧ n < 0xe000 then some (.surrogate n)
  else none

end CodePoint

/-- The text of a document. -/
abbrev DocText := List CodePoint

namespace DocText

/-- A text as document text. -/
def ofText (t : Text) : DocText := t.map .scalar

/-- The text that document text spells, unless it holds a surrogate. -/
def toText? : DocText → Option Text
  | [] => some []
  | .scalar c :: rest => (toText? rest).map (c :: ·)
  | .surrogate _ :: _ => none

/-- The text with a character in the place of each surrogate. -/
def spell (placeholder : Char) : DocText → Text :=
  List.map fun
    | .scalar c => c
    | .surrogate _ => placeholder

/-- String literals may stand where document text is expected. -/
instance : Coe String DocText := ⟨fun s => ofText s.toList⟩

/-- A text is read back from its document text. -/
@[simp]
theorem toText?_ofText (t : Text) : toText? (ofText t) = some t := by
  induction t with
  | nil => rfl
  | cons c rest ih =>
    show (toText? (ofText rest)).map (c :: ·) = some (c :: rest)
    rw [ih]
    rfl

/-- A text has no place for the other character. -/
@[simp]
theorem spell_ofText (placeholder : Char) (t : Text) : spell placeholder (ofText t) = t := by
  rw [spell, ofText, List.map_map]
  exact List.map_id t

end DocText

end DebtSurvey
