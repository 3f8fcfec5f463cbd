import DebtSurvey.Code.Function

/-!
# Import statements

The targets that a source text imports are found lexically: a quoted text after `from`, after
`import` with or without a parenthesis, or after `require` and a parenthesis. The two quotes of a
target need not be alike, and no quote occurs inside it.
-/

namespace DebtSurvey.Imports

open Code (skipBlanks skipGap? takeWord?)

/-- What introduces a target, at a place that no word character precedes. -/
def takeIntroduction? (t : Text) : Option Text :=
  match takeWord? "from" t, takeWord? "import" t, takeWord? "require" t with
  | some rest, _, _ => skipGap? rest
  | _, some rest, _ =>
    match skipBlanks rest with
    | '(' :: inside => some (skipBlanks inside)
    | after => some after
  | _, _, some rest =>
    match skipBlanks rest with
    | '(' :: inside => some (skipBlanks inside)
    | _ => none
  | none, none, none => none

/-- Both kinds of quote. -/
def isQuote (c : Char) : Bool := c == '\'' || c == '"'

/-- A quoted text that is not empty, and the text after it. -/
def takeQuoted? (t : Text) : Option (Text × Text) :=
  match t with
  | c :: rest =>
    if isQuote c then
      let target := rest.takeWhile (!isQuote ·)
      match rest.dropWhile (!isQuote ·) with
      | _ :: after => if target.isEmpty then none else some (target, after)
      | [] => none
    else none
  | [] => none

/-- The target that the statement at a place imports, and the text after it. -/
def takeTarget? (before : Option Char) (t : Text) : Option (Text × Text) :=
  if Text.wordBefore before then none else (takeIntroduction? t).bind takeQuoted?

/-- The targets from a place on; `skip` characters still belong to the last statement. -/
def targetsFrom : Option Char → Nat → Text → List Text
  | _, _, [] => []
  | _, skip + 1, c :: rest => targetsFrom (some c) skip rest
  | before, 0, c :: rest =>
    match takeTarget? before (c :: rest) with
    | none => targetsFrom (some c) 0 rest
    | some (target, after) => target :: targetsFrom (some c) (rest.length - after.length) rest

/-- The targets that a source text imports, in order. -/
def targets (source : Text) : List Text := targetsFrom none 0 source

end DebtSurvey.Imports
