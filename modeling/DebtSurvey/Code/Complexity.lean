import DebtSurvey.Code.Occurrence
import DebtSurvey.Text.Blank
import DebtSurvey.Finding.Basic

/-!
# Cyclomatic complexity

The complexity of a piece of code is one more than the number of its decision points. The count is
lexical: strings and comments count too, and `else if` is both a decision point of its own and one
for its `if`.
-/

namespace DebtSurvey.Code

/-- The kinds of decision point. -/
inductive DecisionPoint where
  /-- A word of the language. -/
  | word (w : Text)
  /-- The words `else` and `if` with blanks between them. -/
  | elseIf
  /-- An operator. -/
  | operator (s : Text)

/-- The words `else` and `if` with at least one blank between them. -/
def elseIfWidth : Width := fun before t =>
  match wholeWord "else" before t with
  | 0 => 0
  | _ =>
    let gap := (t.drop 4).takeWhile Text.isBlank
    match wholeWord "if" gap.getLast? (t.drop (4 + gap.length)) with
    | 0 => 0
    | width => 4 + gap.length + width

/-- The width of a decision point. -/
def DecisionPoint.width : DecisionPoint → Width
  | .word w => wholeWord w
  | .elseIf => elseIfWidth
  | .operator s => symbol s

/-- All kinds of decision point. -/
def decisionPoints : List DecisionPoint :=
  [.word "if", .elseIf, .word "for", .word "while", .word "case", .word "catch", .operator "&&",
    .operator "||", .operator "?"]

/-- The cyclomatic complexity of a piece of code. -/
def complexity (code : Text) : Nat :=
  decisionPoints.foldl (fun n p => n + count p.width code) 1

/-- The complexities from which on a function is reported and counts as worse. The bounds need not
ascend. -/
structure Bands (α : Type) where
  /-- From here on a function is reported. -/
  low : α
  /-- From here on it is of medium severity. -/
  medium : α
  /-- From here on it is of high severity. -/
  high : α
  /-- From here on it is critical. -/
  critical : α
deriving DecidableEq, Repr, Inhabited

/-- The usual bands. -/
def Bands.standard : Bands Int := ⟨5, 10, 15, 25⟩

/-- The severity of a complexity: the worst band it reaches. -/
def Bands.severity {α : Type} [LE α] [DecidableLE α] (bands : Bands α) (score : α) : Severity :=
  if bands.critical ≤ score then .critical
  else if bands.high ≤ score then .high
  else if bands.medium ≤ score then .medium
  else .low

end DebtSurvey.Code
