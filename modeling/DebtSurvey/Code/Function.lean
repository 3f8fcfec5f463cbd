import DebtSurvey.Text.Blank
import DebtSurvey.Text.Word

/-!
# Functions in a source text

Functions of a brace-delimited language are found lexically. A head is `function name`, or a
constant or variable that is bound to a function or an arrow, or a name with parameters before an
opening brace. The body runs from the first opening brace at or after the start of the head to the
brace that closes it, or to the end of the text.
-/

namespace DebtSurvey.Code

/-- Drop blanks at the front. -/
def skipBlanks (t : Text) : Text := t.dropWhile Text.isBlank

/-- Drop one or more blanks at the front. -/
def skipGap? (t : Text) : Option Text :=
  match t with
  | c :: rest => if Text.isBlank c then some (skipBlanks rest) else none
  | [] => none

/-- Take a given word from the front. -/
def takeWord? (word t : Text) : Option Text :=
  if word.isPrefixOf t then some (t.drop word.length) else none

/-- The name at the front: one or more word characters, as many as there are. -/
def takeName? (t : Text) : Option (Text × Text) :=
  let name := t.takeWhile Text.isWord
  if name.isEmpty then none else some (name, t.dropWhile Text.isWord)

/-- Take parentheses from the front, up to the first closing one. -/
def takeParens? (t : Text) : Option Text :=
  match t with
  | '(' :: rest =>
    match rest.dropWhile (· ≠ ')') with
    | [] => none
    | _ :: after => some after
  | _ => none

/-- The head `function name`. -/
def declaredHead? (t : Text) : Option (Text × Text) := do
  takeName? (← skipGap? (← takeWord? "function" t))

/-- The words that introduce a binding. -/
def bindingWords : List Text := ["const", "let", "var"]

/-- A function or the parameters and arrow of one. -/
def boundFunction? (t : Text) : Option Text :=
  match takeWord? "function" t with
  | some after => some after
  | none => do takeWord? "=>" (skipBlanks (← takeParens? t))

/-- The head of a binding to a function, with or without `async`. -/
def boundHead? (t : Text) : Option (Text × Text) := do
  let (name, rest) ← takeName? (← skipGap? (← bindingWords.findSome? (takeWord? · t)))
  let value := skipBlanks (← takeWord? "=" (skipBlanks rest))
  let after ←
    match (takeWord? "async" value).bind skipGap? |>.bind boundFunction? with
    | some after => some after
    | none => boundFunction? value
  return (name, after)

/-- The head of a method or of any block after a name and parentheses. -/
def methodHead? (t : Text) : Option (Text × Text) := do
  let (name, rest) ← takeName? t
  let after ← takeWord? ['\x7b'] (skipBlanks (← takeParens? (skipBlanks rest)))
  return (name, after)

/-- The name of the head at the front of a text, and the text after the head. -/
def takeHead? (t : Text) : Option (Text × Text) :=
  declaredHead? t <|> boundHead? t <|> methodHead? t

/-- The rest of a body at a depth of braces, up to the brace that brings the depth to zero. -/
def closeBody : Nat → Text → Text
  | 0, _ => []
  | _ + 1, [] => []
  | depth + 1, c :: rest =>
    c :: closeBody (if c = '\x7b' then depth + 2 else if c = '\x7d' then depth else depth + 1) rest

/-- The body that starts at the first opening brace of a text, and how far away that is. -/
def takeBody? (t : Text) : Option (Nat × Text) :=
  let gap := t.takeWhile (· ≠ '\x7b')
  match t.dropWhile (· ≠ '\x7b') with
  | [] => none
  | brace :: rest => some (gap.length, brace :: closeBody 1 rest)

/-- A function found in a text. -/
structure Function where
  /-- Its name. -/
  name : Text
  /-- The line of its head, counted from one. -/
  line : Nat
  /-- How many characters stand before its head. -/
  headStart : Nat
  /-- How many characters stand before its body. -/
  bodyStart : Nat
  /-- Its body. -/
  body : Text
deriving DecidableEq, Repr

/-- Where the body ends. -/
def Function.bodyEnd (f : Function) : Nat := f.bodyStart + f.body.length

/-- The functions of a text that starts at a position and line; `skip` characters still belong to
the last head. A head without a body is passed over. -/
def functionsFrom (position line : Nat) : Nat → Text → List Function
  | _, [] => []
  -- Heads do not overlap, but a body may hold heads of its own.
  | skip + 1, c :: rest =>
    functionsFrom (position + 1) (if c = '\n' then line + 1 else line) skip rest
  | 0, c :: rest =>
    let next := if c = '\n' then line + 1 else line
    match takeHead? (c :: rest) with
    | none => functionsFrom (position + 1) next 0 rest
    | some (name, after) =>
      let others := functionsFrom (position + 1) next (rest.length - after.length) rest
      match takeBody? (c :: rest) with
      | none => others
      | some (gap, body) => ⟨name, line, position, position + gap, body⟩ :: others

/-- The functions of a source text, in the order of their heads. -/
def functions (source : Text) : List Function := functionsFrom 0 1 0 source

end DebtSurvey.Code
