import DebtSurvey.Text.Digit

/-!
# Command line arguments

Arguments are switches and operands. A switch may be cut short as long as no other one starts the
same, and one-letter switches may be put together. Behind a separator everything is an operand. The
first operand names the command, and what follows it belongs to the command.
-/

namespace DebtSurvey.CommandLine

/-- What a switch asks for. -/
inductive Switch where
  /-- To be told how the program is used. -/
  | help
  /-- To be told more. -/
  | verbose
  /-- The Markdown report. -/
  | markdown
  /-- The JSON report. -/
  | json
  /-- Not to be told of progress. -/
  | quiet
deriving DecidableEq, Repr

/-- Why nothing is done. -/
inductive Refusal where
  /-- Help was asked for. -/
  | help
  /-- The arguments make no sense. -/
  | misuse
deriving DecidableEq, Repr

/-- An operand; a separator that stands where an operand should leaves none. -/
abbrev Operand := Option Text

/-- What the program is asked to do. -/
inductive Request where
  /-- Scan a workspace. -/
  | scan (path : Operand) (switches : List Switch)
  /-- Scan one file of a workspace. -/
  | scanFile (path file : Operand)
deriving DecidableEq, Repr

/-- The separator. -/
def separator : Text := "--"

/-- An argument by its form. -/
inductive Word where
  /-- The separator. -/
  | separator
  /-- An operand. -/
  | operand (text : Text)
  /-- A switch, perhaps with an argument attached by an equals sign or directly. -/
  | switch (switch : Switch) (isLong : Bool) (attached : Option (Bool × Text))
  /-- A switch that is not known. -/
  | unknown
deriving DecidableEq, Repr

/-- The names of switches. -/
abbrev Names := List (Text × Switch)

/-- Whether a text is a negative number. -/
def isNegativeNumber (t : Text) : Bool :=
  match t with
  | '-' :: rest =>
    let rest := if rest.getLast? = some '\n' then rest.dropLast else rest
    let digits := rest.takeWhile Text.isDigit
    match rest.dropWhile Text.isDigit with
    | [] => !digits.isEmpty
    | '.' :: fraction => !fraction.isEmpty && fraction.all Text.isDigit
    | _ => false
  | _ => false

/-- Split at the first equals sign, if there is one. -/
def splitAttached (t : Text) : Text × Option Text :=
  let (name, attached) := Text.cut '=' t
  (name, if t.contains '=' then some attached else none)

/-- The switches that an argument in an unknown spelling may mean. -/
def candidates (names : Names) (t : Text) : List Word :=
  match t with
  | '-' :: '-' :: _ =>
    let (start, attached) := splitAttached t
    (names.filter fun (name, _) => start.isPrefixOf name).map fun (_, switch) =>
      .switch switch true (attached.map (true, ·))
  | _ =>
    (names.filter fun (name, _) => name == t.take 2).map fun (_, switch) =>
      .switch switch false (some (false, t.drop 2))

/-- The form of an argument in front of any separator, unless it could mean several switches. -/
def classify? (names : Names) (t : Text) : Option Word :=
  if t.head? ≠ some '-' then some (.operand t)
  else
    match names.lookup t with
    | some switch => some (.switch switch (t.drop 1 |>.head?.any (· == '-')) none)
    | none =>
      if t.length = 1 then some (.operand t)
      else
        let (start, attached) := splitAttached t
        -- A full name before an equals sign wins over names that only begin with it.
        match attached, names.lookup start with
        | some attached, some switch =>
          some (.switch switch (t.drop 1 |>.head?.any (· == '-')) (some (true, attached)))
        | _, _ =>
          match candidates names t with
          | [word] => some word
          -- One that could mean several switches makes no sense, whatever else is given.
          | _ :: _ :: _ => none
          | [] =>
            some (if isNegativeNumber t || t.contains ' ' then .operand t else .unknown)

/-- The forms of arguments; behind the separator all are operands. -/
def words? (names : Names) : List Text → Option (List Word)
  | [] => some []
  | t :: rest =>
    if t = separator then some (.separator :: rest.map .operand)
    else do
      let word ← classify? names t
      return word :: (← words? names rest)

/-- The switches put together behind a first one, and whether an unknown one is among them. What is
attached by an equals sign, or starts with a dash, is refused. -/
def together (names : Names) (isJoined : Bool) : Text → Except Refusal (List Switch × Bool)
  | [] => .error .misuse
  | c :: rest =>
    if isJoined || c = '-' then .error .misuse
    else
      match names.lookup ['-', c] with
      | none => .ok ([], true)
      | some switch =>
        match rest with
        | [] => .ok ([switch], false)
        | '=' :: _ => .error .misuse
        | rest => (together names false rest).map fun (more, extra) => (switch :: more, extra)

/-- The switches that a word stands for, and whether an unknown one is among them. -/
def switchesOf (names : Names) (switch : Switch) (isLong : Bool) (attached : Option (Bool × Text)) :
    Except Refusal (List Switch × Bool) :=
  match attached with
  | none => .ok ([switch], false)
  | some (isJoined, t) =>
    if isLong then .error .misuse
    else (together names isJoined t).map fun (more, extra) => (switch :: more, extra)

/-- The switches and operands met so far, and whether there was anything else. -/
structure Given where
  /-- The switches. -/
  switches : List Switch := []
  /-- The operands. -/
  operands : List Operand := []
  /-- Whether anything is left over. -/
  hasExtras : Bool := false

/-- Take note of switches; asking for help ends all else. -/
def Given.addSwitches (given : Given) (more : List Switch) (extra : Bool) :
    Except Refusal Given :=
  if more.contains .help then .error .help
  else
    .ok { given with
      switches := given.switches ++ more, hasExtras := given.hasExtras || extra }

/-- What stands before a word. -/
inductive Before where
  /-- An operand that was taken. -/
  | operand
  /-- The separator, in front of the operands it belongs to. -/
  | separator
  /-- Anything else. -/
  | other
deriving DecidableEq, Repr

/-- Go through the words of a command that takes some more operands. A separator belongs to the operand
before it, or else to the one behind it. -/
def walk (names : Names) (missing : Nat) (before : Before) (given : Given) :
    List Word → Except Refusal Given
  | [] => .ok { given with hasExtras := given.hasExtras || missing != 0 }
  | .separator :: rest =>
    match before, missing with
    | .operand, _ => walk names missing .other given rest
    | _, 0 => walk names missing .other { given with hasExtras := true } rest
    | _, _ => walk names missing .separator given rest
  | .operand t :: rest =>
    match missing with
    | 0 => walk names 0 .other { given with hasExtras := true } rest
    | missing + 1 =>
      let operand := if t = separator ∧ before ≠ .separator then none else some t
      walk names missing .operand { given with operands := given.operands ++ [operand] } rest
  | .unknown :: rest => walk names missing .other { given with hasExtras := true } rest
  | .switch switch isLong attached :: rest => do
    let (more, extra) ← switchesOf names switch isLong attached
    walk names missing .other (← given.addSwitches more extra) rest

/-- The switches of a scan of one file. -/
def fileNames : Names := [("-h", .help), ("--help", .help)]

/-- The switches in front of a command. -/
def mainNames : Names :=
  [("-h", .help), ("--help", .help), ("-v", .verbose), ("--verbose", .verbose)]

/-- The switches of a scan. -/
def scanNames : Names :=
  [("-h", .help), ("--help", .help), ("--markdown", .markdown), ("--json", .json),
    ("--no-progress", .quiet)]

/-- The request that the arguments of a command make. -/
def readCommand (name : Text) (arguments : List Text) : Except Refusal (Request × Bool) := do
  let form : Option (Names × Nat) :=
    if name = Text.ofString "scan" then some (scanNames, 1)
    else if name = Text.ofString "scan-file" then some (fileNames, 2)
    else none
  match form with
  | none => throw .misuse
  | some (names, count) =>
    match words? names arguments with
    | none => throw .misuse
    | some words =>
      let given ← walk names count .other {} words
      match given.operands with
      | [path] => return (.scan path given.switches, given.hasExtras)
      | [path, file] => return (.scanFile path file, given.hasExtras)
      | _ => throw .misuse

/-- Go through the words in front of the command and then read the command. -/
def readFrom (given : Given) : List Word → List Text → Except Refusal Request
  | .operand name :: _, _ :: arguments => do
    let (request, extra) ← readCommand name arguments
    if given.hasExtras || extra then throw .misuse else return request
  | .unknown :: words, _ :: rest => readFrom { given with hasExtras := true } words rest
  | .switch switch isLong attached :: words, _ :: rest => do
    let (more, extra) ← switchesOf mainNames switch isLong attached
    readFrom (← given.addSwitches more extra) words rest
  | _, _ => .error .misuse

/-- What arguments ask for. -/
def read (arguments : List Text) : Except Refusal Request :=
  match words? mainNames arguments with
  | none => .error .misuse
  | some words => readFrom {} words arguments

end DebtSurvey.CommandLine
