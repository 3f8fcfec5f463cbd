import DebtSurvey.Workspace.Path

/-!
# File trees

A file tree holds files with their bytes and directories with their entries. A path is followed
segment by segment; every segment but the last must lead to a directory, even one that names
nothing.
-/

namespace DebtSurvey

/-- A file or a directory. -/
inductive Node where
  /-- A file. -/
  | file (bytes : List UInt8)
  /-- A directory with its named entries. -/
  | dir (entries : List (Text × Node))
deriving Inhabited

/-- Why a path leads to no file. -/
inductive PathError where
  /-- Nothing has the name. -/
  | notFound
  /-- A file stands where a directory is needed. -/
  | notADirectory
  /-- A directory stands where a file is needed. -/
  | isADirectory
  /-- The path holds a null character. -/
  | nullCharacter
deriving DecidableEq, Repr

namespace Node

/-- The entry of a name. -/
def lookup? (entries : List (Text × Node)) (name : Text) : Option Node :=
  (entries.find? (·.1 = name)).map (·.2)

/-- Give a name an entry, in place of the one it has. -/
def setEntry (entries : List (Text × Node)) (name : Text) (node : Node) : List (Text × Node) :=
  match entries with
  | [] => [(name, node)]
  | (n, old) :: rest => if n = name then (n, node) :: rest else (n, old) :: setEntry rest name node

/-- Follow segments from a node, with the directories above it. -/
def follow (above : List Node) (here : Node) : List Text → Except PathError Node
  | [] => .ok here
  | segment :: rest =>
    match here with
    | .file _ => .error .notADirectory
    | .dir entries =>
      if Path.isIdle segment then follow above here rest
      else if Path.isUp segment then
        match above with
        | [] => follow [] here rest
        | up :: above => follow above up rest
      else
        match lookup? entries segment with
        | none => .error .notFound
        | some next => follow (here :: above) next rest

/-- The node that an absolute path leads to. Other paths lead nowhere. -/
def at? (root : Node) (path : Text) : Except PathError Node :=
  if path.contains '\x00' then .error .nullCharacter
  else if Path.isAbsolute path then follow [] root (Path.segments path)
  else .error .notFound

/-- Whether a path leads to anything. -/
def hasPath (root : Node) (path : Text) : Bool := (root.at? path).toOption.isSome

/-- Whether a path leads to a directory. -/
def hasDirectory (root : Node) (path : Text) : Bool :=
  match root.at? path with
  | .ok (.dir _) => true
  | _ => false

/-- The bytes of the file that a path leads to. -/
def read (root : Node) (path : Text) : Except PathError (List UInt8) :=
  match root.at? path with
  | .ok (.file bytes) => .ok bytes
  | .ok (.dir _) => .error .isADirectory
  | .error e => .error e

/-- Put a node at the end of some names, with directories made on the way. -/
def plant (node : Node) : List Text → Node → Node
  | [], _ => node
  | name :: rest, here =>
    let entries := match here with
      | .dir entries => entries
      | .file _ => []
    .dir (setEntry entries name (plant node rest ((lookup? entries name).getD (.dir []))))

/-- Remove what stands at the end of some names. -/
def uproot : List Text → Node → Node
  | [], here => here
  | _, .file bytes => .file bytes
  | [name], .dir entries => .dir (entries.filter (·.1 ≠ name))
  | name :: rest, .dir entries =>
    match lookup? entries name with
    | none => .dir entries
    | some next => .dir (setEntry entries name (uproot rest next))

/-- Write a file into a directory that exists. -/
def write (root : Node) (path : Text) (bytes : List UInt8) : Except PathError Node :=
  let names := Path.names path
  match root.at? path with
  | .ok (.dir _) => .error .isADirectory
  | .ok (.file _) => .ok (plant (.file bytes) names root)
  | .error .notFound =>
    if root.hasDirectory (Path.ofNames (Path.lead path) names.dropLast) then
      .ok (plant (.file bytes) names root)
    else .error .notFound
  | .error e => .error e

end Node

end DebtSurvey
