import DebtSurvey.Workspace.Tree

/-!
# File trees with links

A link stands for the path that it holds, from the directory that it is in or from the top. To look
for what a path leads to is to follow the links on the way, at its end as well, and to give up after
too many. So a link may be an entry of a directory and still lead nowhere.

Files have no content here, since all that is asked is what exists.
-/

namespace DebtSurvey

/-- A file, a directory, or a link to a path. -/
inductive LinkTree where
  /-- A file. -/
  | file
  /-- A directory with its named entries. -/
  | dir (entries : List (Text × LinkTree))
  /-- A link to a path. -/
  | link (target : Text)
deriving Inhabited

namespace LinkTree

/-- The entry of a name. -/
def lookup? (entries : List (Text × LinkTree)) (name : Text) : Option LinkTree :=
  (entries.find? (·.1 = name)).map (·.2)

/-- Follow segments from a node, with the directories above it, up to the first link; `jump` goes on
from there, with the directories above, the one that the link is in, its target and what is left. -/
def walk (jump : List LinkTree → LinkTree → Text → List Text → Option LinkTree)
    (above : List LinkTree) (here : LinkTree) : List Text → Option LinkTree
  | [] => some here
  | segment :: rest =>
    match here with
    | .dir entries =>
      if Path.isIdle segment then walk jump above here rest
      else if Path.isUp segment then
        match above with
        | [] => walk jump [] here rest
        | up :: above => walk jump above up rest
      else
        match lookup? entries segment with
        | none => none
        | some (.link target) => jump above here target rest
        | some next => walk jump (here :: above) next rest
    | _ => none

/-- Follow segments from a node below `top` and the links on the way, at most so many. -/
def follow (top : LinkTree) : Nat → List LinkTree → LinkTree → List Text → Option LinkTree
  | 0 => walk fun _ _ _ _ => none
  | links + 1 => walk fun above here target rest =>
    let way := Path.segments target ++ rest
    if Path.isAbsolute target then follow top links [] top way else follow top links above here way

/-- How many links are followed on the way to one node. -/
def linkLimit : Nat := 40

/-- What an absolute path leads to. Other paths lead nowhere. -/
def at? (top : LinkTree) (path : Text) : Option LinkTree :=
  if path.contains '\x00' then none
  else if Path.isAbsolute path then follow top linkLimit [] top (Path.segments path)
  else none

/-- Whether a path leads to anything. -/
def hasPath (top : LinkTree) (path : Text) : Bool := (top.at? path).isSome

/-- Whether a path leads to a directory that has an entry of a name, whatever the entry is. -/
def hasEntry (top : LinkTree) (path name : Text) : Bool :=
  match top.at? path with
  | some (.dir entries) => (lookup? entries name).isSome
  | _ => false

mutual

/-- A tree without links. -/
def ofNode : Node → LinkTree
  | .file _ => .file
  | .dir entries => .dir (ofEntries entries)

/-- The entries of a directory of a tree without links. -/
def ofEntries : List (Text × Node) → List (Text × LinkTree)
  | [] => []
  | (name, node) :: rest => (name, ofNode node) :: ofEntries rest

end

end LinkTree

end DebtSurvey
