import DebtSurvey.Yaml.Lexer
import DebtSurvey.Yaml.Tag

/-!
# The tree of a document

Tokens make a tree of scalars, sequences and mappings, every node with a tag. A reference stands for
the node of its anchor; a reference to a collection from inside that collection is a node of its own.
The tokens must hold one document at most, and collections may stand inside each other up to a limit.
-/

namespace DebtSurvey.Yaml

/-- A node of a document. -/
inductive Node where
  /-- A scalar. -/
  | scalar (tag : Tag) (content : DocText)
  /-- A sequence. -/
  | sequence (tag : Tag) (items : List Node)
  /-- A mapping. -/
  | mapping (tag : Tag) (entries : List (Node × Node))
  /-- A reference to a mapping or sequence around it. -/
  | enclosing (isMapping : Bool)
deriving Inhabited

namespace Node

/-- Nothing where a node could stand. -/
def missing : Node := .scalar .null []

/-- The tag of a node. -/
def tag : Node → Tag
  | .scalar tag _ => tag
  | .sequence tag _ => tag
  | .mapping tag _ => tag
  | .enclosing isMapping => if isMapping then .map else .seq

/-! ### Reading a tree -/

/-- What is known while reading the tree of a document. -/
structure Context where
  /-- The tokens that are left. -/
  tokens : List Token
  /-- What tag handles mean. -/
  handles : List (Text × Text) := []
  /-- The nodes of anchors. -/
  anchors : List (Text × Node) := []
  /-- How many collections are around this place. -/
  level : Nat := 0

/-- How many collections may stand inside each other. Each of them takes two calls of the stack. -/
def nestingLimit : Nat := 485

/-- A part of the reading of a tree. -/
abbrev Reader := StateT Context (Except Error)

namespace Reader

/-- The next token. -/
def peek : Reader Token := do return (← get).tokens.headD .streamEnd

/-- Pass over the next token. -/
def pass : Reader Unit := modify fun c => { c with tokens := c.tokens.tail }

/-- Refuse the next token; where no token could be read, for the cause of that. -/
def refuse {α : Type} : Reader α := do
  match ← peek with
  | .broken cause => throw cause
  | _ => throw .malformed

/-- Pass over a token that must be there. -/
def expect (token : Token) : Reader Unit := do
  if (← peek) = token then pass else refuse

/-- Pass over a token if it is there. -/
def passIf (token : Token) : Reader Bool := do
  if (← peek) = token then
    pass
    return true
  else return false

/-- The node of an anchor. -/
def resolve (anchor : Text) : Reader Node := do
  match (← get).anchors.lookup anchor with
  | some node => return node
  | none => throw .malformed

/-- Let an anchor that is new stand for a node. -/
def bindNew (anchor : Option Text) (node : Node) : Reader Unit := do
  match anchor with
  | none => return
  | some name =>
    if ((← get).anchors.lookup name).isSome then throw .malformed
    modify fun c => { c with anchors := (name, node) :: c.anchors }

/-- Let an anchor stand for another node from now on. -/
def rebind (anchor : Option Text) (node : Node) : Reader Unit := do
  match anchor with
  | none => return
  | some name => modify fun c => { c with anchors := (name, node) :: c.anchors }

/-- The anchor at this place, if there is one. -/
def anchor? : Reader (Option Text) := do
  match ← peek with
  | .anchor name =>
    pass
    return some name
  | _ => return none

/-- The full name of the tag at this place, if there is one. -/
def tagName? : Reader (Option Text) := do
  match ← peek with
  | .tag none suffix =>
    pass
    return some suffix
  | .tag (some handle) suffix =>
    pass
    match (← get).handles.lookup handle with
    | some meaning => return some (meaning ++ suffix)
    | none => throw .malformed
  | _ => return none

/-- The anchor and the tag in front of a node, in either order. -/
def properties : Reader (Option Text × Option Text) := do
  match ← anchor? with
  | some anchor => return (some anchor, ← tagName?)
  | none =>
    let name ← tagName?
    return (← anchor?, name)

end Reader

/-- Where a node stands decides which collections it can be. -/
inductive Position where
  /-- Inside brackets. -/
  | flow
  /-- In a block. -/
  | block
  /-- Behind a key or colon in a block, where a sequence need not be indented. -/
  | beside
deriving DecidableEq, Repr

/-- Tokens before which a node is missing from a block. -/
def endsBlockNode : Token → Bool
  | .key => true
  | .value => true
  | .blockEnd => true
  | _ => false

/-- Tokens before which a node is missing from brackets. -/
def endsFlowNode (closing : Token) (token : Token) : Bool := token == .flowEntry || token == closing

namespace Reader

/-- Read the inside of a collection. -/
def inside {α : Type} (content : Reader α) : Reader α := do
  if nestingLimit ≤ (← get).level then throw .tooDeep
  modify fun c => { c with level := c.level + 1 }
  let a ← content
  modify fun c => { c with level := c.level - 1 }
  return a

/-- A sequence of items, which may refer to it. -/
def readSequence (anchor name : Option Text) (items : Reader (List Node)) : Reader Node := do
  bindNew anchor (.enclosing false)
  let node := Node.sequence (Tag.ofCollection name .seq) (← inside items)
  rebind anchor node
  return node

/-- A mapping of entries, which may refer to it. -/
def readMapping (anchor name : Option Text) (entries : Reader (List (Node × Node))) :
    Reader Node := do
  bindNew anchor (.enclosing true)
  let node := Node.mapping (Tag.ofCollection name .map) (← inside entries)
  rebind anchor node
  return node

end Reader

open Reader in
mutual

/-- The node at this place; the first argument bounds the recursion, here and below. -/
def read : Nat → Position → Reader Node
  | 0, _ => refuse
  | fuel + 1, position => do
    match ← peek with
    | .alias name =>
      pass
      resolve name
    | _ =>
      let (anchor, name) ← properties
      match ← peek, position with
      -- The dashes of a sequence that is not indented open no block of their own.
      | .blockEntry, .beside => readSequence anchor name (readBesideItems fuel)
      | .scalar isPlain content, _ =>
        pass
        let node := Node.scalar (Tag.ofScalar name isPlain content) content
        bindNew anchor node
        return node
      | .flowSequenceStart, _ =>
        pass
        readSequence anchor name (readFlowItems fuel true)
      | .flowMappingStart, _ =>
        pass
        readMapping anchor name (readFlowEntries fuel true)
      | .blockSequenceStart, .flow => refuse
      | .blockSequenceStart, _ =>
        pass
        readSequence anchor name (readBlockItems fuel)
      | .blockMappingStart, .flow => refuse
      | .blockMappingStart, _ =>
        pass
        readMapping anchor name (readBlockEntries fuel)
      | _, _ =>
        -- An anchor or a tag alone is an empty scalar.
        if anchor.isSome || name.isSome then
          let node := Node.scalar (Tag.ofScalar name true []) []
          bindNew anchor node
          return node
        else refuse

/-- The items of a block sequence, up to its end. -/
def readBlockItems : Nat → Reader (List Node)
  | 0 => refuse
  | fuel + 1 => do
    if ← passIf .blockEntry then
      let next ← peek
      let item ← if next = .blockEntry ∨ next = .blockEnd then pure missing else read fuel .block
      return item :: (← readBlockItems fuel)
    else
      expect .blockEnd
      return []

/-- The items of a sequence that is not indented; it ends where no item follows. -/
def readBesideItems : Nat → Reader (List Node)
  | 0 => refuse
  | fuel + 1 => do
    if ← passIf .blockEntry then
      let next ← peek
      let item ← if next = .blockEntry ∨ endsBlockNode next then pure missing else read fuel .block
      return item :: (← readBesideItems fuel)
    else return []

/-- A node of a block mapping, if it is there. -/
def readBesideNode : Nat → Reader Node
  | 0 => refuse
  | fuel + 1 => do
    if endsBlockNode (← peek) then return missing else read fuel .beside

/-- The entries of a block mapping, up to its end. -/
def readBlockEntries : Nat → Reader (List (Node × Node))
  | 0 => refuse
  | fuel + 1 => do
    if ← passIf .key then
      let key ← readBesideNode fuel
      let value ← if ← passIf .value then readBesideNode fuel else pure missing
      return (key, value) :: (← readBlockEntries fuel)
    else
      expect .blockEnd
      return []

/-- A node inside brackets, if it is there. -/
def readFlowNode : Nat → Token → Reader Node
  | 0, _ => refuse
  | fuel + 1, closing => do
    if endsFlowNode closing (← peek) then return missing else read fuel .flow

/-- The key and value of an entry inside brackets, behind the mark of the key. -/
def readFlowEntry : Nat → Token → Reader (Node × Node)
  | 0, _ => refuse
  | fuel + 1, closing => do
    let key ← if (← peek) = .value then pure missing else readFlowNode fuel closing
    let value ← if ← passIf .value then readFlowNode fuel closing else pure missing
    return (key, value)

/-- The items of a sequence in brackets, up to its end. An entry among them is a mapping of one
entry. -/
def readFlowItems : Nat → Bool → Reader (List Node)
  | 0, _ => refuse
  | fuel + 1, isFirst => do
    if ← passIf .flowSequenceEnd then return []
    if !isFirst then expect .flowEntry
    if ← passIf .flowSequenceEnd then return []
    let item ←
      if ← passIf .key then
        pure (Node.mapping .map [← inside (readFlowEntry fuel .flowSequenceEnd)])
      else read fuel .flow
    return item :: (← readFlowItems fuel false)

/-- The entries of a mapping in braces, up to its end. An item without a colon is a key. -/
def readFlowEntries : Nat → Bool → Reader (List (Node × Node))
  | 0, _ => refuse
  | fuel + 1, isFirst => do
    if ← passIf .flowMappingEnd then return []
    if !isFirst then expect .flowEntry
    if ← passIf .flowMappingEnd then return []
    let entry ←
      if ← passIf .key then readFlowEntry fuel .flowMappingEnd
      else
        let key ← read fuel .flow
        pure (key, missing)
    return entry :: (← readFlowEntries fuel false)

end

/-! ### Reading a document -/

/-- What tag handles mean without a directive. -/
def standardHandles : List (Text × Text) := [("!", "!"), ("!!", Tag.authority)]

open Reader in
/-- The directives of a document: at most one version, of which the first number must be one, and
every handle once. The first argument bounds their number. -/
def readDirectives : Nat → Bool → List (Text × Text) → Reader (List (Text × Text))
  | 0, _, _ => refuse
  | fuel + 1, hasVersion, handles => do
    match ← peek with
    | .version major =>
      pass
      if hasVersion || major != 1 then throw .malformed
      readDirectives fuel true handles
    | .handle name meaning =>
      pass
      if (handles.lookup name).isSome then throw .malformed
      readDirectives fuel hasVersion ((name, meaning) :: handles)
    | .directive =>
      pass
      readDirectives fuel hasVersion handles
    | _ => return handles

open Reader in
/-- Pass over the ends of documents. -/
def passEnds : Nat → Reader Unit
  | 0 => refuse
  | fuel + 1 => do
    if ← passIf .documentEnd then passEnds fuel

/-- Whether a token starts a document that says where it starts, or ends all documents. -/
def isExplicitStart : Token → Bool
  | .version _ => true
  | .handle .. => true
  | .directive => true
  | .documentStart => true
  | .streamEnd => true
  | _ => false

open Reader in
/-- The root of a document behind the marker of its start; it may be missing. -/
def readContent (fuel : Nat) : Reader Node := do
  let next ← peek
  if isExplicitStart next ∨ next = .documentEnd then return missing else read fuel .block

open Reader in
/-- The root of the only document, if there is one. -/
def readDocument (fuel : Nat) : Reader (Option Node) := do
  let next ← peek
  if next = .streamEnd then return none
  let root ←
    if isExplicitStart next then
      let handles ← readDirectives fuel false []
      modify fun c => { c with handles := handles ++ standardHandles }
      expect .documentStart
      readContent fuel
    else
      modify fun c => { c with handles := standardHandles }
      read fuel .block
  passEnds fuel
  expect .streamEnd
  return some root

/-- The root of the document that tokens make; none where there is no document. -/
def ofTokens (tokens : List Token) : Except Error (Option Node) :=
  -- Between two tokens there are at most four nested calls.
  (readDocument (4 * tokens.length + 4)).run' { tokens }

end Node

end DebtSurvey.Yaml
