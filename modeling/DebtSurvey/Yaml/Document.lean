import DebtSurvey.Base64
import DebtSurvey.Datum
import DebtSurvey.Text.Newline
import DebtSurvey.Text.Utf8
import DebtSurvey.Yaml.Node

/-!
# The value of a document

The nodes of a document denote plain values, by their tags. The values of nested collections are
looked into level by level, so of several faults in one document the one nearest to the root counts,
and of those on one level the first.
-/

namespace DebtSurvey.Yaml

/-- Something that may fail, with the place of the fault in the order in which faults count. -/
abbrev Ranked (α : Type) := Except (Nat × Error) α

namespace Ranked

/-- Both of two things; of two faults the one that ranks lower counts, and the first of equals. -/
def both {α β : Type} : Ranked α → Ranked β → Ranked (α × β)
  | .ok a, .ok b => .ok (a, b)
  | .error e, .ok _ => .error e
  | .ok _, .error f => .error f
  | .error e, .error f => .error (if f.1 < e.1 then f else e)

/-- A fault of a given rank where there is nothing. -/
def orFault {α : Type} (rank : Nat) (cause : Error) : Option α → Ranked α
  | some a => .ok a
  | none => .error (rank, cause)

end Ranked

namespace Node

/-- The rank of a collection of the wrong form on a level. -/
def formRank (level : Nat) : Nat := 2 * level

/-- The rank of a fault in what a collection on a level holds. -/
def contentRank (level : Nat) : Nat := 2 * level + 1

/-- The value of a scalar with a tag for scalars. -/
def scalarValue (tag : Tag) (content : DocText) : Except Error Datum :=
  match tag with
  | .null => .ok .none
  | .str => .ok (.text content)
  | .bool =>
    match content.toText?.bind Tag.truth? with
    | some b => .ok (.bool b)
    | none => .error .unknownTruthValue
  | .int =>
    match content.toText? with
    | some t => (integerOf t).map fun n => .number (.int n)
    | none => .error .badNumber
  | .float =>
    match content.toText? with
    | some t => (floatOf t).map fun x => .number (.float x)
    | none => .error .badNumber
  | .binary =>
    match (content.toText?.filter fun t => t.all (·.toNat < 128)).bind Base64.decode? with
    | some bytes => .ok (.bytes bytes)
    | none => .error .malformed
  | .timestamp =>
    match content.toText?.bind fun t => Timestamp.parse? (Tag.withoutFinalNewline t) with
    | none => .error .badDate
    | some parts =>
      match parts.value? with
      | some (.inl date) => .ok (.date date)
      | some (.inr moment) => .ok (.moment moment)
      | none => .error .impossibleDate
  | _ => .error .malformed

/-- Whether values of a tag are written as scalars. -/
def isScalarTag : Tag → Bool
  | .null => true
  | .str => true
  | .bool => true
  | .int => true
  | .float => true
  | .binary => true
  | .timestamp => true
  | _ => false

/-- Whether values of a tag are collections. -/
def isCollectionTag : Tag → Bool
  | .omap => true
  | .pairs => true
  | .set => true
  | .seq => true
  | .map => true
  | _ => false

mutual

/-- The text of a node where a scalar is asked for: of a mapping, the text of its plain value. -/
def scalarText? : Node → Option DocText
  | .scalar _ content => some content
  | .mapping _ entries => plainValue? entries
  | _ => none

/-- The text of the plain value among some entries. -/
def plainValue? : List (Node × Node) → Option DocText
  | [] => none
  | (key, value) :: rest => if key.tag = .value then scalarText? value else plainValue? rest

end

/-- The entries of a mapping by way of keys that are merged, and its own entries. -/
abbrev Entries := List (Datum × Datum) × List (Datum × Datum)

/-- The map of some entries. -/
def mapOf (entries : Entries) : List (Datum × Datum) :=
  (entries.1 ++ entries.2).foldl (fun m (key, value) => Datum.setKey m key value) []

/-- The value of a reference to a collection around it, as far as it matters: a collection that is
not empty. -/
def enclosingValue (isMapping : Bool) : Datum :=
  if isMapping then .map [(.none, .none)] else .list [.none]

/-- The value of a node with a tag for scalars. -/
def scalarDatum (level : Nat) (tag : Tag) (node : Node) : Ranked Datum :=
  match scalarText? node, tag, node with
  | none, _, _ => .error (contentRank level, .malformed)
  | some _, .timestamp, .mapping .. => .error (contentRank level, .structuredDate)
  | some content, _, _ => (scalarValue tag content).mapError fun e => (contentRank level, e)

mutual

/-- The value of a node that a collection on a level holds. -/
def datum (level : Nat) : Node → Ranked Datum
  | .enclosing isMapping => .ok (enclosingValue isMapping)
  | .scalar tag content =>
    if isScalarTag tag then scalarDatum level tag (.scalar tag content)
    else .error (if isCollectionTag tag then formRank (level + 1) else contentRank level, .malformed)
  | .sequence tag items =>
    match tag with
    | .seq => (datums (level + 1) items).map .list
    | .omap => (pairData (level + 1) items).map .list
    | .pairs => (pairData (level + 1) items).map .list
    | tag =>
      .error
        (if isCollectionTag tag then formRank (level + 1) else contentRank level, .malformed)
  | .mapping tag entries =>
    match tag with
    | .map => (entryData (level + 1) entries).map fun e => .map (mapOf e)
    | .set => (entryData (level + 1) entries).map fun e => .set ((mapOf e).map (·.1))
    | tag =>
      if isScalarTag tag then scalarDatum level tag (.mapping tag entries)
      else
        .error
          (if isCollectionTag tag then formRank (level + 1) else contentRank level, .malformed)

/-- The values of the items of a sequence on a level. -/
def datums (level : Nat) : List Node → Ranked (List Datum)
  | [] => .ok []
  | item :: rest =>
    (Ranked.both (datum level item) (datums level rest)).map fun (item, rest) => item :: rest

/-- The values of a sequence of entries, each of which is a mapping of one entry. -/
def pairData (level : Nat) : List Node → Ranked (List Datum)
  | [] => .ok []
  | item :: rest =>
    let pair : Ranked Datum :=
      match item with
      | .mapping _ [(key, value)] =>
        (Ranked.both (datum level key) (datum level value)).map fun (k, v) => .list [k, v]
      | _ => .error (contentRank level, .malformed)
    (Ranked.both pair (pairData level rest)).map fun (item, rest) => item :: rest

/-- The entries of a mapping on a level. A key that merges is replaced by the entries of its value,
which stand before the mapping's own. A collection cannot be a key. -/
def entryData (level : Nat) : List (Node × Node) → Ranked Entries
  | [] => .ok ([], [])
  | (key, value) :: rest =>
    if key.tag = .merge then
      (Ranked.both (mergedData level value) (entryData level rest)).map
        fun (merged, others) => (merged ++ others.1, others.2)
    else
      let keyDatum : Ranked Datum := match key with
        | .scalar .value content => .ok (.text content)
        | key =>
          if isCollectionTag key.tag then .error (contentRank level, .malformed)
          else datum level key
      (Ranked.both (Ranked.both keyDatum (datum level value)) (entryData level rest)).map
        fun (own, others) => (others.1, own :: others.2)

/-- The entries that a merged value brings: a mapping its own, a sequence of mappings theirs, the last
mapping's first. -/
def mergedData (level : Nat) : Node → Ranked (List (Datum × Datum))
  | .enclosing true => .ok []
  | .mapping _ entries => (entryData level entries).map fun e => e.1 ++ e.2
  | .sequence _ items => (mergedItems level items).map fun parts => parts.reverse.flatten
  | _ => .error (formRank level, .malformed)

/-- The entries that each of several merged mappings brings. -/
def mergedItems (level : Nat) : List Node → Ranked (List (List (Datum × Datum)))
  | [] => .ok []
  | item :: rest =>
    let part : Ranked (List (Datum × Datum)) :=
      match item with
      | .enclosing true => .ok []
      | .mapping _ entries => (entryData level entries).map fun e => e.1 ++ e.2
      | _ => .error (formRank level, .malformed)
    (Ranked.both part (mergedItems level rest)).map fun (part, rest) => part :: rest

end

/-- The value of the root of a document. -/
def toDatum (root : Node) : Except Error Datum := (datum 0 root).mapError (·.2)

end Node

/-- Characters that a document may hold. -/
def isDocumentChar (c : Char) : Bool :=
  let n := c.toNat
  n == 9 || n == 10 || n == 13 || (0x20 ≤ n && n ≤ 0x7e) || n == 0x85 ||
    (0xa0 ≤ n && n ≤ 0xfffd) || 0x10000 ≤ n

/-- The value of a document; an empty one has no value. The lines of the text end in newlines. -/
def read (t : Text) : Except Error Datum :=
  if t.all isDocumentChar then
    match Node.ofTokens (Token.ofText t) with
    | .error e => .error e
    | .ok none => .ok .none
    | .ok (some root) => root.toDatum
  else .error .malformed

/-- The value of a document in UTF-8, with any ends of lines. -/
def readBytes (bytes : List UInt8) : Except Error Datum :=
  match Text.Utf8.decode? bytes with
  | none => .error .notUtf8
  | some t => read (Text.unifyNewlines t)

end DebtSurvey.Yaml
