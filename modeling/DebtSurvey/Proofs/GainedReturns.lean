import DebtSurvey.Proofs.Elsewhere
import DebtSurvey.Proofs.LineEnds

/-!
# Line ends do not matter to a scan

Any of the files of a tree may gain carriage returns in front of their newlines. Paths lead to the
same places as before, the source texts are the same, and so is the text of an ignore file; hence
the tree looks to a scan as it did, and the scan comes to the same.

## Main results

* `Node.GainsReturns`: trees of which the second has gained carriage returns.
* `Node.GainsReturns.at?`: a path leads to the same place in both.
* `Node.GainsReturns.looksLike`: a scan cannot tell them apart.
* `Scan.scan_of_gainsReturns`: a scan with line ends of either kind.
-/

namespace DebtSurvey

namespace Node

mutual

/-- Trees of which the second has gained carriage returns: some files without any have one in front
of every newline, and everything else is the same. -/
inductive GainsReturns : Node → Node → Prop
  /-- A file that stays what it is. -/
  | same (bytes : List UInt8) : GainsReturns (.file bytes) (.file bytes)
  /-- A file that had no carriage return in its text. -/
  | gain {bytes : List UInt8} (h : '\r' ∉ Text.Utf8.decodeLenient bytes) :
    GainsReturns (.file bytes) (.file (Text.Utf8.withReturns bytes))
  /-- A directory, entry by entry. -/
  | dir {entries entries' : List (Text × Node)} (h : EntriesGainReturns entries entries') :
    GainsReturns (.dir entries) (.dir entries')

/-- Entries of the same names, of which the second have gained carriage returns. -/
inductive EntriesGainReturns : List (Text × Node) → List (Text × Node) → Prop
  /-- No entries. -/
  | nil : EntriesGainReturns [] []
  /-- An entry and the others. -/
  | cons (name : Text) {node node' : Node} {rest rest' : List (Text × Node)}
    (first : GainsReturns node node') (others : EntriesGainReturns rest rest') :
    EntriesGainReturns ((name, node) :: rest) ((name, node') :: rest')

end

namespace EntriesGainReturns

variable {entries entries' : List (Text × Node)}

theorem names (h : EntriesGainReturns entries entries') :
    entries'.map (·.1) = entries.map (·.1) := by
  induction entries generalizing entries' with
  | nil =>
    cases h
    rfl
  | cons entry rest ih =>
    cases h with
    | cons name first others => exact congrArg (name :: ·) (ih others)

theorem fileNames (h : EntriesGainReturns entries entries') :
    Workspace.fileNames entries' = Workspace.fileNames entries := by
  induction entries generalizing entries' with
  | nil =>
    cases h
    rfl
  | cons entry rest ih =>
    cases h with
    | cons name first others => cases first <;> simp only [Workspace.fileNames, ih others]

theorem lookup? (h : EntriesGainReturns entries entries') (name : Text) :
    Option.Rel GainsReturns (Node.lookup? entries name) (Node.lookup? entries' name) := by
  induction entries generalizing entries' with
  | nil =>
    cases h
    exact .none
  | cons entry rest ih =>
    cases h with
    | cons n first others =>
      unfold Node.lookup?
      by_cases hname : n = name
      · rw [List.find?_cons_of_pos (by simpa using hname),
          List.find?_cons_of_pos (by simpa using hname)]
        exact .some first
      · rw [List.find?_cons_of_neg (by simpa using hname),
          List.find?_cons_of_neg (by simpa using hname)]
        exact ih others

end EntriesGainReturns

mutual

theorem isWellFormed_of_gainsReturns (node : Node) {node' : Node} (h : node.GainsReturns node') :
    node'.isWellFormed = node.isWellFormed := by
  match node, h with
  | .file _, .same _ => rfl
  | .file _, .gain _ => rfl
  | .dir entries, .dir h =>
    rw [isWellFormed, isWellFormed, h.names, areWellFormed_of_gainReturns entries h]

theorem areWellFormed_of_gainReturns (entries : List (Text × Node))
    {entries' : List (Text × Node)} (h : EntriesGainReturns entries entries') :
    areWellFormed entries' = areWellFormed entries := by
  match entries, h with
  | [], .nil => rfl
  | (name, node) :: rest, .cons _ first others =>
    rw [areWellFormed, areWellFormed, isWellFormed_of_gainsReturns node first,
      areWellFormed_of_gainReturns rest others]

end

end Node

namespace Workspace

mutual

theorem pathsBelow_of_gainsReturns (node : Node) {node' : Node} (h : node.GainsReturns node') :
    pathsBelow node' = pathsBelow node := by
  match node, h with
  | .file _, .same _ => rfl
  | .file _, .gain _ => rw [pathsBelow, pathsBelow]
  | .dir entries, .dir h =>
    rw [pathsBelow, pathsBelow, h.fileNames, branches_of_gainReturns entries h]

theorem branches_of_gainReturns (entries : List (Text × Node)) {entries' : List (Text × Node)}
    (h : Node.EntriesGainReturns entries entries') : branches entries' = branches entries := by
  match entries, h with
  | [], .nil => rfl
  | (name, node) :: rest, .cons _ first others =>
    rw [branches, branches, pathsBelow_of_gainsReturns node first,
      branches_of_gainReturns rest others]

end

end Workspace

namespace Node

/-- A path is followed to the same place in both trees, where the directories above are the same. -/
theorem GainsReturns.follow {above above' : List Node} {here here' : Node}
    (habove : List.Forall₂ GainsReturns above above') (hhere : here.GainsReturns here')
    (segments : List Text) :
    SameOutcome GainsReturns (Node.follow above here segments)
      (Node.follow above' here' segments) := by
  induction segments generalizing above above' here here' with
  | nil => exact hhere
  | cons segment rest ih =>
    cases hhere with
    | same bytes => rfl
    | gain h => rfl
    | @dir entries entries' h =>
      simp only [Node.follow]
      split
      · exact ih habove (.dir h)
      split
      · -- the way leads up, or nowhere from the top
        cases habove with
        | nil => exact ih .nil (.dir h)
        | cons hup habove => exact ih habove hup
      · have hentry := h.lookup? segment
        generalize Node.lookup? entries segment = found,
          Node.lookup? entries' segment = found' at hentry ⊢
        cases hentry with
        | none => rfl
        | some hnext => exact ih (.cons (.dir h) habove) hnext

variable {files files' : Node} (h : files.GainsReturns files')

include h

/-- A path leads to the same place in both trees. -/
theorem GainsReturns.at? (path : Text) :
    SameOutcome GainsReturns (files.at? path) (files'.at? path) := by
  unfold Node.at?
  split
  · rfl
  split
  · exact GainsReturns.follow .nil h _
  · rfl

theorem GainsReturns.hasPath (path : Text) : files'.hasPath path = files.hasPath path := by
  unfold Node.hasPath
  rcases (h.at? path).error_or_ok with ⟨e, hfiles, hfiles'⟩ | ⟨node, node', hfiles, hfiles', -⟩
  · rw [hfiles, hfiles']
  · rw [hfiles, hfiles']
    rfl

theorem GainsReturns.hasDirectory (path : Text) :
    files'.hasDirectory path = files.hasDirectory path := by
  unfold Node.hasDirectory
  rcases (h.at? path).error_or_ok with ⟨e, hfiles, hfiles'⟩ | ⟨node, node', hfiles, hfiles', hnode⟩
  · rw [hfiles, hfiles']
  · rw [hfiles, hfiles']
    cases hnode <;> rfl

/-- A file that is read in both trees is the same, or has gained carriage returns. -/
theorem GainsReturns.read (path : Text) :
    SameOutcome (fun bytes bytes' => bytes' = bytes ∨
        '\r' ∉ Text.Utf8.decodeLenient bytes ∧ bytes' = Text.Utf8.withReturns bytes)
      (files.read path) (files'.read path) := by
  unfold Node.read
  rcases (h.at? path).error_or_ok with ⟨e, hfiles, hfiles'⟩ | ⟨node, node', hfiles, hfiles', hnode⟩
  · rw [hfiles, hfiles']
    rfl
  · rw [hfiles, hfiles']
    cases hnode with
    | same bytes => exact .inl rfl
    | gain htext => exact .inr ⟨htext, rfl⟩
    | dir => rfl

/-- Source texts are the same in both trees. -/
theorem GainsReturns.source (path : Text) : Source.read files' path = Source.read files path := by
  unfold Source.read
  rcases (h.read path).error_or_ok with
    ⟨e, hfiles, hfiles'⟩ | ⟨bytes, bytes', hfiles, hfiles', hbytes⟩
  · rw [hfiles, hfiles']
  · rw [hfiles, hfiles']
    rcases hbytes with rfl | ⟨htext, rfl⟩
    · rfl
    · simp only [Source.ofBytes_withReturns htext]

/-- The patterns of an ignore file are the same in both trees. -/
theorem GainsReturns.ignorePatterns (directory : Text) :
    Workspace.ignorePatterns files' directory = Workspace.ignorePatterns files directory := by
  unfold Workspace.ignorePatterns
  simp only [h.hasPath]
  split
  · rcases (h.read (Path.append directory Workspace.ignoreName)).error_or_ok with
      ⟨e, hfiles, hfiles'⟩ | ⟨bytes, bytes', hfiles, hfiles', hbytes⟩
    · rw [hfiles, hfiles']
    · rw [hfiles, hfiles']
      rcases hbytes with rfl | ⟨htext, rfl⟩
      · rfl
      -- the text is refused in both trees, or is the same once its line ends are unified
      have hunified := Workspace.unified_withReturns htext
      simp only
      generalize Text.Utf8.decode? (Text.Utf8.withReturns bytes) = decoded',
        Text.Utf8.decode? bytes = decoded at hunified ⊢
      rcases decoded with _ | t <;> rcases decoded' with _ | t'
      · rfl
      · cases hunified
      · cases hunified
      · simp only [Option.some.inj hunified]
  · rfl

/-- The files below a directory are the same in both trees. -/
theorem GainsReturns.filesBelow (directory : Text) :
    Workspace.filesBelow files' directory = Workspace.filesBelow files directory := by
  unfold Workspace.filesBelow
  rcases (h.at? directory).error_or_ok with
    ⟨e, hfiles, hfiles'⟩ | ⟨node, node', hfiles, hfiles', hnode⟩
  · rw [hfiles, hfiles']
  · rw [hfiles, hfiles']
    exact congrArg (List.map _) (Workspace.pathsBelow_of_gainsReturns node hnode)

/-- A tree that has gained carriage returns looks to a scan as it did. -/
theorem GainsReturns.looksLike : files'.LooksLike files where
  hasPath := h.hasPath
  hasDirectory := h.hasDirectory
  source := h.source
  sourceFiles directory settings := by
    simp only [Scan.sourceFiles, Workspace.files, Workspace.keptFiles, h.ignorePatterns,
      h.filesBelow]

end Node

namespace Scan

/-- With carriage returns in front of the newlines of any of its files, a scan of a workspace looks
at the same files, counts the same imports, and comes to the same map or the same failure, whatever
the schedules. -/
theorem scan_of_gainsReturns (schedule schedule' : Schedule) (root : Text) (settings : Settings)
    {w : World} {files : Node} (hw : w.files.isWellFormed) (h : w.files.GainsReturns files) :
    (scan schedule' root settings { w with files }).1.map (·.1) =
        (scan schedule root settings w).1.map (·.1) ∧
      sourceFiles files root settings = sourceFiles w.files root settings ∧
      ∀ names, Imports.graph files root names = Imports.graph w.files root names := by
  have hfiles : files.isWellFormed := by rwa [Node.isWellFormed_of_gainsReturns w.files h]
  exact ⟨fst_scan_elsewhere schedule schedule' root settings hw hfiles h.looksLike,
    h.looksLike.sourceFiles root settings, h.looksLike.graph root⟩

/-- A workspace of one source. -/
def ofSource (bytes : List UInt8) : World where
  files := .dir [("w", .dir [("a.ts", .file bytes)])]

/-- A source with a marker in its second line and a function in its third. -/
def newlineEnded : List UInt8 :=
  Text.Utf8.encode "import './b'\n// TODO\nfunction f() \x7b\n\x7d\n"

/-- Settings under which every function is found. -/
def anyFunction : Settings := { bands := ⟨1, 1, 5, 5⟩ }

/-- With carriage returns the marker and the function are found on the lines where they were. -/
theorem scan_of_gainsReturns_newlineEnded :
    (ofSource newlineEnded).files.isWellFormed ∧
      (ofSource newlineEnded).files.GainsReturns
        (ofSource (Text.Utf8.withReturns newlineEnded)).files ∧
      ∃ map, (scan {} "/w" anyFunction (ofSource newlineEnded)).1.map (·.1) = .ok map ∧
        (scan ⟨[0], []⟩ "/w" anyFunction (ofSource (Text.Utf8.withReturns newlineEnded))).1.map
          (·.1) = .ok map ∧
        (map.findings.map fun f => (f.kind, f.line)) =
          [(.todo, some 2), (.complexity, some 3)] := by
  have hfiles : (ofSource newlineEnded).files.isWellFormed := by decide
  have htext : '\r' ∉ Text.Utf8.decodeLenient newlineEnded := by decide +kernel
  have hgains : (ofSource newlineEnded).files.GainsReturns
      (ofSource (Text.Utf8.withReturns newlineEnded)).files :=
    .dir (.cons _ (.dir (.cons _ (.gain htext) .nil)) .nil)
  have hsame := (scan_of_gainsReturns {} ⟨[0], []⟩ "/w" anyFunction hfiles hgains).1
  have hfound : ((scan {} "/w" anyFunction (ofSource newlineEnded)).1.map (·.1)).toOption.map
      (fun map => map.findings.map fun f => (f.kind, f.line)) =
        some [(.todo, some 2), (.complexity, some 3)] := by decide +kernel
  rcases hmap : (scan {} "/w" anyFunction (ofSource newlineEnded)).1.map (·.1) with e | map
  · rw [hmap] at hfound
    cases hfound
  · rw [hmap] at hfound hsame
    exact ⟨hfiles, hgains, map, hmap, hsame, Option.some.inj hfound⟩

end Scan

end DebtSurvey
