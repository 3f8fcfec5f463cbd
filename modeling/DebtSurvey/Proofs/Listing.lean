import DebtSurvey.Proofs.Discovery
import Mathlib.Data.Char
import Mathlib.Data.List.Lex
import Mathlib.Data.List.Sort

/-!
# The order of files

The files of a workspace are listed in an order of their own. In every directory its own files come
first, by name, and then what is below its subdirectories, by the names of those. The list has each
file once that no test drops and that lies in no directory of version control data, at whatever
depth. Since the order leaves no choice, the list does not tell in which order a file system has the
entries of its directories.

## Main results

* `Workspace.mem_pathsBelow_iff`: which files are listed.
* `Workspace.ordered_pathsBelow`: in which order they are.
* `Node.Reordered.hasFile_iff`: the same files lie in trees whose entries are in another order.
* `Workspace.listsFiles_keptBy`: what the list of a workspace is, for any tests.
-/

namespace DebtSurvey

/-- The order by code point is the lexicographic one of characters. -/
theorem Text.le_iff (s t : Text) : Text.le s t ↔ s ≤ t := by
  rw [← not_lt]
  induction s generalizing t with
  | nil => simp [Text.le]
  | cons a s ih =>
    cases t with
    | nil => simp [Text.le]
    | cons b t =>
      rw [Text.le, List.cons_lt_cons_iff]
      rcases lt_trichotomy a b with hab | rfl | hba
      · have hval : a.val < b.val := hab
        simp [hval, hab.ne', not_lt_of_gt hab]
      · simp [ih]
      · have hval : b.val < a.val := hba
        have hnot : ¬a.val < b.val := not_lt_of_gt hba
        simp [hval, hnot, hba]

namespace Node

/-- Names that lead from a directory to a file. -/
inductive HasFile : Node → List Text → Prop
  /-- A file of the directory itself. -/
  | here {entries : List (Text × Node)} {name : Text} {bytes : List UInt8}
      (h : (name, .file bytes) ∈ entries) : HasFile (.dir entries) [name]
  /-- A file in or below a subdirectory. -/
  | inside {entries : List (Text × Node)} {name : Text} {node : Node} {path : List Text}
      (h : (name, node) ∈ entries) (hpath : node.HasFile path) :
      HasFile (.dir entries) (name :: path)

theorem HasFile.ne_nil {node : Node} {path : List Text} (h : node.HasFile path) : path ≠ [] := by
  cases h <;> simp

/-- A tree and the same one with the entries of some of its directories in another order. -/
inductive Reordered : Node → Node → Prop
  | refl (node : Node) : Reordered node node
  | trans {node other third : Node} (h : node.Reordered other) (h' : other.Reordered third) :
      Reordered node third
  /-- The entries of the directory itself are in another order. -/
  | entries {entries others : List (Text × Node)} (h : entries.Perm others) :
      Reordered (.dir entries) (.dir others)
  /-- So are those of directories below an entry. -/
  | inside {front back : List (Text × Node)} {name : Text} {node other : Node}
      (h : node.Reordered other) :
      Reordered (.dir (front ++ (name, node) :: back)) (.dir (front ++ (name, other) :: back))

namespace Reordered

variable {node other : Node}

theorem symm (h : node.Reordered other) : other.Reordered node := by
  induction h with
  | refl node => exact .refl node
  | trans _ _ ih ih' => exact .trans ih' ih
  | entries h => exact .entries h.symm
  | inside _ ih => exact .inside ih

theorem eq_file {bytes : List UInt8} (h : node.Reordered other) (hnode : node = .file bytes) :
    other = .file bytes := by
  induction h with
  | refl => exact hnode
  | trans _ _ ih ih' => exact ih' (ih hnode)
  | entries => cases hnode
  | inside => cases hnode

theorem hasFile {path : List Text} (h : node.Reordered other) (hpath : node.HasFile path) :
    other.HasFile path := by
  induction h generalizing path with
  | refl => exact hpath
  | trans _ _ ih ih' => exact ih' (ih hpath)
  | entries h =>
    cases hpath with
    | here hmem => exact .here (h.mem_iff.mp hmem)
    | inside hmem hbelow => exact .inside (h.mem_iff.mp hmem) hbelow
  | @inside front back name node other h ih =>
    -- the one entry that is another now has the name of the old one, and is a file just as that is
    have hentry {entry : Text × Node} (hmem : entry ∈ front ++ (name, node) :: back) :
        entry ∈ front ++ (name, other) :: back ∨ entry = (name, node) := by
      simp only [List.mem_append, List.mem_cons] at hmem ⊢
      tauto
    cases hpath with
    | here hmem =>
      rcases hentry hmem with hmem | heq
      · exact .here hmem
      · obtain ⟨rfl, rfl⟩ := Prod.mk.inj heq
        rw [h.eq_file rfl]
        exact .here (List.mem_append_right _ List.mem_cons_self)
    | inside hmem hbelow =>
      rcases hentry hmem with hmem | heq
      · exact .inside hmem hbelow
      · obtain ⟨rfl, rfl⟩ := Prod.mk.inj heq
        exact .inside (by simp) (ih hbelow)

/-- The same files lie in both trees. -/
theorem hasFile_iff (h : node.Reordered other) (path : List Text) :
    other.HasFile path ↔ node.HasFile path :=
  ⟨h.symm.hasFile, h.hasFile⟩

theorem isWellFormed (h : node.Reordered other) (hnode : node.isWellFormed) :
    other.isWellFormed := by
  induction h with
  | refl => exact hnode
  | trans _ _ ih ih' => exact ih' (ih hnode)
  | entries h =>
    rw [isWellFormed_dir] at hnode ⊢
    exact ⟨(h.map _).nodup_iff.mp hnode.1, fun entry hentry => hnode.2 entry (h.mem_iff.mpr hentry)⟩
  | inside _ ih =>
    rw [isWellFormed_dir] at hnode ⊢
    simp only [List.map_append, List.map_cons, List.forall_mem_append, List.forall_mem_cons]
      at hnode ⊢
    exact ⟨hnode.1, hnode.2.1, ⟨hnode.2.2.1.1, ih hnode.2.2.1.2⟩, hnode.2.2.2⟩

end Reordered

end Node

namespace Workspace

/-! ### Which files are listed -/

/-- Below a node those files are listed that lie in no directory of version control data. -/
theorem mem_pathsBelow_iff (node : Node) (path : List Text) :
    path ∈ pathsBelow node ↔ node.HasFile path ∧ gitName ∉ path.dropLast := by
  -- by recursion on the path, which every subdirectory makes shorter by a name
  cases node with
  | file bytes =>
    simp only [pathsBelow, List.not_mem_nil, false_iff, not_and]
    rintro ⟨⟩
  | dir entries =>
    rw [mem_pathsBelow_dir]
    constructor
    · rintro (⟨name, bytes, hmem, rfl⟩ | ⟨name, node, rest, hmem, hname, hrest, rfl⟩)
      · exact ⟨.here hmem, by simp⟩
      · obtain ⟨hfile, hgit⟩ := (mem_pathsBelow_iff node rest).mp hrest
        refine ⟨.inside hmem hfile, ?_⟩
        rw [List.dropLast_cons_of_ne_nil hfile.ne_nil, List.mem_cons, not_or]
        exact ⟨Ne.symm hname, hgit⟩
    · rintro ⟨hfile, hgit⟩
      cases hfile with
      | here hmem => exact .inl ⟨_, _, hmem, rfl⟩
      | @inside _ name node rest hmem hbelow =>
        rw [List.dropLast_cons_of_ne_nil hbelow.ne_nil, List.mem_cons, not_or] at hgit
        exact .inr ⟨name, node, rest, hmem, Ne.symm hgit.1,
          (mem_pathsBelow_iff node rest).mpr ⟨hbelow, hgit.2⟩, rfl⟩
termination_by path.length

/-! ### In which order -/

/-- One file comes before another. -/
inductive Precedes : List Text → List Text → Prop
  /-- Files of one directory are ordered by name. -/
  | files {name other : Text} (h : name < other) : Precedes [name] [other]
  /-- A file of a directory comes before everything in its subdirectories. -/
  | shallow {name directory next : Text} {rest : List Text} :
      Precedes [name] (directory :: next :: rest)
  /-- What is in different subdirectories of a directory is ordered by their names. -/
  | directories {name other next next' : Text} {rest rest' : List Text} (h : name < other) :
      Precedes (name :: next :: rest) (other :: next' :: rest')
  /-- What is in one subdirectory is ordered there. -/
  | inside {name : Text} {path path' : List Text} (h : Precedes path path') :
      Precedes (name :: path) (name :: path')

/-- Of two files at most one comes before the other. -/
instance : Std.Asymm Precedes where
  asymm path other h h' := by
    -- the other way round the same names are compared, or the paths are of the wrong lengths
    induction h with
    | files h =>
      cases h' with
      | files h' => exact lt_asymm h h'
      | inside h' => cases h'
    | shallow => cases h' with
      | inside h' => cases h'
    | directories h =>
      cases h' with
      | directories h' => exact lt_asymm h h'
      | inside => exact lt_irrefl _ h
    | inside h ih =>
      cases h' with
      | files h' => exact lt_irrefl _ h'
      | shallow => cases h
      | directories h' => exact lt_irrefl _ h'
      | inside h' => exact ih h'

/-- Named things that are put in order have ascending names, if their names differ. -/
theorem pairwise_byName {α : Type} {entries : List (Text × α)} (h : (entries.map (·.1)).Nodup) :
    (byName entries).Pairwise fun a b => a.1 < b.1 := by
  have hsorted : (byName entries).Pairwise fun a b => Text.le a.1 b.1 :=
    List.pairwise_mergeSort (by simp only [Text.le_iff]; exact fun _ _ _ => le_trans)
      (by simp only [Bool.or_eq_true, Text.le_iff]; exact fun a b => le_total a.1 b.1) entries
  have hnodup : ((byName entries).map (·.1)).Nodup := ((byName_perm entries).map _).nodup_iff.mpr h
  refine (hsorted.and (List.pairwise_map.mp hnodup)).imp fun {a b} hab => ?_
  exact lt_of_le_of_ne ((Text.le_iff a.1 b.1).mp hab.1) hab.2

/-- What is below a directory is in order, if what is below its entries is. -/
theorem ordered_dir {entries : List (Text × Node)} (hnames : (entries.map (·.1)).Nodup)
    (hbelow : ∀ entry ∈ entries, (pathsBelow entry.2).Pairwise Precedes) :
    (pathsBelow (.dir entries)).Pairwise Precedes := by
  have hfiles := pairwise_byName (hnames.sublist (fileNames_sublist entries))
  have hdirectories := pairwise_byName (hnames.sublist (branches_sublist entries))
  -- what is below a subdirectory has a path of at least two names
  have hdeep {branch : Text × List (List Text)} {path : List Text}
      (hbranch : branch ∈ byName (branches entries)) (hpath : path ∈ branch.2.map (branch.1 :: ·)) :
      ∃ next rest, path = branch.1 :: next :: rest := by
    obtain ⟨-, node, -, hpaths⟩ := mem_branches.mp ((byName_perm _).mem_iff.mp hbranch)
    obtain ⟨below, hmem, rfl⟩ := List.mem_map.mp hpath
    rw [hpaths] at hmem
    obtain ⟨next, rest, rfl⟩ :=
      List.exists_cons_of_ne_nil ((mem_pathsBelow_iff node below).mp hmem).1.ne_nil
    exact ⟨next, rest, rfl⟩
  rw [pathsBelow, List.pairwise_append]
  -- the files, what is in subdirectories, and the files before the latter
  refine ⟨?_, ?_, ?_⟩
  · exact List.pairwise_map.mpr (hfiles.imp fun h => .files h)
  · rw [List.pairwise_flatMap]
    constructor
    · rintro ⟨name, paths⟩ hbranch
      obtain ⟨-, node, hmem, rfl⟩ := mem_branches.mp ((byName_perm _).mem_iff.mp hbranch)
      exact List.pairwise_map.mpr ((hbelow _ hmem).imp fun h => .inside h)
    · refine hdirectories.imp_of_mem fun {a b} ha hb hab path hpath other hother => ?_
      obtain ⟨next, rest, rfl⟩ := hdeep ha hpath
      obtain ⟨next', rest', rfl⟩ := hdeep hb hother
      exact .directories hab
  · intro path hpath other hother
    obtain ⟨⟨name, u⟩, -, rfl⟩ := List.mem_map.mp hpath
    obtain ⟨branch, hbranch, hother⟩ := List.mem_flatMap.mp hother
    obtain ⟨next, rest, rfl⟩ := hdeep hbranch hother
    exact .shallow

mutual

/-- What is below a well-formed node is in order. -/
theorem ordered_pathsBelow (node : Node) (h : node.isWellFormed) :
    (pathsBelow node).Pairwise Precedes := by
  match node with
  | .file _ => simp [pathsBelow]
  | .dir entries =>
    obtain ⟨hnames, hentries⟩ := (Node.isWellFormed_dir entries).mp h
    exact ordered_dir hnames
      (ordered_pathsBelow_of_mem entries fun entry hentry => (hentries entry hentry).2)

/-- What is below each of some well-formed entries is in order. -/
theorem ordered_pathsBelow_of_mem (entries : List (Text × Node))
    (h : ∀ entry ∈ entries, entry.2.isWellFormed) :
    ∀ entry ∈ entries, (pathsBelow entry.2).Pairwise Precedes := by
  match entries with
  | [] => simp
  | (name, node) :: rest =>
    rw [List.forall_mem_cons] at h ⊢
    exact ⟨ordered_pathsBelow node h.1, ordered_pathsBelow_of_mem rest h.2⟩

end

/-! ### The list of a workspace -/

/-- The files of a workspace that neither of two tests drops. -/
def keptBy (root : Node) (directory : Text) (ignored excluded : Text → Bool) : List Text :=
  (filesBelow root directory).filter fun path => !(ignored path || excluded path)

/-- The files of a workspace are those that are kept when the tests are its patterns. -/
theorem files_eq_ok_iff [Glob.Dialect] {root : Node} {directory : Text}
    {excludes found : List Text} :
    files root directory excludes = .ok found ↔
      ∃ patterns patterns', ignorePatterns root directory = .ok patterns ∧
        Glob.parseLines excludes = .ok patterns' ∧
        found = keptBy root directory (Glob.Dialect.drops patterns)
          (Glob.Dialect.drops patterns') := by
  unfold files
  rcases ignorePatterns root directory with e | patterns
  · simp [bind, Except.bind]
  · rcases Glob.parseLines excludes with e | patterns'
    · simp [bind, Except.bind, Except.mapError]
    · simp [bind, Except.bind, pure, Except.pure, Except.mapError, keptFiles, keptBy, eq_comm]

/-- The list of the files below a node that neither of two tests drops. -/
structure ListsFiles (node : Node) (ignored excluded : Text → Bool) (paths : List Text) :
    Prop where
  /-- Those files are listed that lie in no directory of version control data. -/
  mem_iff : ∀ path, path ∈ paths ↔
    node.HasFile (Path.segments path) ∧ gitName ∉ (Path.segments path).dropLast ∧
      ¬ignored path ∧ ¬excluded path
  /-- No file is listed twice. -/
  nodup : paths.Nodup
  /-- The files of a directory come before what is below it, and both are ordered by names. -/
  ordered : paths.Pairwise fun path other => Precedes (Path.segments path) (Path.segments other)

section Listed

variable {root node : Node} {directory : Text}

/-- The files below a directory are the paths below its node, written out. -/
theorem map_segments_filesBelow (h : root.at? directory = .ok node) (hnode : node.isWellFormed) :
    (filesBelow root directory).map Path.segments = pathsBelow node := by
  have hlisted := listedOnce_pathsBelow node hnode
  rw [filesBelow, h]
  simp only [List.map_map]
  refine List.map_congr_left (fun path hpath => ?_) |>.trans (List.map_id _)
  exact Text.splitOn_join '/' (hlisted.ne_nil path hpath) fun name hname =>
    Node.slash_notMem_of_isName (hlisted.isName path hpath name hname)

theorem mem_filesBelow_iff (h : root.at? directory = .ok node) (hnode : node.isWellFormed)
    (path : Text) : path ∈ filesBelow root directory ↔ Path.segments path ∈ pathsBelow node := by
  rw [← map_segments_filesBelow h hnode, List.mem_map]
  constructor
  · exact fun hmem => ⟨path, hmem, rfl⟩
  · rintro ⟨other, hmem, hsegments⟩
    -- a path is the join of its segments
    rw [← Text.join_splitOn '/' path, show Text.splitOn '/' path = Path.segments path from rfl,
      ← hsegments, Path.segments, Text.join_splitOn]
    exact hmem

theorem listsFiles_self (h : root.at? directory = .ok node) (hnode : node.isWellFormed)
    (ignored excluded : Text → Bool) :
    ListsFiles node ignored excluded (keptBy root directory ignored excluded) where
  mem_iff path := by
    rw [keptBy, List.mem_filter, mem_filesBelow_iff h hnode, mem_pathsBelow_iff]
    simp [and_assoc]
  nodup := by
    refine List.Nodup.filter _ (List.Nodup.of_map Path.segments ?_)
    rw [map_segments_filesBelow h hnode]
    exact (listedOnce_pathsBelow node hnode).nodup
  ordered := by
    have hordered := ordered_pathsBelow node hnode
    rw [← map_segments_filesBelow h hnode, List.pairwise_map] at hordered
    exact hordered.filter _

/-- There is only one list of the files below a node that neither of two tests drops. -/
theorem ListsFiles.eq {ignored excluded : Text → Bool} {paths others : List Text} {other : Node}
    (hpaths : ListsFiles node ignored excluded paths)
    (hothers : ListsFiles other ignored excluded others)
    (hsame : ∀ path, other.HasFile path ↔ node.HasFile path) : others = paths := by
  have hasymm : Std.Asymm fun path other => Precedes (Path.segments path) (Path.segments other) :=
    ⟨fun path other => Std.Asymm.asymm (Path.segments path) (Path.segments other)⟩
  refine hothers.ordered.eq_of_mem_iff hpaths.ordered fun path => ?_
  rw [hothers.mem_iff, hpaths.mem_iff, hsame]

end Listed

/-- Whatever the tests are that drop files, those of a workspace are listed that neither test drops
and that lie in no directory of version control data: each once, the files of a directory before all
that is in its subdirectories, and both by the names of the directory's entries. The list is the
same wherever the entries of directories are in another order. What a scan looks through is such a
list, with the ignore patterns and the exclude patterns as tests. -/
theorem listsFiles_keptBy [Glob.Dialect] {root node : Node} {directory : Text}
    (h : root.at? directory = .ok node) (hnode : node.isWellFormed)
    (ignored excluded : Text → Bool) :
    ListsFiles node ignored excluded (keptBy root directory ignored excluded) ∧
    (∀ (root' node' : Node) (directory' : Text), root'.at? directory' = .ok node' →
      node.Reordered node' →
      keptBy root' directory' ignored excluded = keptBy root directory ignored excluded) ∧
    ∀ excludes found, files root directory excludes = .ok found ↔
      ∃ patterns patterns', ignorePatterns root directory = .ok patterns ∧
        Glob.parseLines excludes = .ok patterns' ∧
        found = keptBy root directory (Glob.Dialect.drops patterns)
          (Glob.Dialect.drops patterns') := by
  have hlists := listsFiles_self h hnode ignored excluded
  refine ⟨hlists, fun root' node' directory' h' hreordered => ?_, fun _ _ => files_eq_ok_iff⟩
  have hlists' := listsFiles_self h' (hreordered.isWellFormed hnode) ignored excluded
  exact hlists.eq hlists' hreordered.hasFile_iff

/-- A directory of files, of which one has the name of a directory of version control data. -/
def mixedEntries : List (Text × Node) :=
  [(".git", .file []), ("a.ts", .file []),
    ("src", .dir [(".git", .dir [("c.ts", .file [])]), ("a", .dir [("d.ts", .file [])]),
      ("b.ts", .file [])]),
    ("z.ts", .file [])]

/-- One file is dropped, one lies in a directory of version control data, and the others are listed
in their order wherever the entries come in another one. -/
theorem listsFiles_keptBy_mixed :
    let node : Node := .dir mixedEntries
    let node' : Node := .dir mixedEntries.reverse
    let ignored : Text → Bool := (· = "a.ts")
    let excluded : Text → Bool := fun _ => false
    (Node.dir [("w", node)]).at? "/w" = .ok node ∧ node.isWellFormed ∧
      (Node.dir [("w", node')]).at? "/w" = .ok node' ∧ node.Reordered node' ∧
      keptBy (.dir [("w", node)]) "/w" ignored excluded =
        [(".git" : Text), ("z.ts" : Text), ("src/b.ts" : Text), ("src/a/d.ts" : Text)] ∧
      ListsFiles node ignored excluded (keptBy (.dir [("w", node)]) "/w" ignored excluded) ∧
      keptBy (.dir [("w", node')]) "/w" ignored excluded =
        keptBy (.dir [("w", node)]) "/w" ignored excluded := by
  intro node node' ignored excluded
  have hat : (Node.dir [("w", node)]).at? "/w" = .ok node := rfl
  have hat' : (Node.dir [("w", node')]).at? "/w" = .ok node' := rfl
  have hnode : node.isWellFormed := by decide +kernel
  have hreordered : node.Reordered node' := .entries (List.reverse_perm mixedEntries).symm
  have hbelow : pathsBelow node =
      [[(".git" : Text)], [("a.ts" : Text)], [("z.ts" : Text)], [("src" : Text), ("b.ts" : Text)],
        [("src" : Text), ("a" : Text), ("d.ts" : Text)]] := by
    -- here the entries are in order already
    simp (disch := decide) only [node, mixedEntries, pathsBelow, fileNames, branches, byName,
      List.mergeSort_of_pairwise]
    rfl
  have hkept : keptBy (.dir [("w", node)]) "/w" ignored excluded =
      [(".git" : Text), ("z.ts" : Text), ("src/b.ts" : Text), ("src/a/d.ts" : Text)] := by
    simp only [keptBy, filesBelow, hat, hbelow]
    decide +kernel
  obtain ⟨hlists, hsame, -⟩ := listsFiles_keptBy hat hnode ignored excluded
  exact ⟨hat, hnode, hat', hreordered, hkept, hlists, hsame _ node' _ hat' hreordered⟩

end Workspace

end DebtSurvey
