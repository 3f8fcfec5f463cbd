import DebtSurvey.Proofs.Pieces
import DebtSurvey.Scan.Selection
import Mathlib.Data.List.Nodup

/-!
# Discovery lists every file once

A file system gives each entry of a directory a name of its own, and no name holds a slash. In such
a tree different files have different paths, so the files that a scan looks at are pairwise
different.

## Main results

* `Workspace.mem_pathsBelow_dir`: which paths lead to a file below a directory.
* `Workspace.listedOnce_pathsBelow`: no path below a node is listed twice.
* `Scan.nodup_of_sourceFiles`: no file of a scan is listed twice.
-/

namespace DebtSurvey

namespace Node

/-- Names that a file system allows: neither empty nor special, without slashes and nulls. -/
def isName (name : Text) : Bool :=
  !(Path.isIdle name || Path.isUp name || name.contains '/' || name.contains '\x00')

mutual

/-- Trees that a file system can hold: every directory names its entries differently. -/
def isWellFormed : Node → Bool
  | .file _ => true
  | .dir entries => decide (entries.map (·.1)).Nodup && areWellFormed entries

/-- Entries with names that a file system allows and trees that it can hold. -/
def areWellFormed : List (Text × Node) → Bool
  | [] => true
  | (name, node) :: rest => isName name && isWellFormed node && areWellFormed rest

end

/-- No name holds a slash. -/
theorem slash_notMem_of_isName {name : Text} (h : isName name) : '/' ∉ name := by
  simp only [isName, Bool.not_eq_true', Bool.or_eq_false_iff] at h
  simpa using h.1.2

/-- Entries are well formed when each of them is. -/
theorem areWellFormed_iff (entries : List (Text × Node)) :
    areWellFormed entries ↔ ∀ entry ∈ entries, isName entry.1 ∧ entry.2.isWellFormed := by
  induction entries with
  | nil => simp [areWellFormed]
  | cons entry rest ih =>
    obtain ⟨name, node⟩ := entry
    simp [areWellFormed, ih]

/-- A directory is well formed when its entries have different names and are well formed. -/
theorem isWellFormed_dir (entries : List (Text × Node)) :
    (Node.dir entries).isWellFormed ↔
      (entries.map (·.1)).Nodup ∧ ∀ entry ∈ entries, isName entry.1 ∧ entry.2.isWellFormed := by
  rw [isWellFormed, Bool.and_eq_true, decide_eq_true_eq, areWellFormed_iff]

/-- An entry that is looked up is one of the entries. -/
theorem mem_of_lookup? {entries : List (Text × Node)} {name : Text} {node : Node}
    (h : lookup? entries name = some node) : (name, node) ∈ entries := by
  obtain ⟨⟨n, found⟩, hfind, hnode⟩ := Option.map_eq_some_iff.mp h
  obtain rfl : n = name := by simpa using List.find?_some hfind
  obtain rfl : found = node := hnode
  exact List.mem_of_find?_eq_some hfind

/-- Following a path from a well-formed node leads to a well-formed node. -/
theorem isWellFormed_of_follow {above : List Node} {here node : Node} {segments : List Text}
    (hhere : here.isWellFormed) (habove : ∀ up ∈ above, up.isWellFormed)
    (h : follow above here segments = .ok node) : node.isWellFormed := by
  -- the directories above are needed as well, for a path may lead up again
  fun_induction follow above here segments with
  | case1 => cases h; exact hhere
  | case2 => cases h
  | case3 _ _ _ _ _ ih => exact ih hhere habove h
  | case4 _ _ _ _ _ ih => exact ih hhere (by simp) h
  | case5 _ _ _ _ _ up above ih =>
    exact ih (habove up (by simp)) (fun u hu => habove u (by simp [hu])) h
  | case6 => cases h
  | case7 above _ _ entries _ _ next hnext ih =>
    have hentry := ((isWellFormed_dir entries).mp hhere).2 _ (mem_of_lookup? hnext)
    refine ih hentry.2 (fun up hup => ?_) h
    rcases List.mem_cons.mp hup with rfl | hup
    · exact hhere
    · exact habove up hup

/-- What a path leads to in a well-formed tree is well formed. -/
theorem isWellFormed_of_at? {root node : Node} {path : Text} (hroot : root.isWellFormed)
    (h : root.at? path = .ok node) : node.isWellFormed := by
  unfold at? at h
  split at h
  · cases h
  · split at h
    · exact isWellFormed_of_follow hroot (by simp) h
    · cases h

end Node

namespace Workspace

/-- Putting entries in order keeps them. -/
theorem byName_perm {α : Type} (entries : List (Text × α)) : (byName entries).Perm entries :=
  List.mergeSort_perm entries _

/-- The files among some entries. -/
theorem mem_fileNames {entries : List (Text × Node)} {name : Text} {u : Unit} :
    (name, u) ∈ fileNames entries ↔ ∃ bytes, (name, Node.file bytes) ∈ entries := by
  induction entries with
  | nil => simp [fileNames]
  | cons entry rest ih =>
    obtain ⟨n, node⟩ := entry
    cases node with
    | file bytes =>
      simp only [fileNames, List.mem_cons, ih, Prod.mk.injEq, and_true, Node.file.injEq]
      constructor
      · rintro (rfl | ⟨b, hb⟩)
        · exact ⟨bytes, .inl ⟨rfl, rfl⟩⟩
        · exact ⟨b, .inr hb⟩
      · rintro ⟨b, ⟨rfl, rfl⟩ | hb⟩
        · exact .inl rfl
        · exact .inr ⟨b, hb⟩
    | dir inner => simp [fileNames, ih]

/-- The subdirectories that are looked into, and the files, which have no paths below them. -/
theorem mem_branches {entries : List (Text × Node)} {name : Text} {paths : List (List Text)} :
    (name, paths) ∈ branches entries ↔
      name ≠ gitName ∧ ∃ node, (name, node) ∈ entries ∧ paths = pathsBelow node := by
  induction entries with
  | nil => simp [branches]
  | cons entry rest ih =>
    obtain ⟨n, node⟩ := entry
    rw [branches]
    by_cases hgit : n = gitName
    · -- the entry is left out, and no other path can bear its name
      rw [if_pos hgit, ih]
      refine and_congr_right fun hname => ?_
      have hne : name ≠ n := fun h => hname (h.trans hgit)
      simp [hne]
    · rw [if_neg hgit, List.mem_cons, ih]
      constructor
      · rintro (h | ⟨hname, m, hm, hpaths⟩)
        · obtain ⟨rfl, rfl⟩ := Prod.mk.inj h
          exact ⟨hgit, node, by simp, rfl⟩
        · exact ⟨hname, m, by simp [hm], hpaths⟩
      · rintro ⟨hname, m, hm, rfl⟩
        rcases List.mem_cons.mp hm with h | hm
        · obtain ⟨rfl, rfl⟩ := Prod.mk.inj h
          exact .inl rfl
        · exact .inr ⟨hname, m, hm, rfl⟩

/-- A path leads to a file below a directory when it names a file of the directory, or leads on from
an entry that is not left out. -/
theorem mem_pathsBelow_dir {entries : List (Text × Node)} {path : List Text} :
    path ∈ pathsBelow (.dir entries) ↔
      (∃ name bytes, (name, Node.file bytes) ∈ entries ∧ path = [name]) ∨
        ∃ name node rest, (name, node) ∈ entries ∧ name ≠ gitName ∧ rest ∈ pathsBelow node ∧
          path = name :: rest := by
  rw [pathsBelow, List.mem_append]
  refine or_congr ?_ ?_
  · rw [List.mem_map]
    constructor
    · rintro ⟨⟨name, u⟩, hmem, rfl⟩
      obtain ⟨bytes, hbytes⟩ := mem_fileNames.mp ((byName_perm _).mem_iff.mp hmem)
      exact ⟨name, bytes, hbytes, rfl⟩
    · rintro ⟨name, bytes, hmem, rfl⟩
      exact ⟨(name, ()), (byName_perm _).mem_iff.mpr (mem_fileNames.mpr ⟨bytes, hmem⟩), rfl⟩
  · rw [List.mem_flatMap]
    constructor
    · rintro ⟨⟨name, paths⟩, hmem, hpath⟩
      obtain ⟨hname, node, hnode, rfl⟩ := mem_branches.mp ((byName_perm _).mem_iff.mp hmem)
      obtain ⟨rest, hrest, rfl⟩ := List.mem_map.mp hpath
      exact ⟨name, node, rest, hnode, hname, hrest, rfl⟩
    · rintro ⟨name, node, rest, hnode, hname, hrest, rfl⟩
      refine ⟨(name, pathsBelow node), ?_, List.mem_map.mpr ⟨rest, hrest, rfl⟩⟩
      exact (byName_perm _).mem_iff.mpr (mem_branches.mpr ⟨hname, node, hnode, rfl⟩)

/-- The names of files are among the names of the entries, in their order. -/
theorem fileNames_sublist (entries : List (Text × Node)) :
    ((fileNames entries).map (·.1)).Sublist (entries.map (·.1)) := by
  induction entries with
  | nil => simp [fileNames]
  | cons entry rest ih =>
    obtain ⟨name, node⟩ := entry
    cases node with
    | file bytes => simpa [fileNames] using ih
    | dir inner => simpa [fileNames] using ih.cons name

/-- The names of subdirectories are among the names of the entries, in their order. -/
theorem branches_sublist (entries : List (Text × Node)) :
    ((branches entries).map (·.1)).Sublist (entries.map (·.1)) := by
  induction entries with
  | nil => simp [branches]
  | cons entry rest ih =>
    obtain ⟨name, node⟩ := entry
    rw [branches]
    split
    · exact ih.cons name
    · simpa using ih

/-- Paths that are listed once each; none is empty, and all are made of names. -/
structure ListedOnce (paths : List (List Text)) : Prop where
  /-- No path is listed twice. -/
  nodup : paths.Nodup
  /-- No path is empty. -/
  ne_nil : ∀ path ∈ paths, path ≠ []
  /-- Every part of a path is a name. -/
  isName : ∀ path ∈ paths, ∀ name ∈ path, Node.isName name

section Directory

variable {entries : List (Text × Node)}

/-- The files of a directory itself have different paths, since their names differ. -/
theorem nodup_filePaths (hnames : (entries.map (·.1)).Nodup) :
    ((byName (fileNames entries)).map fun (name, ()) => [name]).Nodup := by
  have hfiles := hnames.sublist (fileNames_sublist entries)
  have hsorted := ((byName_perm (fileNames entries)).map (·.1)).nodup_iff.mpr hfiles
  -- a path of one name is told by its head
  refine List.Nodup.of_map List.head? ?_
  simpa [Function.comp_def] using hsorted.map fun _ _ h => Option.some.inj h

/-- The files below subdirectories have different paths: within one subdirectory they differ, and
two subdirectories have different names. -/
theorem nodup_deepPaths (hnames : (entries.map (·.1)).Nodup)
    (hbelow : ∀ entry ∈ entries, ListedOnce (pathsBelow entry.2)) :
    ((byName (branches entries)).flatMap fun (name, paths) => paths.map (name :: ·)).Nodup := by
  have hdirs := hnames.sublist (branches_sublist entries)
  have hsorted := ((byName_perm (branches entries)).map (·.1)).nodup_iff.mpr hdirs
  rw [List.nodup_flatMap]
  constructor
  · rintro ⟨name, paths⟩ hmem
    obtain ⟨-, node, hnode, rfl⟩ := mem_branches.mp ((byName_perm _).mem_iff.mp hmem)
    exact (hbelow _ hnode).nodup.map (List.cons_injective)
  · refine (List.pairwise_map.mp hsorted).imp fun {a b} hab => ?_
    show List.Disjoint (a.2.map (a.1 :: ·)) (b.2.map (b.1 :: ·))
    rw [List.disjoint_left]
    intro path ha hb
    obtain ⟨_, _, rfl⟩ := List.mem_map.mp ha
    obtain ⟨_, _, heq⟩ := List.mem_map.mp hb
    exact hab (List.cons.inj heq).1.symm

/-- A file of a directory itself has a path of one name, all others have longer ones. -/
theorem disjoint_filePaths_deepPaths
    (hbelow : ∀ entry ∈ entries, ListedOnce (pathsBelow entry.2)) :
    ((byName (fileNames entries)).map fun (name, ()) => [name]).Disjoint
      ((byName (branches entries)).flatMap fun (name, paths) => paths.map (name :: ·)) := by
  rw [List.disjoint_left]
  intro path hfile hdeep
  obtain ⟨⟨name, u⟩, -, rfl⟩ := List.mem_map.mp hfile
  obtain ⟨⟨dir, paths⟩, hmem, hpath⟩ := List.mem_flatMap.mp hdeep
  obtain ⟨-, node, hnode, rfl⟩ := mem_branches.mp ((byName_perm _).mem_iff.mp hmem)
  obtain ⟨rest, hrest, heq⟩ := List.mem_map.mp hpath
  exact (hbelow _ hnode).ne_nil rest hrest (List.cons.inj heq).2

/-- The paths below a directory are listed once when those below each of its entries are. -/
theorem listedOnce_dir (hnames : (entries.map (·.1)).Nodup)
    (hentries : ∀ entry ∈ entries, Node.isName entry.1)
    (hbelow : ∀ entry ∈ entries, ListedOnce (pathsBelow entry.2)) :
    ListedOnce (pathsBelow (.dir entries)) where
  nodup := by
    rw [pathsBelow, List.nodup_append']
    exact ⟨nodup_filePaths hnames, nodup_deepPaths hnames hbelow,
      disjoint_filePaths_deepPaths hbelow⟩
  ne_nil := by
    intro path hpath
    rcases mem_pathsBelow_dir.mp hpath with ⟨name, bytes, -, rfl⟩ | ⟨name, node, rest, -, -, -, rfl⟩
    · simp
    · simp
  isName := by
    intro path hpath
    rcases mem_pathsBelow_dir.mp hpath with
      ⟨name, bytes, hmem, rfl⟩ | ⟨name, node, rest, hmem, -, hrest, rfl⟩
    · simpa using hentries _ hmem
    · intro n hn
      rcases List.mem_cons.mp hn with rfl | hn
      · exact hentries _ hmem
      · exact (hbelow _ hmem).isName rest hrest n hn

end Directory

mutual

/-- The paths below a well-formed node are listed once. -/
theorem listedOnce_pathsBelow (node : Node) (h : node.isWellFormed) :
    ListedOnce (pathsBelow node) := by
  match node with
  | .file _ => exact ⟨by simp [pathsBelow], by simp [pathsBelow], by simp [pathsBelow]⟩
  | .dir entries =>
    obtain ⟨hnames, hentries⟩ := (Node.isWellFormed_dir entries).mp h
    exact listedOnce_dir hnames (fun entry hentry => (hentries entry hentry).1)
      (listedOnce_pathsBelow_of_mem entries hentries)

/-- The paths below each of some well-formed entries are listed once. -/
theorem listedOnce_pathsBelow_of_mem (entries : List (Text × Node))
    (h : ∀ entry ∈ entries, Node.isName entry.1 ∧ entry.2.isWellFormed) :
    ∀ entry ∈ entries, ListedOnce (pathsBelow entry.2) := by
  match entries with
  | [] => simp
  | (name, node) :: rest =>
    intro entry hentry
    rcases List.mem_cons.mp hentry with rfl | hentry
    · exact listedOnce_pathsBelow node (h (name, node) (by simp)).2
    · exact listedOnce_pathsBelow_of_mem rest (fun e he => h e (by simp [he])) entry hentry

end

/-- The files below a directory of a well-formed tree have different paths. -/
theorem nodup_filesBelow {root : Node} (hroot : root.isWellFormed) (directory : Text) :
    (filesBelow root directory).Nodup := by
  unfold filesBelow
  cases hnode : root.at? directory with
  | error e => exact List.nodup_nil
  | ok node =>
    have hlisted := listedOnce_pathsBelow node (Node.isWellFormed_of_at? hroot hnode)
    -- joining by slashes loses nothing, since no name holds one
    have hsplit : ∀ path ∈ pathsBelow node, Text.splitOn '/' (Text.join ['/'] path) = path := by
      intro path hpath
      refine Text.splitOn_join '/' (hlisted.ne_nil path hpath) fun name hname => ?_
      exact Node.slash_notMem_of_isName (hlisted.isName path hpath name hname)
    refine hlisted.nodup.map_on fun p hp q hq hpq => ?_
    rw [← hsplit p hp, ← hsplit q hq, hpq]

/-- Discovery lists no file twice. -/
theorem nodup_of_files [Glob.Dialect] {root : Node} (hroot : root.isWellFormed) {directory : Text}
    {excludes found : List Text} (h : files root directory excludes = .ok found) : found.Nodup := by
  unfold files at h
  cases hignored : ignorePatterns root directory with
  | error e => simp [hignored, bind, Except.bind] at h
  | ok ignored =>
    cases hexcluded : (Glob.parseLines excludes).mapError DiscoveryError.pattern with
    | error e => simp [hignored, hexcluded, bind, Except.bind] at h
    | ok excluded =>
      simp only [hignored, hexcluded, bind, Except.bind, pure, Except.pure, Except.ok.injEq] at h
      rw [← h]
      -- patterns only take files away
      exact (nodup_filesBelow hroot directory).filter _

end Workspace

namespace Scan

/-- A limit keeps files in their order. -/
theorem limitFiles_sublist (limit : Int) (files : List Text) :
    (limitFiles limit files).1.Sublist files := by
  unfold limitFiles
  split
  · exact List.take_sublist _ _
  · exact List.Sublist.refl _

/-- A scan of a well-formed tree looks at no file twice. -/
theorem nodup_of_sourceFiles [Glob.Dialect] {root : Node} (hroot : root.isWellFormed)
    {directory : Text} {settings : Settings} {files : List Text} {event : Option Event}
    (h : sourceFiles root directory settings = .ok (files, event)) : files.Nodup := by
  unfold sourceFiles at h
  cases hfound : Workspace.files root directory settings.excludes with
  | error e => simp [hfound, bind, Except.bind] at h
  | ok found =>
    simp only [hfound, bind, Except.bind, pure, Except.pure, Except.ok.injEq] at h
    have hlimited := limitFiles_sublist settings.fileLimit (found.filter isScanned)
    rw [h] at hlimited
    exact ((Workspace.nodup_of_files hroot hfound).filter _).sublist hlimited

end Scan

end DebtSurvey
