import DebtSurvey.Analysis.Staleness
import DebtSurvey.Proofs.BlameOutput
import DebtSurvey.Proofs.SourceLines

/-!
# What stays on one line

A marker is reported with the line it is on, a function with its name, and both with an author from
the blame. None of these can hold a newline: lines end at newlines, names are made of word
characters, and the output of a blame is cut at every line break before it is read.

## Main results

* `Porcelain.isOneLine_author`: the authors in the rows of a blame.
* `Marker.isOneLine_of_mem_findings`, `Code.isOneLine_of_mem_complexityFindings`,
  `Staleness.isOneLine_of_finding?`: what readers are told about the findings of each kind but one.
-/

namespace DebtSurvey

namespace Text

/-- A text without a newline. -/
def IsOneLine (t : Text) : Prop := '\n' ∉ t

instance (t : Text) : Decidable (IsOneLine t) := inferInstanceAs (Decidable ('\n' ∉ t))

variable {s t : Text} {c : Char}

@[simp]
theorem isOneLine_nil : IsOneLine [] := List.not_mem_nil

@[simp]
theorem isOneLine_cons : IsOneLine (c :: t) ↔ c ≠ '\n' ∧ IsOneLine t := by
  simp [IsOneLine, eq_comm]

@[simp]
theorem isOneLine_append : IsOneLine (s ++ t) ↔ IsOneLine s ∧ IsOneLine t := by
  simp [IsOneLine]

/-- A part of a text on one line is on one line. -/
theorem IsOneLine.of_subset (h : t.IsOneLine) (hst : s ⊆ t) : s.IsOneLine := fun hs => h (hst hs)

/-- A newline is one of the characters that end a line. -/
theorem Unbroken.isOneLine (h : Unbroken t) : t.IsOneLine := fun hn => absurd (h _ hn) (by decide)

@[simp]
theorem isOneLine_ofNat (n : Nat) : IsOneLine (ofNat n) := (Porcelain.unbroken_ofNat n).isOneLine

@[simp]
theorem isOneLine_ofInt (n : Int) : IsOneLine (ofInt n) := (Porcelain.unbroken_ofInt n).isOneLine

/-- Trimming a text takes characters away. -/
theorem trim_subset (t : Text) : trim t ⊆ t := by
  intro c hc
  have hstart := List.dropWhile_subset _ (List.mem_reverse.mp hc)
  exact List.dropWhile_subset _ (List.mem_reverse.mp hstart)

/-- What is cut at every line break has none in it. -/
theorem unbroken_of_mem_breakLinesFrom {current piece : Text} (hcurrent : Unbroken current)
    (h : piece ∈ breakLinesFrom current t) : Unbroken piece := by
  -- the line being read is unbroken whenever it is ended
  have hreverse : ∀ {s : Text}, Unbroken s → Unbroken s.reverse := fun hs c hc =>
    hs c (List.mem_reverse.mp hc)
  fun_induction breakLinesFrom current t with
  | case1 current hempty => cases h
  | case2 current hempty =>
    obtain rfl := List.mem_singleton.mp h
    exact hreverse hcurrent
  | case3 current rest ih =>
    rcases List.mem_cons.mp h with rfl | hrest
    · exact hreverse hcurrent
    · exact ih (List.forall_mem_nil _) hrest
  | case4 current c rest hpair hbreak ih =>
    rcases List.mem_cons.mp h with rfl | hrest
    · exact hreverse hcurrent
    · exact ih (List.forall_mem_nil _) hrest
  | case5 current c rest hpair hbreak ih =>
    exact ih (unbroken_cons.mpr ⟨by simpa using hbreak, hcurrent⟩) h

end Text

/-! ### Authors -/

namespace Porcelain

/-- An author that a line names is on one line. -/
def Line.HasOneLineAuthor : Line → Prop
  | .author name => name.IsOneLine
  | _ => True

/-- The authors that are known while reading are each on one line. -/
structure Reading.HasOneLineAuthors (r : Reading) : Prop where
  commits : ∀ entry ∈ r.commits, entry.2.1.IsOneLine
  author : ∀ author, r.author = some author → author.IsOneLine

/-- What follows a label is part of the line. -/
theorem subset_of_afterLabel? {label t rest : Text} (h : afterLabel? label t = some rest) :
    rest ⊆ t := by
  unfold afterLabel? at h
  split at h
  · obtain rfl := Option.some.inj h
    exact List.drop_subset _ _
  · cases h

/-- An unbroken line names an author on one line, if any. -/
theorem hasOneLineAuthor_of_parse {t : Text} {line : Line} (ht : t.Unbroken)
    (h : Line.parse t = .ok line) : line.HasOneLineAuthor := by
  cases line with
  | author name =>
    unfold Line.parse at h
    split at h
    · cases h
    split at h
    · split at h <;> cases h
    · split at h
      · rename_i hname
        obtain rfl := Line.author.inj (Except.ok.inj h)
        exact ht.isOneLine.of_subset (subset_of_afterLabel? hname)
      · cases h
      · cases h
  | content | header _ _ | time _ | other => trivial

namespace Reading

variable {r : Reading}

/-- What is remembered of a commit has its author on one line. -/
theorem HasOneLineAuthors.of_known? (h : r.HasOneLineAuthors) {commit : Text} {known : Text × Int}
    (hknown : r.known? commit = some known) : known.1.IsOneLine := by
  obtain ⟨entry, hfind, rfl⟩ := Option.map_eq_some_iff.mp hknown
  exact h.commits entry (List.mem_of_find?_eq_some hfind)

/-- Settling a header keeps authors on one line, that of its row included. -/
theorem HasOneLineAuthors.settle (h : r.HasOneLineAuthors) :
    r.settle.1.HasOneLineAuthors ∧ ∀ row, r.settle.2 = some row → row.author.IsOneLine := by
  unfold Reading.settle
  split
  · rename_i commit line author timestamp _ _ hauthor _
    refine ⟨⟨fun entry hentry => ?_, h.author⟩, fun row hrow => ?_⟩
    · simp only at hentry
      split at hentry
      · exact h.commits entry hentry
      · -- the commit of the header is remembered with the author that is known
        rcases List.mem_append.mp hentry with hbefore | hnew
        · exact h.commits entry hbefore
        · obtain rfl := List.mem_singleton.mp hnew
          exact h.author _ hauthor
    · simp only at hrow
      split at hrow
      · cases hrow
      · obtain rfl := Option.some.inj hrow
        exact h.author _ hauthor
  · exact ⟨h, nofun⟩

/-- Taking in a line keeps authors on one line, if the line does. -/
theorem HasOneLineAuthors.step (h : r.HasOneLineAuthors) {line : Line}
    (hline : line.HasOneLineAuthor) :
    (r.step line).1.HasOneLineAuthors ∧
      ∀ row, (r.step line).2 = some row → row.author.IsOneLine := by
  cases line with
  | content => exact ⟨h, nofun⟩
  | other => exact ⟨h, nofun⟩
  | header commit line =>
    refine settle ⟨h.commits, fun author hauthor => ?_⟩
    obtain ⟨known, hknown, rfl⟩ := Option.map_eq_some_iff.mp hauthor
    exact h.of_known? hknown
  | author name =>
    refine settle ⟨h.commits, ?_⟩
    rintro _ ⟨⟩
    exact hline
  | time seconds =>
    cases seconds with
    | none => exact ⟨h, nofun⟩
    | some seconds => exact settle ⟨h.commits, h.author⟩

/-- The rows that come of lines have authors on one line, if the lines do. -/
theorem HasOneLineAuthors.rows (h : r.HasOneLineAuthors) {lines : List Line}
    (hlines : ∀ line ∈ lines, line.HasOneLineAuthor) :
    ∀ row ∈ r.rows lines, row.author.IsOneLine := by
  induction lines generalizing r with
  | nil => exact List.forall_mem_nil _
  | cons line lines ih =>
    rw [List.forall_mem_cons] at hlines
    obtain ⟨hnext, hfirst⟩ := h.step hlines.1
    rw [rows_cons]
    intro row hrow
    rcases List.mem_append.mp hrow with hmem | hmem
    · exact hfirst row (Option.mem_toList.mp hmem)
    · exact ih hnext hlines.2 row hmem

end Reading

/-- What is read of texts is read of each of them. -/
theorem exists_parse_of_mem {texts : List Text} {lines : List Line}
    (h : texts.mapM Line.parse = .ok lines) :
    ∀ line ∈ lines, ∃ t ∈ texts, Line.parse t = .ok line := by
  have hread := mapM_parse_iff.mp h
  clear h
  induction hread with
  | nil => exact List.forall_mem_nil _
  | cons hfirst _ ih =>
    rw [List.forall_mem_cons]
    refine ⟨⟨_, List.mem_cons_self, hfirst⟩, fun line hline => ?_⟩
    obtain ⟨t, ht, hparse⟩ := ih line hline
    exact ⟨t, List.mem_cons_of_mem _ ht, hparse⟩

/-- The rows of a blame have their authors on one line. -/
theorem isOneLine_author {output : Text} {rows : List BlameRow} (h : parse output = .ok rows) :
    ∀ row ∈ rows, row.author.IsOneLine := by
  obtain ⟨lines, hlines, rfl⟩ := parse_eq_ok_iff.mp h
  have hnothing : Reading.HasOneLineAuthors {} :=
    ⟨List.forall_mem_nil _, fun _ hnone => nomatch hnone⟩
  refine hnothing.rows fun line hline => ?_
  obtain ⟨t, ht, hparse⟩ := exists_parse_of_mem hlines line hline
  exact hasOneLineAuthor_of_parse
    (Text.unbroken_of_mem_breakLinesFrom (List.forall_mem_nil _) ht) hparse

/-- The author of a line is on one line. -/
theorem isOneLine_of_rowOf? {rows : List BlameRow} (hrows : ∀ row ∈ rows, row.author.IsOneLine)
    {line : Int} {author : Text} (h : (rowOf? rows line).map (·.author) = some author) :
    author.IsOneLine := by
  obtain ⟨row, hrow, rfl⟩ := Option.map_eq_some_iff.mp h
  exact hrows row (List.mem_reverse.mp (List.mem_of_find?_eq_some hrow))

end Porcelain

/-! ### What readers are told -/

namespace Marker

/-- What is said about a marker, and who wrote it, is on one line, if the blame has its authors so. -/
theorem isOneLine_of_mem_findings {words : List Text} {file source : Text} {rows : List BlameRow}
    {clock : Int} {f : Finding} (hrows : ∀ row ∈ rows, row.author.IsOneLine)
    (hf : f ∈ findings words file source rows clock) :
    f.message.IsOneLine ∧ ∀ author, f.author = some author → author.IsOneLine := by
  obtain ⟨n, line, hline, -, rfl⟩ := mem_findings.mp hf
  have hmem : line ∈ Text.lines source := List.mem_of_getElem? hline
  have honeLine : line.IsOneLine := Text.notMem_of_mem_splitOn hmem
  refine ⟨honeLine.of_subset (Text.trim_subset line), fun author hauthor => ?_⟩
  exact Porcelain.isOneLine_of_rowOf? hrows hauthor

end Marker

namespace Code

/-- A name is made of word characters. -/
theorem isWord_of_takeName? {t name rest : Text} (h : takeName? t = some (name, rest)) :
    ∀ c ∈ name, Text.isWord c := by
  unfold takeName? at h
  simp only at h
  split at h
  · cases h
  · obtain ⟨rfl, -⟩ := Prod.mk.inj (Option.some.inj h)
    exact fun c => List.mem_takeWhile_imp

theorem isWord_of_declaredHead? {t name after : Text} (h : declaredHead? t = some (name, after)) :
    ∀ c ∈ name, Text.isWord c := by
  simp only [declaredHead?, Option.bind_eq_bind, Option.bind_eq_some_iff] at h
  obtain ⟨_, -, _, -, hname⟩ := h
  exact isWord_of_takeName? hname

theorem isWord_of_boundHead? {t name after : Text} (h : boundHead? t = some (name, after)) :
    ∀ c ∈ name, Text.isWord c := by
  simp only [boundHead?, Option.bind_eq_bind, Option.pure_def, Option.bind_eq_some_iff] at h
  obtain ⟨_, -, _, -, ⟨found, _⟩, hname, _, -, h⟩ := h
  -- with or without `async`, the name is the one that was found
  obtain rfl : found = name := by
    split at h
    · exact (Prod.mk.inj (Option.some.inj h)).1
    · obtain ⟨_, -, h⟩ := Option.bind_eq_some_iff.mp h
      exact (Prod.mk.inj (Option.some.inj h)).1
  exact isWord_of_takeName? hname

theorem isWord_of_methodHead? {t name after : Text} (h : methodHead? t = some (name, after)) :
    ∀ c ∈ name, Text.isWord c := by
  simp only [methodHead?, Option.bind_eq_bind, Option.pure_def, Option.bind_eq_some_iff] at h
  obtain ⟨⟨found, _⟩, hname, _, -, _, -, h⟩ := h
  obtain ⟨rfl, -⟩ := Prod.mk.inj (Option.some.inj h)
  exact isWord_of_takeName? hname

/-- The name in a head is made of word characters. -/
theorem isWord_of_takeHead? {t name after : Text} (h : takeHead? t = some (name, after)) :
    ∀ c ∈ name, Text.isWord c := by
  simp only [takeHead?, Option.orElse_eq_orElse, Option.orElse_eq_or, Option.or_eq_some_iff] at h
  obtain hdeclared | ⟨-, hbound | ⟨-, hmethod⟩⟩ := h
  · exact isWord_of_declaredHead? hdeclared
  · exact isWord_of_boundHead? hbound
  · exact isWord_of_methodHead? hmethod

/-- What is said about a function of a source, and who wrote it, is on one line, if the blame has its
authors so. -/
theorem isOneLine_of_mem_complexityFindings {bands : Bands Int} {file source : Text}
    {rows : List BlameRow} {clock : Int} {f : Finding}
    (hrows : ∀ row ∈ rows, row.author.IsOneLine)
    (hf : f ∈ complexityFindings bands file (functions source) rows clock) :
    f.message.IsOneLine ∧ ∀ author, f.author = some author → author.IsOneLine := by
  obtain ⟨function, hfunction, -, rfl⟩ := mem_complexityFindings.mp hf
  obtain ⟨-, after, hhead⟩ := head_of_mem hfunction
  have hname : function.name.IsOneLine := fun hn =>
    absurd (isWord_of_takeHead? hhead _ hn) (by decide)
  refine ⟨?_, fun author => Porcelain.isOneLine_of_rowOf? hrows⟩
  show (complexityMessage function.name _).IsOneLine
  have hwords : Text.IsOneLine "Function '" ∧ Text.IsOneLine "' has cyclomatic complexity of " := by
    decide
  simp [complexityMessage, hname, hwords]

end Code

/-- What is said about a stale file is on one line, and nobody wrote it. -/
theorem Staleness.isOneLine_of_finding? {staleDays importThreshold age : Int} {fanIn : FanIn}
    {file commit : Text} {f : Finding}
    (h : finding? staleDays importThreshold fanIn file commit age = some f) :
    f.message.IsOneLine ∧ ∀ author, f.author = some author → author.IsOneLine := by
  rw [finding?] at h
  split at h
  · obtain rfl := Option.some.inj h
    have hwords : Text.IsOneLine "File untouched for " ∧
        Text.IsOneLine " days but imported by " ∧ Text.IsOneLine " files" := by decide
    exact ⟨by simp [message, hwords], nofun⟩
  · cases h

end DebtSurvey
