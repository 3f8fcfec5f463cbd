import DebtSurvey.History.Porcelain
import DebtSurvey.Proofs.LineBreak
import DebtSurvey.Proofs.Numeral
import Mathlib.Data.List.TakeWhile

/-!
# Reading what blame prints

Blame prints the lines of a file one after the other: a header with the commit of the line and its
numbers, what there is to say about the commit if it was not met before, and the content behind a
tab. Reading what was printed gives a row for each line whose change is committed.

The reading keeps a table of commits. It agrees with what was printed: a commit is in the table once
its first line was read, with the author and the time printed there (`Reading.Knows`). So a header
without a description finds in the table what its first header was followed by, however many lines
of other commits stand in between.

## Main results

* `Porcelain.takeHeader?_append`, `Porcelain.parse_silent`: what lines of the format are read as.
* `Porcelain.rows_blamed`: what one blamed line does to a reading; `Porcelain.rows_output` is the
  same for all of them.
* `Porcelain.parse_output`: reading undoes printing.
-/

namespace DebtSurvey.Porcelain

open Text (Unbroken digitsOf)

/-! ### What blame prints -/

/-- A commit hash: forty digits, hexadecimal and in lower case. -/
def IsHash (t : Text) : Prop := t.length = hashLength ∧ t.all isHashDigit

instance (t : Text) : Decidable (IsHash t) :=
  inferInstanceAs (Decidable (t.length = hashLength ∧ t.all isHashDigit))

/-- A run of decimal digits, of any script. -/
def IsNumeral (t : Text) : Prop := t ≠ [] ∧ ∀ c ∈ t, Text.isDigit c

/-- A line that begins as a header does: with a hash and two numbers, a blank before each. -/
def IsHeader (t : Text) : Prop :=
  ∃ commit first second rest, IsHash commit ∧ IsNumeral first ∧ IsNumeral second ∧
    t = commit ++ ' ' :: (first ++ ' ' :: (second ++ rest))

/-- A line that says nothing about rows: neither to whom a line belongs nor who did it when. -/
structure IsSilent (t : Text) : Prop where
  /-- It is no header. -/
  no_header : ¬IsHeader t
  /-- It names no author. -/
  no_author : ¬Text.ofString "author " <+: t
  /-- It gives no time. -/
  no_time : ¬Text.ofString "author-time " <+: t

/-- A line of a description that is of no importance here. -/
structure IsRemark (t : Text) : Prop extends IsSilent t where
  /-- It is one line. -/
  unbroken : Unbroken t
  /-- It is no content. -/
  no_content : t.head? ≠ some '\t'

/-- A number whose numeral can be read back. -/
def IsShort (n : Nat) : Prop := (Text.ofNat n).length ≤ Text.digitLimit

instance (n : Nat) : Decidable (IsShort n) :=
  inferInstanceAs (Decidable ((Text.ofNat n).length ≤ Text.digitLimit))

/-- What blame prints about a commit. -/
structure Description where
  /-- The author. -/
  author : Text
  /-- The address of the author. -/
  mail : Text
  /-- The time in seconds since the epoch. -/
  seconds : Int
  /-- Remarks before the author. -/
  leading : List Text := []
  /-- Remarks between the author and the address. -/
  inner : List Text := []
  /-- Remarks between the address and the time. -/
  between : List Text := []
  /-- Remarks after the time. -/
  trailing : List Text := []
  author_unbroken : Unbroken author
  mail_unbroken : Unbroken mail
  seconds_short : IsShort seconds.natAbs
  leading_remarks : ∀ t ∈ leading, IsRemark t
  inner_remarks : ∀ t ∈ inner, IsRemark t
  between_remarks : ∀ t ∈ between, IsRemark t
  trailing_remarks : ∀ t ∈ trailing, IsRemark t

/-- A line of a file with its blame. -/
structure BlamedLine where
  /-- The commit that last changed it. -/
  commit : Text
  /-- Its number in that commit. -/
  original : Nat
  /-- Its number now. -/
  number : Nat
  /-- How many lines of the commit follow each other from here on, where that is printed. -/
  group : Option Nat := none
  /-- Its content. -/
  content : Text
  commit_isHash : IsHash commit
  number_short : IsShort number
  content_unbroken : Unbroken content

/-- The lines printed about a commit. -/
def Description.lines (d : Description) : List Text :=
  d.leading ++ ("author " ++ d.author) :: d.inner ++ ("author-mail " ++ d.mail) :: d.between ++
    ("author-time " ++ Text.ofInt d.seconds) :: d.trailing

/-- What a header ends with: the size of a group, where it is printed. -/
def BlamedLine.tail (b : BlamedLine) : Text :=
  match b.group with
  | none => []
  | some size => ' ' :: Text.ofNat size

/-- The header of a blamed line. -/
def BlamedLine.header (b : BlamedLine) : Text :=
  b.commit ++ ' ' :: (Text.ofNat b.original ++ ' ' :: (Text.ofNat b.number ++ b.tail))

/-- The lines printed for a blamed line when some commits were met before. -/
def BlamedLine.lines (describe : Text → Description) (met : List Text) (b : BlamedLine) :
    List Text :=
  b.header :: (if b.commit ∈ met then [] else (describe b.commit).lines) ++ ['\t' :: b.content]

/-- The lines printed for blamed lines, one after the other. -/
def outputLines (describe : Text → Description) : List Text → List BlamedLine → List Text
  | _, [] => []
  | met, b :: rest => b.lines describe met ++ outputLines describe (b.commit :: met) rest

/-- What blame prints for the lines of a file. -/
def output (describe : Text → Description) (blamed : List BlamedLine) : Text :=
  Text.terminated (outputLines describe [] blamed)

/-- The row of a blamed line, unless its change is not committed. -/
def BlamedLine.row? (describe : Text → Description) (b : BlamedLine) : Option BlameRow :=
  if b.commit = uncommitted then none
  else some ⟨b.number, (describe b.commit).author, (describe b.commit).seconds * 1000, b.commit⟩

/-! ### What its lines are read as -/

/-- A numeral at the front is taken, up to what is no digit. -/
theorem takeNumber?_append {numeral : Text} (h : IsNumeral numeral) (rest : Text)
    (hrest : ∀ c ∈ rest.head?, ¬Text.isDigit c) :
    takeNumber? (numeral ++ rest) = some (numeral.filterMap Text.digitValue?, rest) := by
  have hend : rest.takeWhile Text.isDigit = [] ∧ rest.dropWhile Text.isDigit = rest := by
    cases rest with
    | nil => exact ⟨rfl, rfl⟩
    | cons c rest =>
      have hc : ¬Text.isDigit c := hrest c rfl
      exact ⟨List.takeWhile_cons_of_neg hc, List.dropWhile_cons_of_neg hc⟩
  have htake : (numeral ++ rest).takeWhile Text.isDigit = numeral := by
    rw [List.takeWhile_append_of_pos h.2, hend.1, List.append_nil]
  have hdrop : (numeral ++ rest).dropWhile Text.isDigit = rest := by
    rw [List.dropWhile_append_of_pos h.2, hend.2]
  -- the first digit has a value, so there are values
  obtain ⟨c, tail, rfl⟩ := List.exists_cons_of_ne_nil h.1
  obtain ⟨d, hd⟩ := Option.isSome_iff_exists.mp (h.2 c List.mem_cons_self)
  rw [takeNumber?, htake, hdrop, List.filterMap_cons_some hd]

/-- The numeral of a number is one. -/
theorem isNumeral_ofNat (n : Nat) : IsNumeral (Text.ofNat n) :=
  ⟨Nat.toDigits_ne_nil, fun _ hc => Text.isDigit_of_ascii (Text.isDigit_of_mem_ofNat hc)⟩

/-- What can be taken from the front as a number is a numeral, up to what is no digit. -/
theorem eq_of_takeNumber? {t rest : Text} {digits : List Nat}
    (h : takeNumber? t = some (digits, rest)) :
    ∃ numeral, IsNumeral numeral ∧ t = numeral ++ rest ∧
      digits = numeral.filterMap Text.digitValue? ∧ ∀ c ∈ rest.head?, ¬Text.isDigit c := by
  unfold takeNumber? at h
  split at h
  · cases h
  · rename_i hdigits
    obtain ⟨rfl, rfl⟩ := Prod.mk.inj (Option.some.inj h)
    refine ⟨t.takeWhile Text.isDigit, ⟨?_, ?_⟩, (List.takeWhile_append_dropWhile).symm, rfl, ?_⟩
    · intro hnil
      rw [hnil] at hdigits
      exact hdigits rfl
    · exact fun c hc => List.mem_takeWhile_imp hc
    · intro c hc
      have hstop := List.head?_dropWhile_not Text.isDigit t
      rw [Option.mem_def.mp hc] at hstop
      simpa using hstop

/-- A blank at the front is what stands there. -/
theorem eq_of_takeSpace? {t rest : Text} (h : takeSpace? t = some rest) : t = ' ' :: rest := by
  unfold takeSpace? at h
  split at h
  · rw [Option.some.inj h]
  · cases h

/-- A line that begins with a hash and two numbers is taken for a header, with its hash and the
digits of its second number. -/
theorem takeHeader?_append {commit first second rest : Text} (hcommit : IsHash commit)
    (hfirst : IsNumeral first) (hsecond : IsNumeral second)
    (hrest : ∀ c ∈ rest.head?, ¬Text.isDigit c) :
    takeHeader? (commit ++ ' ' :: (first ++ ' ' :: (second ++ rest))) =
      some (commit, second.filterMap Text.digitValue?) := by
  obtain ⟨hlength, hdigits⟩ := hcommit
  have hblank : ∀ c ∈ (' ' :: (second ++ rest)).head?, ¬Text.isDigit c := by
    rintro c ⟨⟩
    decide
  have htakeFirst := takeNumber?_append hfirst _ hblank
  have htakeSecond := takeNumber?_append hsecond _ hrest
  rw [takeHeader?, ← hlength, List.take_left, List.drop_left]
  simp [hlength, hdigits, takeSpace?, htakeFirst, htakeSecond]

/-- What is taken for a header begins with a hash and two numbers. -/
theorem eq_of_takeHeader? {t commit : Text} {digits : List Nat}
    (h : takeHeader? t = some (commit, digits)) :
    ∃ first second rest, IsHash commit ∧ IsNumeral first ∧ IsNumeral second ∧
      (∀ c ∈ rest.head?, ¬Text.isDigit c) ∧
      t = commit ++ ' ' :: (first ++ ' ' :: (second ++ rest)) ∧
      digits = second.filterMap Text.digitValue? := by
  unfold takeHeader? at h
  simp only [Option.bind_eq_bind] at h
  split at h
  · rename_i hhash
    obtain ⟨afterHash, hspace, h⟩ := Option.bind_eq_some_iff.mp h
    obtain ⟨⟨first, afterFirst⟩, hfirst, h⟩ := Option.bind_eq_some_iff.mp h
    obtain ⟨beforeSecond, hspace', h⟩ := Option.bind_eq_some_iff.mp h
    obtain ⟨⟨second, rest⟩, hsecond, h⟩ := Option.bind_eq_some_iff.mp h
    obtain ⟨rfl, rfl⟩ := Prod.mk.inj (Option.some.inj h)
    obtain ⟨numeral, hnumeral, hafterHash, -, -⟩ := eq_of_takeNumber? hfirst
    obtain ⟨numeral', hnumeral', hbefore, hdigits, hrest⟩ := eq_of_takeNumber? hsecond
    refine ⟨numeral, numeral', rest, hhash, hnumeral, hnumeral', hrest, ?_, hdigits⟩
    -- the text is put together again from the parts taken off it
    rw [← hbefore, ← eq_of_takeSpace? hspace', ← hafterHash, ← eq_of_takeSpace? hspace,
      List.take_append_drop]
  · cases h

/-- A printed header is taken for one, with its commit and its number. -/
theorem takeHeader?_header (b : BlamedLine) :
    takeHeader? b.header = some (b.commit, digitsOf b.number) := by
  rw [← Text.filterMap_digitValue?_ofNat]
  refine takeHeader?_append b.commit_isHash (isNumeral_ofNat b.original) (isNumeral_ofNat b.number) ?_
  unfold BlamedLine.tail
  cases b.group with
  | none => rintro c ⟨⟩
  | some size =>
    rintro c ⟨⟩
    decide

/-- A text with a character among the first forty that no hash has is no header. -/
theorem takeHeader?_eq_none {t : Text} {c : Char} (place : Nat) (hplace : place < hashLength)
    (hget : t[place]? = some c) (hc : isHashDigit c = false) : takeHeader? t = none := by
  rw [takeHeader?, if_neg]
  rintro ⟨-, hdigits⟩
  have hmem : c ∈ t.take hashLength :=
    List.mem_of_getElem? ((List.getElem?_take_of_lt hplace).trans hget)
  rw [List.all_eq_true.mp hdigits c hmem] at hc
  cases hc

/-- A label is cut off the text that it stands before. -/
theorem afterLabel?_append (label t : Text) : afterLabel? label (label ++ t) = some t := by
  rw [afterLabel?, if_pos (List.isPrefixOf_iff_prefix.mpr (List.prefix_append label t)),
    List.drop_left]

/-- The content of a line is read as that. -/
theorem parse_content (t : Text) : Line.parse ('\t' :: t) = .ok .content := by
  rw [Line.parse, List.head?_cons, if_pos rfl]

/-- A silent line is read as content or as something else. -/
theorem parse_silent {t : Text} (h : IsSilent t) :
    Line.parse t = .ok (if t.head? = some '\t' then .content else .other) := by
  have hheader : takeHeader? t = none :=
    Option.eq_none_iff_forall_ne_some.mpr fun ⟨commit, _⟩ hfound =>
      have ⟨first, second, rest, hcommit, hfirst, hsecond, _, hline, _⟩ := eq_of_takeHeader? hfound
      h.no_header ⟨commit, first, second, rest, hcommit, hfirst, hsecond, hline⟩
  have hauthor : afterLabel? "author " t = none := by
    rw [afterLabel?, if_neg]
    exact fun hprefix => h.no_author (List.isPrefixOf_iff_prefix.mp hprefix)
  have htime : afterLabel? "author-time " t = none := by
    rw [afterLabel?, if_neg]
    exact fun hprefix => h.no_time (List.isPrefixOf_iff_prefix.mp hprefix)
  rw [Line.parse, hheader, hauthor, htime]
  split <;> rfl

/-- A remark is read as something else. -/
theorem parse_remark {t : Text} (h : IsRemark t) : Line.parse t = .ok .other := by
  rw [parse_silent h.toIsSilent, if_neg h.no_content]

/-- A line that is taken for a header is no content: a hash begins with no tab. -/
theorem head?_ne_tab {t : Text} {found : Text × List Nat} (h : takeHeader? t = some found) :
    t.head? ≠ some '\t' := by
  intro htab
  have hnone := takeHeader?_eq_none 0 (by decide)
    (List.head?_eq_getElem?.symm.trans htab) (by decide)
  rw [h] at hnone
  cases hnone

/-- A printed header is read as the header of its commit and number. -/
theorem parse_header (b : BlamedLine) : Line.parse b.header = .ok (.header b.commit b.number) := by
  have htake := takeHeader?_header b
  rw [Line.parse, if_neg (head?_ne_tab htake), htake]
  simp only [Text.natOfDigits?_digitsOf b.number_short]

/-- The line that names an author is read as that. -/
theorem parse_author (name : Text) : Line.parse ("author " ++ name) = .ok (.author name) := by
  have hheader : takeHeader? ("author " ++ name) = none :=
    takeHeader?_eq_none (c := 'u') 1 (by decide) rfl (by decide)
  rw [Line.parse, if_neg (by rintro ⟨⟩), hheader, afterLabel?_append]

/-- The line that gives the address of an author is read as something else. -/
theorem parse_mail (mail : Text) : Line.parse ("author-mail " ++ mail) = .ok .other := by
  have hheader : takeHeader? ("author-mail " ++ mail) = none :=
    takeHeader?_eq_none (c := 'u') 1 (by decide) rfl (by decide)
  rw [Line.parse, if_neg (by rintro ⟨⟩), hheader]
  rfl

/-- The line that gives a time is read as that. -/
theorem parse_time {seconds : Int} (h : IsShort seconds.natAbs) :
    Line.parse ("author-time " ++ Text.ofInt seconds) = .ok (.time (some seconds)) := by
  have hheader : takeHeader? ("author-time " ++ Text.ofInt seconds) = none :=
    takeHeader?_eq_none (c := 'u') 1 (by decide) rfl (by decide)
  have hauthor : afterLabel? "author " ("author-time " ++ Text.ofInt seconds) = none := rfl
  rw [Line.parse, if_neg (by rintro ⟨⟩), hheader, hauthor, afterLabel?_append]
  simp only [Text.toInt?_ofInt h]

/-! ### Lines in sequence -/

/-- What the lines printed about a commit are read as. -/
def Description.said (d : Description) : List Line :=
  d.leading.map (fun _ => .other) ++ .author d.author :: d.inner.map (fun _ => .other) ++
    .other :: d.between.map (fun _ => .other) ++
    .time (some d.seconds) :: d.trailing.map fun _ => .other

/-- What the lines printed for a blamed line are read as. -/
def BlamedLine.said (describe : Text → Description) (met : List Text) (b : BlamedLine) :
    List Line :=
  .header b.commit b.number ::
    (if b.commit ∈ met then [] else (describe b.commit).said) ++ [.content]

/-- What the lines printed for blamed lines are read as. -/
def outputSaid (describe : Text → Description) : List Text → List BlamedLine → List Line
  | _, [] => []
  | met, b :: rest => b.said describe met ++ outputSaid describe (b.commit :: met) rest

/-- A line and others are read one after the other. -/
theorem mapM_parse_cons {t : Text} {texts : List Text} {line : Line} {lines : List Line}
    (ht : Line.parse t = .ok line) (hrest : texts.mapM Line.parse = .ok lines) :
    (t :: texts).mapM Line.parse = .ok (line :: lines) := by
  rw [List.mapM_cons, ht, hrest]
  rfl

/-- Lines are read when each of them is. -/
theorem mapM_parse_iff {texts : List Text} {lines : List Line} :
    texts.mapM Line.parse = .ok lines ↔
      List.Forall₂ (fun t line => Line.parse t = .ok line) texts lines := by
  constructor
  · intro h
    induction texts generalizing lines with
    | nil =>
      obtain rfl := Except.ok.inj h
      exact .nil
    | cons t texts ih =>
      rw [List.mapM_cons] at h
      rcases hfirst : Line.parse t with _ | first <;> rw [hfirst] at h
      · cases h
      rcases hrest : texts.mapM Line.parse with _ | rest <;> rw [hrest] at h
      · cases h
      obtain rfl := Except.ok.inj h
      exact .cons hfirst (ih hrest)
  · intro h
    induction h with
    | nil => rfl
    | cons hfirst _ ih => exact mapM_parse_cons hfirst ih

/-- Output is read as its lines, and its rows come of them. -/
theorem parse_eq_ok_iff {output : Text} {rows : List BlameRow} : parse output = .ok rows ↔
    ∃ lines, (Text.breakLines output).mapM Line.parse = .ok lines ∧
      rows = Reading.rows {} lines := by
  unfold parse
  cases (Text.breakLines output).mapM Line.parse with
  | error e => exact ⟨nofun, nofun⟩
  | ok lines =>
    constructor
    · intro h
      exact ⟨lines, rfl, (Except.ok.inj h).symm⟩
    · rintro ⟨_, ⟨⟩, rfl⟩
      rfl

/-- Lines and others are read one after the other. -/
theorem mapM_parse_append {texts texts' : List Text} {lines lines' : List Line}
    (hfront : texts.mapM Line.parse = .ok lines) (hback : texts'.mapM Line.parse = .ok lines') :
    (texts ++ texts').mapM Line.parse = .ok (lines ++ lines') := by
  rw [List.mapM_append, hfront, hback]
  rfl

/-- Remarks are read as something else, each of them. -/
theorem mapM_parse_remarks {texts : List Text} (h : ∀ t ∈ texts, IsRemark t) :
    texts.mapM Line.parse = .ok (texts.map fun _ => .other) := by
  induction texts with
  | nil => rfl
  | cons t texts ih =>
    rw [List.forall_mem_cons] at h
    exact mapM_parse_cons (parse_remark h.1) (ih h.2)

/-- What is printed about a commit is read as what it says. -/
theorem mapM_parse_description (d : Description) : d.lines.mapM Line.parse = .ok d.said := by
  have hleading := mapM_parse_remarks d.leading_remarks
  have hinner := mapM_parse_remarks d.inner_remarks
  have hbetween := mapM_parse_remarks d.between_remarks
  have htrailing := mapM_parse_remarks d.trailing_remarks
  refine mapM_parse_append (mapM_parse_append (mapM_parse_append hleading ?_) ?_)
    (mapM_parse_cons (parse_time d.seconds_short) htrailing)
  · exact mapM_parse_cons (parse_author _) hinner
  · exact mapM_parse_cons (parse_mail _) hbetween

/-- What is printed for a blamed line is read as what it says. -/
theorem mapM_parse_blamed (describe : Text → Description) (met : List Text) (b : BlamedLine) :
    (b.lines describe met).mapM Line.parse = .ok (b.said describe met) := by
  refine mapM_parse_append (mapM_parse_cons (parse_header b) ?_)
    (mapM_parse_cons (parse_content _) rfl)
  by_cases hmet : b.commit ∈ met
  · rw [if_pos hmet, if_pos hmet]
    rfl
  · rw [if_neg hmet, if_neg hmet]
    exact mapM_parse_description _

/-- What is printed for blamed lines is read as what it says. -/
theorem mapM_parse_output (describe : Text → Description) (met : List Text)
    (blamed : List BlamedLine) :
    (outputLines describe met blamed).mapM Line.parse = .ok (outputSaid describe met blamed) := by
  induction blamed generalizing met with
  | nil => rfl
  | cons b rest ih => exact mapM_parse_append (mapM_parse_blamed describe met b) (ih _)

/-! ### What a reading makes of them -/

namespace Reading

/-- A reading remembers of each commit what is printed about it, and of no other. -/
def Knows (describe : Text → Description) (met : List Text) (r : Reading) : Prop :=
  ∀ commit, r.known? commit =
    if commit ∈ met then some ((describe commit).author, (describe commit).seconds * 1000) else none

/-- The rows of a line and others are those of the line, then those of the others. -/
theorem rows_cons (r : Reading) (line : Line) (rest : List Line) :
    r.rows (line :: rest) = (r.step line).2.toList ++ (r.step line).1.rows rest := rfl

/-- Remarks give no rows and change nothing. -/
theorem rows_others {α : Type} (r : Reading) (remarks : List α) (rest : List Line) :
    r.rows (remarks.map (fun _ => .other) ++ rest) = r.rows rest := by
  induction remarks with
  | nil => rfl
  | cons remark remarks ih => exact ih

variable {describe : Text → Description} {met : List Text} {r : Reading}

/-- A commit that was not known is known once it was added to the table; of the others the table says
what it said before. -/
theorem known?_concat {r r' : Reading} {commit : Text} {told : Text × Int}
    (hnew : r.known? commit = none) (hcommits : r'.commits = r.commits ++ [(commit, told)])
    (other : Text) : r'.known? other = if other = commit then some told else r.known? other := by
  rw [known?, hcommits, List.find?_append]
  split
  · rename_i heq
    -- it was not in the table, so the entry at the end is found
    subst heq
    rw [known?, Option.map_eq_none_iff] at hnew
    simp [hnew]
  · rename_i hne
    rw [known?]
    simp [Ne.symm hne]

/-- Adding a commit that was not met before to the table makes it known. -/
theorem Knows.concat (h : r.Knows describe met) {commit : Text} (hmet : commit ∉ met)
    {r' : Reading} (hcommits : r'.commits = r.commits ++
      [(commit, (describe commit).author, (describe commit).seconds * 1000)]) :
    r'.Knows describe (commit :: met) := by
  intro other
  have hnew := h commit
  rw [if_neg hmet] at hnew
  rw [known?_concat hnew hcommits, h other]
  by_cases heq : other = commit
  · rw [if_pos heq, heq, if_pos List.mem_cons_self]
  · simp [heq]

/-- A commit that was met before is known from its header on: the line gets its row at once, and the
table stays. -/
theorem step_header_of_known {commit author : Text} {time : Int} (line : Nat)
    (h : r.known? commit = some (author, time)) :
    (r.step (.header commit line)).2 =
        (if commit = uncommitted then none else some ⟨line, author, time, commit⟩) ∧
      (r.step (.header commit line)).1.commits = r.commits := by
  have hstep : r.step (.header commit line) = settle
      { r with
        header := some (commit, line)
        author := some author
        timestamp := some time
        settled := false } := by
    rw [step, h]
    rfl
  rw [known?] at h
  rw [hstep]
  simp [settle, known?, h]

/-- A commit that was not met before is not known at its header: the line has to wait for a row. -/
theorem step_header_of_new {commit : Text} (line : Nat) (h : r.known? commit = none) :
    r.step (.header commit line) =
      ({ commits := r.commits, header := some (commit, line) }, none) := by
  rw [step, h]
  rfl

/-- The description of a commit that was not met before gives the line that waits its row, and adds
the commit to the table. -/
theorem rows_description {commits : List (Text × Text × Int)} {commit : Text} (line : Nat)
    (hnew : commits.find? (·.1 = commit) = none) (d : Description) (rest : List Line) :
    ∃ r' : Reading, r'.commits = commits ++ [(commit, d.author, d.seconds * 1000)] ∧
      Reading.rows { commits, header := some (commit, line) } (d.said ++ rest) =
        (if commit = uncommitted then none
          else some ⟨line, d.author, d.seconds * 1000, commit⟩ : Option BlameRow).toList ++
          r'.rows rest := by
  -- the author alone is not enough for a row, and neither do the remarks around it matter
  have hnamed : Reading.step { commits, header := some (commit, line) } (.author d.author) =
      ({ commits, header := some (commit, line), author := some d.author }, none) := rfl
  have htimed : Reading.step { commits, header := some (commit, line), author := some d.author }
      (.time (some d.seconds)) =
        ({ commits := commits ++ [(commit, d.author, d.seconds * 1000)]
           header := some (commit, line)
           author := some d.author
           timestamp := some (d.seconds * 1000)
           settled := true },
          if commit = uncommitted then none
          else some ⟨line, d.author, d.seconds * 1000, commit⟩) := by
    simp [step, settle, known?, hnew]
  refine ⟨⟨commits ++ [(commit, d.author, d.seconds * 1000)], some (commit, line), some d.author,
    some (d.seconds * 1000), true⟩, rfl, ?_⟩
  simp only [Description.said, List.append_assoc, List.cons_append]
  rw [rows_others, rows_cons, hnamed, Option.toList_none, List.nil_append, rows_others, rows_cons]
  simp only [Option.toList_none, List.nil_append, step]
  rw [rows_others, rows_cons, htimed, rows_others]

/-- Meeting a commit that was met before adds nothing. -/
theorem Knows.again (h : r.Knows describe met) {commit : Text} (hmet : commit ∈ met)
    {r' : Reading} (hcommits : r'.commits = r.commits) : r'.Knows describe (commit :: met) := by
  intro other
  have hmem : other ∈ commit :: met ↔ other ∈ met := by
    rw [List.mem_cons, or_iff_right_of_imp (fun heq => heq ▸ hmet)]
  rw [known?, hcommits, ← known?, h other]
  simp only [hmem]

/-- A blamed line gives its row, and its commit is met from then on. -/
theorem rows_blamed (h : r.Knows describe met) (b : BlamedLine) (rest : List Line) :
    ∃ r' : Reading, r'.Knows describe (b.commit :: met) ∧
      r.rows (b.said describe met ++ rest) = (b.row? describe).toList ++ r'.rows rest := by
  have hknown := h b.commit
  by_cases hmet : b.commit ∈ met
  · -- there is only a header, and the table has the rest
    rw [if_pos hmet] at hknown
    obtain ⟨hrow, hcommits⟩ := step_header_of_known b.number hknown
    refine ⟨(r.step (.header b.commit b.number)).1, h.again hmet hcommits, ?_⟩
    rw [BlamedLine.said, if_pos hmet, List.append_assoc, List.cons_append, rows_cons, hrow]
    rfl
  · -- the header says whose line it is, and the description after it who that was
    rw [if_neg hmet] at hknown
    have hnew := hknown
    rw [known?, Option.map_eq_none_iff] at hnew
    obtain ⟨r', hcommits, hrows⟩ := rows_description b.number hnew (describe b.commit)
      (.content :: rest)
    refine ⟨r', h.concat hmet hcommits, ?_⟩
    rw [BlamedLine.said, if_neg hmet, List.append_assoc, List.cons_append, rows_cons,
      step_header_of_new b.number hknown, Option.toList_none, List.nil_append,
      List.singleton_append, hrows]
    -- the content at the end gives no row
    rfl

/-- Blamed lines give their rows, in order. -/
theorem rows_output (h : r.Knows describe met) (blamed : List BlamedLine) :
    r.rows (outputSaid describe met blamed) = blamed.filterMap (·.row? describe) := by
  -- the table grows with the commits that were met, so the induction is over all readings
  induction blamed generalizing met r with
  | nil => rfl
  | cons b rest ih =>
    obtain ⟨r', hr', hrows⟩ := rows_blamed h b (outputSaid describe (b.commit :: met) rest)
    rw [outputSaid, hrows, ih hr', List.filterMap_cons]
    cases b.row? describe <;> rfl

end Reading

/-! ### Reading undoes printing -/

/-- No character between the line breaks of ASCII and the others ends a line. -/
theorem isLineBreak_of_range {c : Char} (hlow : 31 ≤ c.toNat) (hhigh : c.toNat < 0x80) :
    Text.isLineBreak c = false := by
  simp only [Text.isLineBreak, Bool.or_eq_false_iff, Bool.and_eq_false_iff,
    decide_eq_false_iff_not, beq_eq_false_iff_ne]
  omega

/-- A numeral is unbroken. -/
theorem unbroken_ofNat (n : Nat) : Unbroken (Text.ofNat n) := by
  intro c hc
  have hrange := Text.toNat_of_isDigit (Text.isDigit_of_mem_ofNat hc)
  exact isLineBreak_of_range (by omega) (by omega)

/-- The numeral of an integer is unbroken. -/
theorem unbroken_ofInt (n : Int) : Unbroken (Text.ofInt n) := by
  cases n with
  | ofNat n => exact unbroken_ofNat n
  | negSucc n => exact Text.unbroken_cons.mpr ⟨by decide, unbroken_ofNat (n + 1)⟩

/-- A commit hash is unbroken. -/
theorem IsHash.unbroken {t : Text} (h : IsHash t) : Unbroken t := by
  intro c hc
  have hdigit := List.all_eq_true.mp h.2 c hc
  rw [isHashDigit, Bool.or_eq_true] at hdigit
  rcases hdigit with hdecimal | hletter
  · have hrange := Text.toNat_of_isDigit hdecimal
    exact isLineBreak_of_range (by omega) (by omega)
  · rw [Bool.and_eq_true, decide_eq_true_eq, decide_eq_true_eq, Char.le_def, Char.le_def,
      UInt32.le_iff_toNat_le, UInt32.le_iff_toNat_le] at hletter
    have hlow : 97 ≤ c.toNat := hletter.1
    have hhigh : c.toNat ≤ 102 := hletter.2
    exact isLineBreak_of_range (by omega) (by omega)

/-- A printed header is one line. -/
theorem unbroken_header (b : BlamedLine) : Unbroken b.header := by
  have hblank : ∀ {t : Text}, Unbroken t → Unbroken (' ' :: t) := fun ht =>
    Text.unbroken_cons.mpr ⟨by decide, ht⟩
  have htail : Unbroken b.tail := by
    unfold BlamedLine.tail
    cases b.group with
    | none => exact fun c hc => absurd hc List.not_mem_nil
    | some size => exact hblank (unbroken_ofNat size)
  refine b.commit_isHash.unbroken.append (hblank ?_)
  exact (unbroken_ofNat b.original).append (hblank ((unbroken_ofNat b.number).append htail))

/-- What is printed about a commit stands in lines. -/
theorem unbroken_description (d : Description) : ∀ t ∈ d.lines, Unbroken t := by
  intro t ht
  simp only [Description.lines, List.mem_append, List.mem_cons] at ht
  rcases ht with ((hleading | rfl | hinner) | rfl | hbetween) | rfl | htrailing
  · exact (d.leading_remarks t hleading).unbroken
  · exact Text.Unbroken.append (by decide) d.author_unbroken
  · exact (d.inner_remarks t hinner).unbroken
  · exact Text.Unbroken.append (by decide) d.mail_unbroken
  · exact (d.between_remarks t hbetween).unbroken
  · exact Text.Unbroken.append (by decide) (unbroken_ofInt d.seconds)
  · exact (d.trailing_remarks t htrailing).unbroken

/-- What is printed for blamed lines stands in lines. -/
theorem unbroken_output (describe : Text → Description) (met : List Text)
    (blamed : List BlamedLine) : ∀ t ∈ outputLines describe met blamed, Unbroken t := by
  induction blamed generalizing met with
  | nil => exact fun t ht => absurd ht List.not_mem_nil
  | cons b rest ih =>
    intro t ht
    rw [outputLines, List.mem_append] at ht
    rcases ht with hline | hrest
    · simp only [BlamedLine.lines, List.cons_append, List.mem_cons, List.mem_append,
        List.not_mem_nil, or_false] at hline
      rcases hline with rfl | habout | rfl
      · exact unbroken_header b
      · split at habout
        · exact absurd habout List.not_mem_nil
        · exact unbroken_description _ t habout
      · exact Text.unbroken_cons.mpr ⟨by decide, b.content_unbroken⟩
    · exact ih _ t hrest

/-- Reading what blame prints for the lines of a file gives one row for each line whose change is
committed, in order: with its number now, and with what was printed about its commit, be it at this
line or at an earlier one. -/
theorem parse_output (describe : Text → Description) (blamed : List BlamedLine) :
    parse (output describe blamed) = .ok (blamed.filterMap (·.row? describe)) := by
  have hstart : Reading.Knows describe [] {} := by
    intro commit
    rw [if_neg List.not_mem_nil]
    rfl
  rw [parse, output, Text.breakLines_terminated (unbroken_output describe [] blamed),
    mapM_parse_output]
  show Except.ok (Reading.rows {} _) = _
  rw [Reading.rows_output hstart]

/-- A second line of a commit is printed without the description. -/
example :
    let hash : Text := List.replicate 40 'a'
    let ann : Description :=
      { author := "Ann", mail := "<ann@host>", seconds := 5
        author_unbroken := by decide, mail_unbroken := by decide, seconds_short := by decide
        leading_remarks := by simp, inner_remarks := by simp
        between_remarks := by simp, trailing_remarks := by simp }
    let first : BlamedLine := ⟨hash, 1, 1, some 2, "x", by decide, by decide, by decide⟩
    let second : BlamedLine := ⟨hash, 3, 2, none, "y", by decide, by decide, by decide⟩
    output (fun _ => ann) [first, second] =
      Text.join ['\n'] [hash ++ " 1 1 2", "author Ann", "author-mail <ann@host>", "author-time 5",
        "\tx", hash ++ " 3 2", "\ty", []] := by
  rfl

end DebtSurvey.Porcelain
