import DebtSurvey.Proofs.BlameHeader

/-!
# The rows of blame output

Whatever is read, well formed or not, the rows that come of it are in order with the headers, and what
they say of a commit is always the same. Three things are responsible for that. A header waits for its
row until the author and the time are known, and has it only once. What is known of a commit when a
row is given for it goes into the table, and is never changed there. And a header of a commit in the
table does not wait: its row is given at once, with what the table says, so that what follows the
header cannot tell another story.

## Main results

* `Porcelain.Reading.settle_eq`, `Porcelain.Reading.step_eq`: all that taking in a line can do.
* `Porcelain.Reading.places_rows`: rows belong to headers, in order.
* `Porcelain.Reading.known?_of_mem_rows`: rows say what the table says in the end.
* `Porcelain.rows_of_parse`: what the rows of any blame output are like.
-/

namespace DebtSurvey

/-- What a row is about: a commit and a line. -/
def BlameRow.place (row : BlameRow) : Text × Int := (row.commit, row.line)

namespace Porcelain

/-- What a header is about: a commit and a line. -/
def Header.place {line : Text} (h : Header line) : Text × Int := (h.commit, (h.number : Int))

namespace Reading

variable {r : Reading} {commit : Text} {known : Text × Int} {row : BlameRow}

/-! ### What a step does -/

/-- What the header is about that waits for its row. -/
def waiting? (r : Reading) : Option (Text × Int) :=
  if r.settled then none else r.header.map fun (commit, number) => (commit, (number : Int))

/-- The row of the header that waits, once the author and the time are known. -/
def ready? (r : Reading) : Option BlameRow := do
  let (commit, line) ← r.waiting?
  return ⟨line, ← r.author, ← r.timestamp, commit⟩

/-- The reading after some lines. -/
def after (r : Reading) (lines : List Line) : Reading :=
  lines.foldl (fun r line => (r.step line).1) r

/-- The reading once a row was ready: no header waits, and the commit is in the table. -/
def record (r : Reading) (row : BlameRow) : Reading :=
  { r with
    commits := if (r.known? row.commit).isSome then r.commits
      else r.commits ++ [(row.commit, row.author, row.timestamp)]
    settled := true }

/-- Once a row was ready, no header waits. -/
theorem waiting?_record (r : Reading) (row : BlameRow) : (r.record row).waiting? = none := rfl

/-- What it takes for a row. -/
theorem ready?_eq_some_iff : r.ready? = some row ↔
    r.waiting? = some row.place ∧ r.author = some row.author ∧ r.timestamp = some row.timestamp := by
  simp only [ready?, Option.bind_eq_bind, Option.bind_eq_some_iff, Option.pure_def,
    Option.some.injEq]
  constructor
  · rintro ⟨place, hwaiting, author, hauthor, timestamp, htimestamp, rfl⟩
    exact ⟨hwaiting, hauthor, htimestamp⟩
  · rintro ⟨hwaiting, hauthor, htimestamp⟩
    exact ⟨row.place, hwaiting, _, hauthor, _, htimestamp, rfl⟩

/-- After a row was ready, the table says of its commit what it said before, or what the row says; of
the others it says what it said before. -/
theorem known?_record (r : Reading) (row : BlameRow) (other : Text) :
    (r.record row).known? other =
      if other = row.commit then some ((r.known? row.commit).getD (row.author, row.timestamp))
      else r.known? other := by
  cases hknown : r.known? row.commit with
  | none => exact known?_concat hknown (by simp [record, hknown]) other
  | some known =>
    have hsame : (r.record row).commits = r.commits := by simp [record, hknown]
    rw [known?, hsame, ← known?]
    split
    · rename_i heq
      rw [heq, hknown, Option.getD_some]
    · rfl

/-- Settling gives the row that is ready, unless nothing is committed; without such a row it changes
nothing. -/
theorem settle_eq (r : Reading) : r.settle =
    match r.ready? with
    | none => (r, none)
    | some row => (r.record row, if row.commit = uncommitted then none else some row) := by
  unfold settle ready? waiting?
  rcases r with ⟨commits, _ | ⟨commit, number⟩, _ | author, _ | timestamp, _ | _⟩ <;> rfl

/-- Taking in a line changes nothing, or settles what the line says: a header starts anew, with what
is known of its commit, and other lines stay with the header before. -/
theorem step_eq (r : Reading) (line : Line) :
    line.place? = none ∧ r.step line = (r, none) ∨
    ∃ r' : Reading, r.step line = r'.settle ∧ r'.commits = r.commits ∧
      ((line.place?.isSome ∧ r'.waiting? = line.place? ∧
          ∀ place known, r'.waiting? = some place → r.known? place.1 = some known →
            r'.author = some known.1 ∧ r'.timestamp = some known.2) ∨
        line.place? = none ∧ r'.waiting? = r.waiting?) := by
  cases line with
  | content => exact .inl ⟨rfl, rfl⟩
  | other => exact .inl ⟨rfl, rfl⟩
  | header commit number =>
    refine .inr ⟨_, rfl, rfl, .inl ⟨rfl, rfl, ?_⟩⟩
    rintro _ known ⟨⟩ hknown
    exact ⟨by simp [hknown], by simp [hknown]⟩
  | author name => exact .inr ⟨{ r with author := some name }, rfl, rfl, .inr ⟨rfl, rfl⟩⟩
  | time seconds =>
    cases seconds with
    | none => exact .inl ⟨rfl, rfl⟩
    | some seconds =>
      exact .inr ⟨{ r with timestamp := some (seconds * 1000) }, rfl, rfl, .inr ⟨rfl, rfl⟩⟩

/-! ### Rows and headers -/

/-- Settling gives a row for the header that waits, or leaves it waiting. -/
theorem places_settle (r : Reading) :
    ((r.settle.2.map (·.place)).toList ++ r.settle.1.waiting?.toList).Sublist
      r.waiting?.toList := by
  rw [settle_eq]
  cases hready : r.ready? with
  | none => exact .refl _
  | some row =>
    -- the header does not wait any more
    rw [(ready?_eq_some_iff.mp hready).1]
    show (((if row.commit = uncommitted then none else some row).map (·.place)).toList ++
      (r.record row).waiting?.toList).Sublist _
    rw [waiting?_record, Option.toList_none, List.append_nil]
    split
    · exact List.nil_sublist _
    · exact .refl _

/-- Taking in a line gives a row for the header that waits or for the line, if it gives one; a header
that is left waiting is the line, or the one before. -/
theorem places_step (r : Reading) (line : Line) :
    (((r.step line).2.map (·.place)).toList ++ (r.step line).1.waiting?.toList).Sublist
      (r.waiting?.toList ++ line.place?.toList) := by
  obtain ⟨-, hstep⟩ | ⟨r', hstep, -, ⟨-, hwaiting, -⟩ | ⟨hplace, hwaiting⟩⟩ := step_eq r line <;>
    rw [hstep]
  · exact List.sublist_append_left _ _
  · refine (places_settle r').trans ?_
    rw [hwaiting]
    exact List.sublist_append_right _ _
  · rw [hplace, ← hwaiting, Option.toList_none, List.append_nil]
    exact places_settle r'

/-- The rows that come of lines belong to the header that waits and to those among the lines, in order
and at most one to each. -/
theorem places_rows (r : Reading) (lines : List Line) :
    ((r.rows lines).map (·.place)).Sublist
      (r.waiting?.toList ++ lines.filterMap Line.place?) := by
  induction lines generalizing r with
  | nil => exact List.nil_sublist _
  | cons line lines ih =>
    have hmap : (r.step line).2.toList.map (·.place) = ((r.step line).2.map (·.place)).toList := by
      cases (r.step line).2 <;> rfl
    have hplace : (line :: lines).filterMap Line.place? =
        line.place?.toList ++ lines.filterMap Line.place? := by
      cases hline : line.place? <;> simp [hline]
    rw [rows_cons, List.map_append, hmap, hplace, ← List.append_assoc]
    refine ((ih _).append_left _).trans ?_
    rw [← List.append_assoc]
    exact (places_step r line).append_right _

/-- The rows of lines are those of the first lines, and then those of the others. -/
theorem rows_append (r : Reading) (first second : List Line) :
    r.rows (first ++ second) = r.rows first ++ (r.after first).rows second := by
  induction first generalizing r with
  | nil => rfl
  | cons line first ih =>
    rw [List.cons_append, rows_cons, rows_cons, ih, List.append_assoc]
    rfl

/-! ### Rows and the table -/

/-- A header waits only for the description of a commit that is not in the table. -/
def WaitsForNew (r : Reading) : Prop :=
  ∀ place, r.waiting? = some place → r.known? place.1 = none

/-- What is known of the commit of a header that waits is what the table says, if it is there. -/
def FollowsTable (r : Reading) : Prop :=
  ∀ place known, r.waiting? = some place → r.known? place.1 = some known →
    r.author = some known.1 ∧ r.timestamp = some known.2

/-- What a change of the reading adds to the table stays with what was there, and a row that comes of
it says what the table says then, of a commit. -/
structure Extends (r : Reading) (change : Reading × Option BlameRow) : Prop where
  known?_of : ∀ {commit known}, r.known? commit = some known → change.1.known? commit = some known
  known?_row : ∀ {row}, change.2 = some row →
    change.1.known? row.commit = some (row.author, row.timestamp)
  committed : ∀ {row}, change.2 = some row → row.commit ≠ uncommitted
  waitsForNew : change.1.WaitsForNew

/-- Settling extends the table, where what is known follows it. -/
theorem FollowsTable.settle (h : r.FollowsTable) : r.Extends r.settle := by
  rw [settle_eq]
  cases hready : r.ready? with
  | none =>
    refine ⟨id, nofun, nofun, fun place hwaiting => ?_⟩
    -- with a commit from the table a row would be ready
    refine Option.eq_none_iff_forall_ne_some.mpr fun known hknown => ?_
    obtain ⟨hauthor, htimestamp⟩ := h place known hwaiting hknown
    rw [ready?, hwaiting, hauthor, htimestamp] at hready
    cases hready
  | some row =>
    obtain ⟨hwaiting, hauthor, htimestamp⟩ := ready?_eq_some_iff.mp hready
    -- the row says what the table says, or the table will say what the row says
    have htold : (r.known? row.commit).getD (row.author, row.timestamp) =
        (row.author, row.timestamp) := by
      cases hknown : r.known? row.commit with
      | none => rfl
      | some known =>
        obtain ⟨hauthor', htimestamp'⟩ := h row.place known hwaiting hknown
        rw [Option.getD_some, Option.some.inj (hauthor.symm.trans hauthor'),
          Option.some.inj (htimestamp.symm.trans htimestamp')]
    have hgiven : ∀ {given}, (if row.commit = uncommitted then none else some row) = some given →
        given = row ∧ row.commit ≠ uncommitted := by
      intro given hgiven
      split at hgiven
      · cases hgiven
      · rename_i hcommitted
        exact ⟨(Option.some.inj hgiven).symm, hcommitted⟩
    refine ⟨fun {commit known} hknown => ?_, fun hrow => ?_, fun hrow => ?_, nofun⟩
    · rw [known?_record]
      split
      · rename_i heq
        rw [← heq, hknown, Option.getD_some]
      · exact hknown
    · obtain ⟨rfl, -⟩ := hgiven hrow
      rw [known?_record, if_pos rfl, htold]
    · obtain ⟨rfl, hcommitted⟩ := hgiven hrow
      exact hcommitted

/-- Taking in a line extends the table, and a header waits only for a commit that is not there. -/
theorem WaitsForNew.step (h : r.WaitsForNew) (line : Line) : r.Extends (r.step line) := by
  obtain ⟨-, hstep⟩ | ⟨r', hstep, hcommits, hline⟩ := step_eq r line <;> rw [hstep]
  · exact ⟨id, nofun, nofun, h⟩
  have hsame : ∀ commit, r'.known? commit = r.known? commit := fun commit => by
    rw [known?, hcommits, ← known?]
  have hfollows : r'.FollowsTable := by
    intro place known hwaiting hknown
    rw [hsame] at hknown
    rcases hline with ⟨-, -, htable⟩ | ⟨-, hbefore⟩
    · exact htable place known hwaiting hknown
    · -- what waited before was not in the table
      rw [hbefore] at hwaiting
      rw [h place hwaiting] at hknown
      cases hknown
  obtain ⟨hknown, hrow, hcommitted, hwaits⟩ := hfollows.settle
  exact ⟨fun hbefore => hknown ((hsame _).trans hbefore), hrow, hcommitted, hwaits⟩

/-- What the table says of a commit, it says after any lines. -/
theorem WaitsForNew.known?_after (h : r.WaitsForNew) (hknown : r.known? commit = some known)
    (lines : List Line) : (r.after lines).known? commit = some known := by
  induction lines generalizing r with
  | nil => exact hknown
  | cons line lines ih =>
    have hstep := h.step line
    exact ih hstep.waitsForNew (hstep.known?_of hknown)

/-- The rows that come of lines say of their commits what the table says in the end, and are of
changes that are committed. -/
theorem known?_of_mem_rows (h : r.WaitsForNew) {lines : List Line} (hrow : row ∈ r.rows lines) :
    (r.after lines).known? row.commit = some (row.author, row.timestamp) ∧
      row.commit ≠ uncommitted := by
  induction lines generalizing r with
  | nil => cases hrow
  | cons line lines ih =>
    have hstep := h.step line
    rw [rows_cons] at hrow
    rcases List.mem_append.mp hrow with hfirst | hlater
    · have hgiven := Option.mem_toList.mp hfirst
      exact ⟨hstep.waitsForNew.known?_after (hstep.known?_row hgiven) lines,
        hstep.committed hgiven⟩
    · exact ih hstep.waitsForNew hlater

end Reading

/-! ### Rows of any output -/

variable {output : Text} {rows : List BlameRow}

open Classical in
/-- What lines that are read as headers are about is what the headers are about. -/
theorem forall₂_places {texts : List Text} {lines : List Line}
    (h : List.Forall₂ (fun t line => Line.parse t = .ok line) texts lines) :
    List.Forall₂ (fun line place => ∃ h : Header line, place = h.place)
      (texts.filter fun line => Nonempty (Header line)) (lines.filterMap Line.place?) := by
  induction h with
  | nil => exact .nil
  | @cons t line texts lines hparse _ ih =>
    by_cases hheader : Nonempty (Header t)
    · obtain ⟨h⟩ := hheader
      rw [h.parse_eq] at hparse
      split at hparse
      · obtain rfl := Except.ok.inj hparse
        rw [List.filter_cons_of_pos (by simpa using ⟨h⟩)]
        exact .cons ⟨h, rfl⟩ ih
      · cases hparse
    · have hplace : line.place? = none := by
        cases line with
        | header commit number =>
          obtain ⟨h, -⟩ := parse_eq_header_iff.mp hparse
          exact absurd ⟨h⟩ hheader
        | content | author _ | time _ | other => rfl
      rw [List.filter_cons_of_neg (by simpa using hheader), List.filterMap_cons_none hplace]
      exact ih

open Classical in
/-- Whatever blame output is like, as long as it can be read, its rows belong to its headers, in order
and at most one to each, and have their commits and line numbers. No row is of a change that is not
committed. Rows of the same commit have the same author and time. And of the first lines of the output
come the first of the rows. -/
theorem rows_of_parse (h : parse output = .ok rows) :
    (∃ places, List.Forall₂ (fun line place => ∃ h : Header line, place = h.place)
        ((Text.breakLines output).filter fun line => Nonempty (Header line)) places ∧
      (rows.map (·.place)).Sublist places) ∧
    (∀ row ∈ rows, row.commit ≠ uncommitted) ∧
    (∀ x ∈ rows, ∀ y ∈ rows, x.commit = y.commit →
      x.author = y.author ∧ x.timestamp = y.timestamp) ∧
    ∀ k start, Text.breakLines start = (Text.breakLines output).take k →
      ∃ first, parse start = .ok first ∧ first <+: rows := by
  obtain ⟨lines, hlines, rfl⟩ := parse_eq_ok_iff.mp h
  have hread := mapM_parse_iff.mp hlines
  have hstart : Reading.WaitsForNew {} := nofun
  refine ⟨⟨_, forall₂_places hread, Reading.places_rows {} lines⟩, fun row hrow => ?_,
    fun x hx y hy hsame => ?_, fun k start hfirst => ?_⟩
  · exact (Reading.known?_of_mem_rows hstart hrow).2
  · -- both rows say what the table says of their commit in the end
    have hxtold := (Reading.known?_of_mem_rows hstart hx).1
    have hytold := (Reading.known?_of_mem_rows hstart hy).1
    rw [hsame, hytold] at hxtold
    obtain ⟨hauthor, htimestamp⟩ := Prod.mk.inj (Option.some.inj hxtold)
    exact ⟨hauthor.symm, htimestamp.symm⟩
  · have hfront : (Text.breakLines start).mapM Line.parse = .ok (lines.take k) := by
      rw [hfirst]
      exact mapM_parse_iff.mpr (List.forall₂_take k hread)
    refine ⟨Reading.rows {} (lines.take k), parse_eq_ok_iff.mpr ⟨_, hfront, rfl⟩, ?_⟩
    have hrows := Reading.rows_append {} (lines.take k) (lines.drop k)
    rw [List.take_append_drop] at hrows
    rw [hrows]
    exact List.prefix_append _ _

/-- Lines of blame output in disorder: metadata without a header, a time that cannot be read, metadata
that comes again and says something else, and a header without any. -/
def muddledLines : List Text :=
  ["author Zed", List.replicate 40 'a' ++ " 1 1 2", "author Ann", "author-time soon",
    "author-time 5", "author Eve", List.replicate 40 'b' ++ " 7 3", List.replicate 40 'a' ++ " 2 2",
    "author Bob", "author-time 8", uncommitted ++ " 1 4", "author Eve", "author-time 9"]

open Classical in
/-- Of the four headers the first and the third have rows, both by Ann, and the first rows come of the
first lines. -/
theorem rows_of_parse_muddled :
    ∃ rows, parse (Text.join ['\n'] muddledLines) = .ok rows ∧
      rows = [⟨1, "Ann", 5000, List.replicate 40 'a'⟩, ⟨2, "Ann", 5000, List.replicate 40 'a'⟩] ∧
      (∃ places, List.Forall₂ (fun line place => ∃ h : Header line, place = h.place)
          ((Text.breakLines (Text.join ['\n'] muddledLines)).filter fun line =>
            Nonempty (Header line)) places ∧
        (rows.map (·.place)).Sublist places) ∧
      (∀ row ∈ rows, row.commit ≠ uncommitted) ∧
      (∀ x ∈ rows, ∀ y ∈ rows, x.commit = y.commit →
        x.author = y.author ∧ x.timestamp = y.timestamp) ∧
      ∃ first, parse (Text.terminated (muddledLines.take 7)) = .ok first ∧ first <+: rows := by
  have hparse : parse (Text.join ['\n'] muddledLines) =
      .ok [⟨1, "Ann", 5000, List.replicate 40 'a'⟩, ⟨2, "Ann", 5000, List.replicate 40 'a'⟩] := by
    decide +kernel
  have hfirst : Text.breakLines (Text.terminated (muddledLines.take 7)) =
      (Text.breakLines (Text.join ['\n'] muddledLines)).take 7 := by decide +kernel
  obtain ⟨hplaces, hcommitted, hagree, hprefix⟩ := rows_of_parse hparse
  exact ⟨_, hparse, rfl, hplaces, hcommitted, hagree, hprefix 7 _ hfirst⟩

end Porcelain

end DebtSurvey
