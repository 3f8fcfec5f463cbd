import DebtSurvey.Proofs.WrittenToken
import Mathlib.Data.List.Nodup

/-!
# Written documents

A tree of texts, integers, arrays and objects is written one item to a line, and read back as it
was. Line breaks and indentation are skipped wherever a value or a name is expected. The fields of
an object are read into those before them, so they come back in their order if no name repeats.

## Main results

* `Json.readItems_items`: the items of an array are read back.
* `Json.readFields_fields`: the fields of an object are read back.
* `Json.parse?_render`: a tree is read back from its document.
-/

namespace DebtSurvey

theorem DocText.ofText_injective : Function.Injective DocText.ofText := fun s t h => by
  have hread := congrArg DocText.toText? h
  rwa [DocText.toText?_ofText, DocText.toText?_ofText, Option.some_inj] at hread

namespace Json

/-- Names as they stand in documents, with their values. -/
def named (entries : List (Text × Json)) : List (DocText × Json) :=
  entries.map fun (name, value) => (DocText.ofText name, value)

theorem map_fst_named (entries : List (Text × Json)) :
    (named entries).map (·.1) = (entries.map (·.1)).map DocText.ofText := by
  rw [named, List.map_map, List.map_map]
  rfl

/-- A tree of texts, arrays, objects whose names are distinct texts, and integers of some kind. -/
inductive IsTree (IsAllowed : Int → Prop) : Json → Prop
  | text (t : Text) : IsTree IsAllowed (ofText t)
  | integer {n : Int} (allowed : IsAllowed n) : IsTree IsAllowed (ofInt n)
  | array {items : List Json} (trees : ∀ item ∈ items, IsTree IsAllowed item) :
    IsTree IsAllowed (.array items)
  | object {entries : List (Text × Json)} (distinct : (entries.map (·.1)).Nodup)
    (trees : ∀ entry ∈ entries, IsTree IsAllowed entry.2) :
    IsTree IsAllowed (.object (named entries))

/-! ### Between values -/

theorem skipSpace_cons {c : Char} (h : isSpace c = false) (t : Text) :
    skipSpace (c :: t) = c :: t := by
  rw [skipSpace, List.dropWhile_cons_of_neg (by simp [h])]

@[simp]
theorem skipSpace_lineBreak (depth : Nat) (t : Text) :
    skipSpace (Layout.indented.lineBreak depth ++ t) = skipSpace t := by
  have hblank : ∀ c ∈ Layout.indented.lineBreak depth, isSpace c := by
    intro c hc
    rcases List.mem_cons.mp hc with rfl | hc
    · rfl
    · rw [List.eq_of_mem_replicate hc]
      rfl
  exact List.dropWhile_append_of_pos hblank

theorem endsNumber_lineBreak (depth : Nat) (t : Text) :
    EndsNumber (Layout.indented.lineBreak depth ++ t) := by
  intro c hc
  obtain rfl := Option.some.inj hc
  decide

theorem endsNumber_comma (t : Text) : EndsNumber (',' :: t) := by
  intro c hc
  obtain rfl := Option.some.inj hc
  decide

/-! ### Values -/

/-- The text of a value at a depth, one item to a line. -/
abbrev written (depth : Nat) (v : Json) : Text := renderAt .indented depth v

/-- The text of a field at a depth. -/
def writtenField (depth : Nat) (entry : Text × Json) : Text :=
  quote (DocText.ofText entry.1) ++ ": " ++ written depth entry.2

/-- Items on lines of their own. -/
def onLines (depth : Nat) (items : List Text) : Text :=
  Text.join ("," ++ Layout.indented.lineBreak depth) items

theorem onLines_cons_cons (depth : Nat) (first second : Text) (items : List Text) (behind : Text) :
    onLines depth (first :: second :: items) ++ behind =
      first ++ ',' :: (Layout.indented.lineBreak depth ++
        (onLines depth (second :: items) ++ behind)) := by
  simp [onLines, Text.join, Text.ofString]

theorem length_onLines_cons_cons (depth : Nat) (first second : Text) (items : List Text) :
    first.length + (onLines depth (second :: items)).length <
      (onLines depth (first :: second :: items)).length := by
  have := congrArg List.length (onLines_cons_cons depth first second items [])
  simp only [List.length_append, List.length_cons, List.length_nil] at this
  omega

/-- Items start as the first of them. -/
theorem onLines_cons_append (depth : Nat) (c : Char) (first : Text) (items : List Text)
    (behind : Text) : ∃ t, onLines depth ((c :: first) :: items) ++ behind = c :: t := by
  cases items with
  | nil => exact ⟨_, rfl⟩
  | cons second items => exact ⟨_, onLines_cons_cons depth _ second items behind⟩

theorem enclose_append {items : List Text} (hne : items ≠ []) (depth : Nat) (opening closing : Char)
    (rest : Text) : enclose .indented depth opening closing items ++ rest =
      opening :: (Layout.indented.lineBreak (depth + 1) ++
        (onLines (depth + 1) items ++ (Layout.indented.lineBreak depth ++ closing :: rest))) := by
  rw [enclose, if_neg (by simpa using hne)]
  simp [onLines, Layout.indented]

theorem length_onLines_lt {items : List Text} (hne : items ≠ []) (depth : Nat)
    (opening closing : Char) : (onLines (depth + 1) items).length <
      (enclose .indented depth opening closing items).length := by
  have := congrArg List.length (enclose_append hne depth opening closing [])
  simp only [List.length_append, List.length_cons, List.length_nil] at this
  omega

/-- What is enclosed stands behind its opening bracket. -/
theorem exists_enclose_eq_cons (depth : Nat) (opening closing : Char) (items : List Text) :
    ∃ t, enclose .indented depth opening closing items = opening :: t := by
  rw [enclose]
  split <;> exact ⟨_, rfl⟩

theorem length_enclose_pos (depth : Nat) (opening closing : Char) (items : List Text) :
    0 < (enclose .indented depth opening closing items).length := by
  obtain ⟨t, ht⟩ := exists_enclose_eq_cons depth opening closing items
  rw [ht]
  exact Nat.succ_pos _

theorem renderItems_eq (depth : Nat) (items : List Json) :
    renderItems .indented depth items = items.map (written depth) := by
  induction items with
  | nil => rfl
  | cons item items ih => rw [renderItems, ih, List.map_cons]

theorem renderFields_eq (depth : Nat) (entries : List (Text × Json)) :
    renderFields .indented depth (named entries) = entries.map (writtenField depth) := by
  induction entries with
  | nil => rfl
  | cons entry entries ih =>
    show renderFields .indented depth ((DocText.ofText entry.1, entry.2) :: named entries) = _
    rw [renderFields, ih, List.map_cons]
    rfl

/-- A value that is read back at any depth, whatever ends a number behind it; and its text starts
neither with a blank nor as an array ends. Its brackets are among its characters, so a limit of
nesting that is no less than their number is high enough. -/
structure IsReadBack (v : Json) : Prop where
  start : ∀ depth, ∃ c t, written depth v = c :: t ∧ isSpace c = false ∧ c ≠ ']'
  value : ∀ {depth fuel nesting rest}, 2 * (written depth v).length ≤ fuel →
    (written depth v).length ≤ nesting → EndsNumber rest →
    readValue (fuel + 1) nesting (written depth v ++ rest) = .ok (v, rest)

/-- A text in its quotes, with what follows. -/
theorem quote_append (t rest : Text) : quote (DocText.ofText t) ++ rest =
    '"' :: ((DocText.ofText t).flatMap escapePoint ++ '"' :: rest) := by
  simp [quote]

theorem isReadBack_ofText (t : Text) : IsReadBack (ofText t) where
  start _ := ⟨'"', _, rfl, by decide, by decide⟩
  value {depth fuel nesting rest} _ _ _ := by
    show readValue (fuel + 1) nesting (quote (DocText.ofText t) ++ rest) = _
    rw [quote_append, readValue, readString?_quoted]
    rfl

/-- An integer starts with a digit or a minus sign. -/
theorem exists_ofInt_eq_cons (n : Int) :
    ∃ c t, Text.ofInt n = c :: t ∧ (c.isDigit ∨ c = '-') := by
  cases n with
  | ofNat n =>
    obtain ⟨c, t, hdigits, hc⟩ := exists_ofNat_eq_cons n
    exact ⟨c, t, hdigits, .inl hc⟩
  | negSucc n => exact ⟨'-', _, rfl, .inr rfl⟩

theorem isReadBack_ofInt {n : Int} (h : Fits n) : IsReadBack (ofInt n) := by
  obtain ⟨c, t, htext, hc⟩ := exists_ofInt_eq_cons n
  -- so it starts neither as a text nor as an array or an object does
  have hne {d : Char} (hdigit : d.isDigit = false) (hminus : d ≠ '-') : c ≠ d :=
    ne_of_isStart hc hdigit hminus
  constructor
  · intro depth
    refine ⟨c, t, htext, ?_, hne (by decide) (by decide)⟩
    simp [isSpace, hne (d := ' ') (by decide) (by decide), hne (d := '\t') (by decide) (by decide),
      hne (d := '\n') (by decide) (by decide), hne (d := '\r') (by decide) (by decide)]
  · intro depth fuel nesting rest _ _ hrest
    have hsimple := readSimple?_ofInt hrest h
    show readValue (fuel + 1) nesting (Text.ofInt n ++ rest) = _
    rw [htext, List.cons_append] at hsimple ⊢
    rw [readValue, hsimple]
    · rfl
    · exact fun _ hcons => hne (by decide) (by decide) (List.cons.inj hcons).1
    · exact fun _ hcons => hne (by decide) (by decide) (List.cons.inj hcons).1
    · exact fun _ hcons => hne (by decide) (by decide) (List.cons.inj hcons).1

section Items

variable {fuel nesting : Nat}

/-- An item with the closing bracket behind it is the last. -/
theorem readItems_last {t after rest : Text} {item : Json}
    (hitem : readValue fuel nesting t = .ok (item, after))
    (hafter : skipSpace after = ']' :: rest) :
    readItems (fuel + 1) nesting t = .ok ([item], rest) := by
  rw [readItems, hitem]
  simp only [bind, Except.bind, hafter]
  rfl

/-- An item with a comma behind it stands before others. -/
theorem readItems_more {t after others rest : Text} {item : Json} {items : List Json}
    (hitem : readValue fuel nesting t = .ok (item, after))
    (hafter : skipSpace after = ',' :: others)
    (hothers : readItems fuel nesting (skipSpace others) = .ok (items, rest)) :
    readItems (fuel + 1) nesting t = .ok (item :: items, rest) := by
  rw [readItems, hitem]
  simp only [bind, Except.bind, hafter, hothers]
  rfl

variable {items : List Json} (h : ∀ item ∈ items, IsReadBack item)

include h

/-- The written items of an array start as its first item. -/
theorem exists_items_eq_cons (hne : items ≠ []) (depth : Nat) (behind : Text) :
    ∃ c t, onLines depth (items.map (written depth)) ++ behind = c :: t ∧
      isSpace c = false ∧ c ≠ ']' := by
  obtain ⟨item, items, rfl⟩ := List.exists_cons_of_ne_nil hne
  obtain ⟨c, first, hfirst, hc⟩ := (h item List.mem_cons_self).start depth
  rw [List.map_cons, hfirst]
  obtain ⟨t, ht⟩ := onLines_cons_append depth c first (items.map (written depth)) behind
  exact ⟨c, t, ht, hc⟩

/-- The items of an array are read back. The bound on the recursion is twice the length of the text,
which covers a step into every item and one to the next. -/
theorem readItems_items (hne : items ≠ []) (depth : Nat)
    (hfuel : 2 * (onLines (depth + 1) (items.map (written (depth + 1)))).length < fuel)
    (hnesting : (onLines (depth + 1) (items.map (written (depth + 1)))).length ≤ nesting)
    (rest : Text) :
    readItems (fuel + 1) nesting (onLines (depth + 1) (items.map (written (depth + 1))) ++
      (Layout.indented.lineBreak depth ++ ']' :: rest)) = .ok (items, rest) := by
  induction items generalizing fuel with
  | nil => exact absurd rfl hne
  | cons item items ih =>
    obtain ⟨hitem, hitems⟩ := List.forall_mem_cons.mp h
    obtain ⟨fuel, rfl⟩ := Nat.exists_eq_succ_of_ne_zero (Nat.ne_zero_of_lt hfuel)
    cases items with
    | nil =>
      refine readItems_last
        (hitem.value (Nat.le_of_lt_succ hfuel) hnesting (endsNumber_lineBreak _ _)) ?_
      rw [skipSpace_lineBreak, skipSpace_cons rfl]
    | cons next items =>
      have hlength := length_onLines_cons_cons (depth + 1) (written (depth + 1) item)
        (written (depth + 1) next) (items.map (written (depth + 1)))
      rw [List.map_cons, List.map_cons] at hfuel hnesting ⊢
      rw [onLines_cons_cons]
      refine readItems_more (hitem.value (by omega) (by omega) (endsNumber_comma _))
        (skipSpace_cons rfl _) ?_
      obtain ⟨c, t, ht, hblank, -⟩ := exists_items_eq_cons hitems (List.cons_ne_nil _ _) (depth + 1)
        (Layout.indented.lineBreak depth ++ ']' :: rest)
      rw [skipSpace_lineBreak, ← List.map_cons, ht, skipSpace_cons hblank, ← ht]
      exact ih hitems (List.cons_ne_nil _ _) (by rw [List.map_cons]; omega)
        (by rw [List.map_cons]; omega)

theorem isReadBack_array : IsReadBack (.array items) := by
  have hwritten (depth : Nat) : written depth (.array items) =
      enclose .indented depth '[' ']' (items.map (written (depth + 1))) := by
    rw [written, renderAt, renderItems_eq]
  constructor
  · intro depth
    obtain ⟨t, ht⟩ := exists_enclose_eq_cons depth '[' ']' (items.map (written (depth + 1)))
    exact ⟨'[', t, (hwritten depth).trans ht, by decide, by decide⟩
  · intro depth fuel nesting rest hfuel hnesting _
    have hlimit := length_enclose_pos depth '[' ']' (items.map (written (depth + 1)))
    rw [hwritten] at hfuel hnesting ⊢
    -- the brackets of the array take one off the limit
    obtain ⟨nesting, rfl⟩ : ∃ n, nesting = n + 1 := ⟨nesting - 1, by omega⟩
    by_cases hne : items = []
    · subst hne
      rfl
    have hmap (depth : Nat) : items.map (written depth) ≠ [] := by simpa using hne
    have hlength := length_onLines_lt (hmap (depth + 1)) depth '[' ']'
    obtain ⟨fuel, rfl⟩ : ∃ n, fuel = n + 1 := ⟨fuel - 1, by omega⟩
    have hread := readItems_items h hne depth (by omega : _ < fuel) (by omega : _ ≤ nesting) rest
    obtain ⟨c, t, ht, hblank, hclosing⟩ := exists_items_eq_cons h hne (depth + 1)
      (Layout.indented.lineBreak depth ++ ']' :: rest)
    rw [ht] at hread
    rw [enclose_append (hmap _), ht, readValue]
    simp only
    rw [skipSpace_lineBreak, skipSpace_cons hblank]
    split
    · -- the first item does not start as the array ends
      rename_i hcons
      exact absurd (List.cons.inj hcons).1 hclosing
    · rw [hread]
      rfl

end Items

section Fields

variable {fuel nesting : Nat}

/-- A name that is new among fields is added behind them. -/
theorem setField_of_notMem {before : List (DocText × Json)} {name : DocText} (value : Json)
    (h : name ∉ before.map (·.1)) : setField before name value = before ++ [(name, value)] := by
  induction before with
  | nil => rfl
  | cons first before ih =>
    obtain ⟨hfirst, hbefore⟩ := not_or.mp (mt List.mem_cons.mpr h)
    rw [setField, if_neg (Ne.symm hfirst), ih hbefore, List.cons_append]

theorem writtenField_append (depth : Nat) (entry : Text × Json) (behind : Text) :
    writtenField depth entry ++ behind =
      '"' :: ((DocText.ofText entry.1).flatMap escapePoint ++
        '"' :: ':' :: ' ' :: (written depth entry.2 ++ behind)) := by
  rw [writtenField, List.append_assoc, List.append_assoc, quote_append]
  rfl

/-- A written field gives its name its value; what stands behind it ends the object or goes on with
it. -/
theorem readFields_field {entry : Text × Json} (h : IsReadBack entry.2) {depth : Nat}
    (hfuel : 2 * (writtenField depth entry).length ≤ fuel)
    (hnesting : (writtenField depth entry).length ≤ nesting) {behind : Text}
    (hbehind : EndsNumber behind) (before : List (DocText × Json)) :
    readFields (fuel + 2) nesting before (writtenField depth entry ++ behind) =
      match skipSpace behind with
      | '\x7d' :: rest => .ok (setField before (DocText.ofText entry.1) entry.2, rest)
      | ',' :: rest => readFields (fuel + 1) nesting
          (setField before (DocText.ofText entry.1) entry.2) (skipSpace rest)
      | _ => .error .malformed := by
  have hlength := congrArg List.length (writtenField_append depth entry [])
  simp only [List.length_append, List.length_cons, List.length_nil] at hlength
  obtain ⟨c, t, ht, hblank, -⟩ := h.start depth
  have hvalue : skipSpace (' ' :: (written depth entry.2 ++ behind)) =
      written depth entry.2 ++ behind := by
    rw [ht, List.cons_append]
    exact skipSpace_cons hblank _
  rw [writtenField_append, readFields, readString?_quoted]
  simp only [orMalformed, bind, Except.bind, skipSpace_cons (c := ':') rfl, hvalue]
  rw [h.value (by omega) (by omega) hbehind]
  rfl

/-- The written fields of an object start with a quote. -/
theorem exists_fields_eq_cons {entries : List (Text × Json)} (hne : entries ≠ []) (depth : Nat)
    (behind : Text) :
    ∃ t, onLines depth (entries.map (writtenField depth)) ++ behind = '"' :: t := by
  obtain ⟨entry, entries, rfl⟩ := List.exists_cons_of_ne_nil hne
  exact onLines_cons_append depth '"' _ (entries.map (writtenField depth)) behind

variable {entries : List (Text × Json)} (h : ∀ entry ∈ entries, IsReadBack entry.2)

include h

/-- The fields of an object are read back, behind those that were read before. -/
theorem readFields_fields (hne : entries ≠ []) (before : List (DocText × Json))
    (hdistinct : ((before ++ named entries).map (·.1)).Nodup) (depth : Nat)
    (hfuel : 2 * (onLines (depth + 1) (entries.map (writtenField (depth + 1)))).length < fuel)
    (hnesting : (onLines (depth + 1) (entries.map (writtenField (depth + 1)))).length ≤ nesting)
    (rest : Text) :
    readFields (fuel + 1) nesting before
        (onLines (depth + 1) (entries.map (writtenField (depth + 1))) ++
          (Layout.indented.lineBreak depth ++ '\x7d' :: rest)) =
      .ok (before ++ named entries, rest) := by
  induction entries generalizing before fuel with
  | nil => exact absurd rfl hne
  | cons entry entries ih =>
    obtain ⟨hentry, hentries⟩ := List.forall_mem_cons.mp h
    obtain ⟨fuel, rfl⟩ := Nat.exists_eq_succ_of_ne_zero (Nat.ne_zero_of_lt hfuel)
    -- the name is none of those before, so the field is added behind them
    have hadded : setField before (DocText.ofText entry.1) entry.2 =
        before ++ named [entry] := by
      refine setField_of_notMem _ fun hmem => ?_
      rw [List.map_append] at hdistinct
      exact (List.nodup_append.mp hdistinct).2.2 _ hmem _ List.mem_cons_self rfl
    cases entries with
    | nil =>
      have hread := readFields_field hentry (Nat.le_of_lt_succ hfuel) hnesting
        (endsNumber_lineBreak depth ('\x7d' :: rest)) before
      rw [skipSpace_lineBreak, skipSpace_cons rfl, hadded] at hread
      exact hread
    | cons next entries =>
      have hlength := length_onLines_cons_cons (depth + 1) (writtenField (depth + 1) entry)
        (writtenField (depth + 1) next) (entries.map (writtenField (depth + 1)))
      rw [List.map_cons, List.map_cons] at hfuel hnesting ⊢
      rw [onLines_cons_cons, readFields_field hentry (by omega) (by omega) (endsNumber_comma _),
        skipSpace_cons rfl]
      obtain ⟨t, ht⟩ := exists_fields_eq_cons (List.cons_ne_nil next entries) (depth + 1)
        (Layout.indented.lineBreak depth ++ '\x7d' :: rest)
      simp only [skipSpace_lineBreak, hadded]
      have hothers : ((before ++ named [entry] ++ named (next :: entries)).map (·.1)).Nodup := by
        simpa [named] using hdistinct
      rw [← List.map_cons, ht, skipSpace_cons rfl, ← ht,
        ih hentries (List.cons_ne_nil _ _) _ hothers (by rw [List.map_cons]; omega)
          (by rw [List.map_cons]; omega),
        List.append_assoc]
      rfl

theorem isReadBack_object (hdistinct : (entries.map (·.1)).Nodup) :
    IsReadBack (.object (named entries)) := by
  have hwritten (depth : Nat) : written depth (.object (named entries)) =
      enclose .indented depth '\x7b' '\x7d' (entries.map (writtenField (depth + 1))) := by
    rw [written, renderAt, renderFields_eq]
  have hnames : ((named entries).map (·.1)).Nodup := by
    rw [map_fst_named]
    exact hdistinct.map DocText.ofText_injective
  constructor
  · intro depth
    obtain ⟨t, ht⟩ :=
      exists_enclose_eq_cons depth '\x7b' '\x7d' (entries.map (writtenField (depth + 1)))
    exact ⟨'\x7b', t, (hwritten depth).trans ht, by decide, by decide⟩
  · intro depth fuel nesting rest hfuel hnesting _
    have hlimit :=
      length_enclose_pos depth '\x7b' '\x7d' (entries.map (writtenField (depth + 1)))
    rw [hwritten] at hfuel hnesting ⊢
    obtain ⟨nesting, rfl⟩ : ∃ n, nesting = n + 1 := ⟨nesting - 1, by omega⟩
    by_cases hne : entries = []
    · subst hne
      rfl
    have hmap (depth : Nat) : entries.map (writtenField depth) ≠ [] := by simpa using hne
    have hlength := length_onLines_lt (hmap (depth + 1)) depth '\x7b' '\x7d'
    obtain ⟨fuel, rfl⟩ : ∃ n, fuel = n + 1 := ⟨fuel - 1, by omega⟩
    have hread := readFields_fields h hne [] hnames depth (by omega : _ < fuel)
      (by omega : _ ≤ nesting) rest
    obtain ⟨t, ht⟩ := exists_fields_eq_cons hne (depth + 1)
      (Layout.indented.lineBreak depth ++ '\x7d' :: rest)
    rw [ht] at hread
    rw [enclose_append (hmap _), ht, readValue]
    simp only
    rw [skipSpace_lineBreak, skipSpace_cons rfl]
    split
    · rename_i hcons
      exact absurd (List.cons.inj hcons).1 (by decide)
    · rw [hread]
      rfl

end Fields

theorem IsTree.isReadBack {v : Json} (h : v.IsTree Fits) : v.IsReadBack := by
  induction h with
  | text t => exact isReadBack_ofText t
  | integer hfits => exact isReadBack_ofInt hfits
  | array _ ih => exact isReadBack_array ih
  | object hdistinct _ ih => exact isReadBack_object ih hdistinct

/-- A tree is read back from its document. -/
theorem parse?_render {v : Json} (h : v.IsTree Fits) :
    parse? (v.render .indented) = some v := by
  obtain ⟨c, t, ht, hblank, -⟩ := h.isReadBack.start 0
  have hread : readValue _ _ (written 0 v ++ []) = _ :=
    h.isReadBack.value (Nat.le_succ _) le_rfl nofun
  rw [List.append_nil, ht] at hread
  show parse? (written 0 v) = some v
  rw [parse?, read, ht, skipSpace_cons hblank, hread]
  rfl

end Json

end DebtSurvey
