import DebtSurvey.Settings.Loader

/-!
# What a settings document sets

Settings are read value by value in a fixed order, and the first value that cannot be used decides
what becomes of all of them: they are the defaults then, unless that value is an infinite number,
which is a fault. So no document sets some of its values and leaves the others at their defaults for
want of better ones.

How the bytes of a document come to a value is up to its reader, of which nothing is assumed: it
gives a plain value, finds the document malformed, or fails in another way, and only then is there a
fault.

## Main results

* `Settings.failsLike_ofEntries`: the settings fail like the first of their readings that fails.
* `Settings.load_ok_iff`: what the settings of a workspace are.
-/

namespace DebtSurvey.Settings

/-! ### Readings -/

/-- Why a part of settings cannot be read, if it cannot. -/
def fault? {α : Type} : Except Error α → Option Error
  | .ok _ => none
  | .error e => some e

/-- One thing that is asked of what entries tell. -/
inductive Reading where
  /-- The bands are a map. -/
  | bands (value : Datum)
  /-- A value denotes an integer. -/
  | integer (value : Datum)
  /-- There is no band with a name that is not known; it is asked only where there is. -/
  | unknownBand
  /-- The value of a name holds strings. -/
  | strings (name : Text) (value : Datum)

namespace Reading

/-- Why a reading fails, if it does. -/
def fault? : Reading → Option Error
  | .bands (.map _) => none
  | .bands other => some (.mapExpected bandsName other.typeName)
  | .integer value => Settings.fault? (Settings.integer value)
  | .unknownBand => some .unknownBand
  | .strings name value => Settings.fault? (Settings.strings name value)

/-- A reading that does not fail. -/
def IsUsable (r : Reading) : Prop := r.fault? = none

/-- A reading of an infinite number. -/
def IsInfinite (r : Reading) : Prop :=
  ∃ negative, r = .integer (.number (.float (.infinite negative)))

/-- Only an infinite number fails for being infinite. -/
theorem fault?_eq_infiniteNumber_iff (r : Reading) :
    r.fault? = some .infiniteNumber ↔ r.IsInfinite := by
  -- a numeral is an integer or none, never infinite
  have htext (t : Option Text) : integerOfText t ≠ .error .infiniteNumber := by
    unfold integerOfText
    split <;> simp
  constructor
  · intro h
    cases r with
    | bands value => cases value <;> cases h
    | unknownBand => cases h
    | strings name value =>
      simp only [fault?, Settings.strings] at h
      split at h
      · split at h <;> cases h
      · cases h
    | integer value =>
      replace h : Settings.fault? (Settings.integer value) = some .infiniteNumber := h
      have hinteger : Settings.integer value = .error .infiniteNumber := by
        rcases hvalue : Settings.integer value with e | n <;> rw [hvalue] at h
        · exact congrArg _ (Option.some.inj h)
        · cases h
      cases value with
      | number n =>
        rcases n with n | ⟨_ | negative | _⟩
        · cases hinteger
        · cases hinteger
        · exact ⟨negative, rfl⟩
        · cases hinteger
      | text t => exact absurd hinteger (htext _)
      | bytes b => exact absurd hinteger (htext _)
      | _ => cases hinteger
  · rintro ⟨negative, rfl⟩
    rfl

end Reading

variable (entries : List (Datum × Datum))

/-- The integer of a name is read, if the name occurs. -/
def integerReadings (name : Text) : List Reading :=
  (Datum.value? entries name).toList.map .integer

/-- The strings of a name are read, if the name occurs. -/
def stringReadings (name : Text) : List Reading :=
  (Datum.value? entries name).toList.map (.strings name)

/-- The readings of bands, in order: those that are known, then the others. -/
def bandReadings : List Reading :=
  let others := entries.filter fun (key, _) => !isBandName key
  integerReadings entries "low" ++ integerReadings entries "medium" ++
    integerReadings entries "high" ++ integerReadings entries "critical" ++
    others.map (fun (_, value) => .integer value) ++
    if others.isEmpty then [] else [.unknownBand]

/-- The entries of bands among the entries of settings; none where the bands are no map. -/
def innerEntries : List (Datum × Datum) :=
  match Datum.value? entries bandsName with
  | some (.map inner) => inner
  | _ => []

/-- All readings of settings, in order. -/
def readings : List Reading :=
  (Datum.value? entries bandsName).toList.map .bands ++
    integerReadings entries "stale_days_threshold" ++
    integerReadings entries "stale_import_threshold" ++
    bandReadings (innerEntries entries) ++
    stringReadings entries "todo_patterns" ++
    stringReadings entries "exclude_globs" ++
    integerReadings entries "max_files_to_scan" ++
    stringReadings entries "audit_command"

/-! ### The first reading that fails -/

/-- A part of settings fails like the first of some readings that fails. -/
def FailsLike {α : Type} (part : Except Error α) (rs : List Reading) : Prop :=
  fault? part = rs.findSome? Reading.fault?

section FailsLike

variable {α β : Type} {part : Except Error α} {rs rs' : List Reading}

theorem FailsLike.bind (h : FailsLike part rs) {next : α → Except Error β}
    (hnext : ∀ a, part = .ok a → FailsLike (next a) rs') :
    FailsLike (part >>= next) (rs ++ rs') := by
  unfold FailsLike at h ⊢
  rw [List.findSome?_append, ← h]
  -- a part that fails stops the readings after it
  rcases part with e | a
  · rfl
  · exact hnext a rfl

theorem FailsLike.map (h : FailsLike part rs) (f : α → β) :
    FailsLike (part >>= fun a => pure (f a)) rs := by
  rw [← List.append_nil rs]
  exact h.bind fun a _ => rfl

variable (default : Int) (name : Text)

theorem failsLike_integerOr :
    FailsLike (integerOr default entries name) (integerReadings entries name) := by
  unfold FailsLike integerOr integerReadings
  rcases Datum.value? entries name with _ | value
  · rfl
  · show fault? (integer value) = List.findSome? _ [Reading.integer value]
    rw [List.findSome?_singleton]
    rfl

theorem failsLike_stringsOr (default : List DocText) :
    FailsLike (stringsOr default entries name) (stringReadings entries name) := by
  unfold FailsLike stringsOr stringReadings
  rcases Datum.value? entries name with _ | value
  · rfl
  · show fault? (strings name value) = List.findSome? _ [Reading.strings name value]
    rw [List.findSome?_singleton]
    rfl

theorem failsLike_bandEntries :
    FailsLike (bandEntries entries) ((Datum.value? entries bandsName).toList.map .bands) := by
  unfold FailsLike bandEntries
  rcases Datum.value? entries bandsName with _ | value
  · rfl
  · cases value <;> rfl

theorem eq_innerEntries {inner : List (Datum × Datum)} (h : bandEntries entries = .ok inner) :
    inner = innerEntries entries := by
  unfold bandEntries at h
  unfold innerEntries
  split at h
  · rename_i hnone
    rw [hnone]
    exact (Except.ok.inj h).symm
  · rename_i inner hinner
    rw [hinner]
    exact (Except.ok.inj h).symm
  · cases h

theorem failsLike_mapM_integer :
    FailsLike (entries.mapM fun (_, value) => integer value)
      (entries.map fun (_, value) => .integer value) := by
  induction entries with
  | nil => rfl
  | cons entry rest ih =>
    rw [List.mapM_cons, List.map_cons, ← List.singleton_append]
    refine FailsLike.bind ?_ fun n _ => ih.map _
    rw [FailsLike, List.findSome?_singleton]
    rfl

theorem failsLike_bandsOf : FailsLike (bandsOf entries) (bandReadings entries) := by
  simp only [bandsOf, bandReadings, List.append_assoc]
  refine (failsLike_integerOr entries _ "low").bind fun low _ => ?_
  refine (failsLike_integerOr entries _ "medium").bind fun medium _ => ?_
  refine (failsLike_integerOr entries _ "high").bind fun high _ => ?_
  refine (failsLike_integerOr entries _ "critical").bind fun critical _ => ?_
  refine (failsLike_mapM_integer _).bind fun _ _ => ?_
  split <;> rfl

/-- Settings fail like the first of their readings that fails. -/
theorem failsLike_ofEntries : FailsLike (ofEntries entries) (readings entries) := by
  simp only [ofEntries, readings, List.append_assoc]
  -- a step for each part, in the order in which they are read
  refine (failsLike_bandEntries entries).bind fun inner hinner => ?_
  obtain rfl := eq_innerEntries entries hinner
  refine (failsLike_integerOr entries _ "stale_days_threshold").bind fun staleDays _ => ?_
  refine (failsLike_integerOr entries _ "stale_import_threshold").bind fun staleImports _ => ?_
  refine (failsLike_bandsOf (innerEntries entries)).bind fun bands _ => ?_
  refine (failsLike_stringsOr entries "todo_patterns" _).bind fun markerWords _ => ?_
  refine (failsLike_stringsOr entries "exclude_globs" _).bind fun excludes _ => ?_
  refine (failsLike_integerOr entries _ "max_files_to_scan").bind fun fileLimit _ => ?_
  exact (failsLike_stringsOr entries "audit_command" _).map _

end FailsLike

/-! ### Documents -/

/-- The entries that the settings document at a path sets. Without a document, and where it is
malformed or no map, there are none. -/
inductive Sets (read : Reader) (files : Node) (path : Text) : List (Datum × Datum) → Prop
  | absent (h : ¬files.hasPath path) : Sets read files path []
  | malformed {bytes : List UInt8} (h : files.read path = .ok bytes)
      (hvalue : read bytes = .error .malformed) : Sets read files path []
  | map {bytes : List UInt8} {entries : List (Datum × Datum)} (h : files.read path = .ok bytes)
      (hvalue : read bytes = .ok (.map entries)) : Sets read files path entries
  | other {bytes : List UInt8} {value : Datum} (h : files.read path = .ok bytes)
      (hvalue : read bytes = .ok value) (hmap : ∀ entries, value ≠ .map entries) :
      Sets read files path []

section Load

variable {read : Reader} {files : Node} {path : Text} {entries : List (Datum × Datum)}

theorem readDocument_eq {bytes : List UInt8} (h : files.read path = .ok bytes) :
    readDocument read files path = .ok (some (read bytes)) := by
  have hpath : files.hasPath path := by
    unfold Node.read at h
    rw [Node.hasPath]
    split at h
    · rename_i bytes hat
      rw [hat]
      rfl
    · cases h
    · cases h
  rw [readDocument, if_pos hpath, h]

/-- The entries that are read are those that the document sets. -/
theorem exists_readEntries_iff :
    (∃ event, readEntries read files path = .ok (entries, event)) ↔
      Sets read files path entries := by
  constructor
  · rintro ⟨event, h⟩
    unfold readEntries readDocument at h
    split at h
    · rename_i hpath
      rcases hread : files.read path with e | bytes <;> rw [hread] at h
      · cases h
      simp only at h
      rcases hvalue : read bytes with e | value <;> rw [hvalue] at h
      · -- of the ways not to be a value, only being malformed is passed over
        cases e <;> cases h
        exact .malformed hread hvalue
      · by_cases hmap : ∃ inner, value = .map inner
        · obtain ⟨inner, rfl⟩ := hmap
          cases h
          exact .map hread hvalue
        · rw [not_exists] at hmap
          obtain rfl : entries = [] := by
            cases value with
            | map inner => exact absurd rfl (hmap inner)
            | _ => cases h; rfl
          exact .other hread hvalue hmap
    · rename_i hpath
      obtain ⟨rfl, -⟩ := Prod.mk.inj (Except.ok.inj h)
      exact .absent hpath
  · rintro (hpath | ⟨h, hvalue⟩ | ⟨h, hvalue⟩ | ⟨h, hvalue, hmap⟩)
    · exact ⟨none, by rw [readEntries, readDocument, if_neg hpath]; rfl⟩
    · exact ⟨_, by rw [readEntries, readDocument_eq h, hvalue]; rfl⟩
    · exact ⟨_, by rw [readEntries, readDocument_eq h, hvalue]; rfl⟩
    · rename_i value
      rw [readEntries, readDocument_eq h, hvalue]
      cases value with
      | map inner => exact absurd rfl (hmap inner)
      | _ => exact ⟨_, rfl⟩

/-- Entries give settings unless the first of their readings that is not usable is infinite. -/
theorem exists_settle_iff {settings : Preferences} :
    (∃ event, settle path entries = .ok (settings, event)) ↔
      ofEntries entries = .ok settings ∨
        settings = {} ∧ ∃ before reading after, readings entries = before ++ reading :: after ∧
          (∀ r ∈ before, r.IsUsable) ∧ ¬reading.IsUsable ∧ ¬reading.IsInfinite := by
  have hfails : fault? (ofEntries entries) = (readings entries).findSome? Reading.fault? :=
    failsLike_ofEntries entries
  constructor
  · rintro ⟨event, h⟩
    unfold settle at h
    split at h
    · rename_i s hs
      cases h
      exact .inl hs
    · cases h
    · -- the reading that the failure is of is the first that is not usable
      rename_i e hinfinite he
      cases h
      rw [he] at hfails
      obtain ⟨before, reading, after, hreadings, hreading, hbefore⟩ :=
        List.findSome?_eq_some_iff.1 hfails.symm
      refine .inr ⟨rfl, before, reading, after, hreadings, hbefore, ?_, ?_⟩
      · rw [Reading.IsUsable, hreading]
        exact Option.some_ne_none e
      · rw [← Reading.fault?_eq_infiniteNumber_iff, hreading]
        exact fun h => hinfinite (Option.some.inj h)
  · rintro (h | ⟨rfl, before, reading, after, hreadings, hbefore, husable, hinfinite⟩)
    · exact ⟨none, by rw [settle, h]⟩
    · obtain ⟨e, he⟩ := Option.ne_none_iff_exists'.1 husable
      rw [List.findSome?_eq_some_iff.2 ⟨before, reading, after, hreadings, he, hbefore⟩] at hfails
      have hne : e ≠ .infiniteNumber := by
        rintro rfl
        exact hinfinite (reading.fault?_eq_infiniteNumber_iff.1 he)
      unfold settle
      split
      · rename_i s hs
        rw [hs] at hfails
        cases hfails
      · rename_i hs
        rw [hs] at hfails
        exact absurd (Option.some.inj hfails).symm hne
      · exact ⟨_, rfl⟩

end Load

/-- Settings are loaded where the document sets entries, and are either what all the entries tell or
the defaults: the latter where the first reading that is not usable is no infinite number. Nothing
is loaded in any other case. -/
theorem load_ok_iff {read : Reader} {files : Node} {directory : Text} {settings : Preferences} :
    (load read files directory).1 = .ok settings ↔
      ∃ entries, Sets read files (Path.append directory documentName) entries ∧
        (ofEntries entries = .ok settings ∨
          settings = {} ∧ ∃ before reading after, readings entries = before ++ reading :: after ∧
            (∀ r ∈ before, r.IsUsable) ∧ ¬reading.IsUsable ∧ ¬reading.IsInfinite) := by
  have hload : (load read files directory).1 = .ok settings ↔
      ∃ entries, (∃ event, readEntries read files (Path.append directory documentName) =
          .ok (entries, event)) ∧
        ∃ event, settle (Path.append directory documentName) entries = .ok (settings, event) := by
    simp only [load]
    rcases readEntries read files (Path.append directory documentName) with fault | ⟨entries, noted⟩
    · simp
    · rcases hsettle : settle (Path.append directory documentName) entries with
        fault | ⟨s, event⟩ <;> simp [hsettle]
  rw [hload]
  exact exists_congr fun entries => and_congr exists_readEntries_iff exists_settle_iff

-- Nothing is loaded from a document that sets an infinite number, not even the defaults.
example :
    let document : Node := .file (Text.Utf8.encode "stale_days_threshold: .inf\n")
    (load Yaml.readBytes (.dir [("w", .dir [(documentName, document)])]) "/w").1.toOption =
      none := by
  decide +kernel

end DebtSurvey.Settings
