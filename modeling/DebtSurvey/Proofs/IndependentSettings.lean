import DebtSurvey.Settings.Reader
import Mathlib.Tactic.Choose

/-!
# Settings are independent

Every setting is read from the value of its own name and from nothing else. So entries give settings
just where each entry does so alone, and every setting is then what its own entry makes it, or its
default where there is none. Names that are not known make no difference, and neither does the order
of entries. Of the bands of complexity, which are entries of a setting, each is read on its own too,
but here names that are not known are refused.

## Main results

* `Settings.ofEntries_eq_ok_iff`: settings are read one by one.
* `Settings.read_congr`: a setting is read from the value of its name.
* `Settings.ofEntries_independent`: what entries come to, in terms of what each comes to alone.
-/

namespace DebtSurvey

/-- A computation succeeds if both of its parts do. -/
theorem bind_eq_ok_iff {ε α β : Type} {part : Except ε α} {next : α → Except ε β} {b : β} :
    part >>= next = .ok b ↔ ∃ a, part = .ok a ∧ next a = .ok b := by
  rcases part with e | a <;> simp [bind, Except.bind]

namespace Datum

/-- A name as a key. -/
def ofName (name : Text) : Datum := .text (DocText.ofText name)

/-- No key is there twice. -/
def DistinctKeys (entries : List (Datum × Datum)) : Prop :=
  entries.Pairwise fun entry other => ¬entry.1.sameKey other.1

/-- The only key that is the same as a name is the name. -/
theorem sameKey_ofName_iff (key : Datum) (name : Text) :
    key.sameKey (ofName name) ↔ key = ofName name := by
  cases key <;> simp [sameKey, ofName, asNumber?]

section Value

variable {entries others : List (Datum × Datum)} {name : Text} {value : Datum}

theorem value?_eq_map_find? (entries : List (Datum × Datum)) (name : Text) :
    value? entries name = (entries.find? (·.1.sameKey (ofName name))).map (·.2) := rfl

theorem value?_eq_none_iff :
    value? entries name = Option.none ↔ ∀ entry ∈ entries, entry.1 ≠ ofName name := by
  rw [value?_eq_map_find?, Option.map_eq_none_iff, List.find?_eq_none]
  exact forall₂_congr fun entry _ => not_congr (sameKey_ofName_iff entry.1 name)

theorem mem_of_value? (h : value? entries name = some value) : (ofName name, value) ∈ entries := by
  rw [value?_eq_map_find?] at h
  obtain ⟨⟨key, found⟩, hfind, rfl⟩ := Option.map_eq_some_iff.mp h
  have hkey := List.find?_some hfind
  obtain rfl := (sameKey_ofName_iff key name).mp hkey
  exact List.mem_of_find?_eq_some hfind

/-- The value of a name is that of its one entry. -/
theorem value?_of_mem (hdistinct : DistinctKeys entries) (h : (ofName name, value) ∈ entries) :
    value? entries name = some value := by
  have hself : (ofName name).sameKey (ofName name) := (sameKey_ofName_iff _ name).mpr rfl
  obtain ⟨front, back, rfl⟩ := List.append_of_mem h
  -- no entry of the name stands in front of this one
  have hfront : value? front name = Option.none := by
    refine value?_eq_none_iff.mpr fun entry hentry heq => ?_
    have hne := (List.pairwise_append.mp hdistinct).2.2 entry hentry _ List.mem_cons_self
    rw [heq] at hne
    exact hne hself
  rw [value?_eq_map_find?, Option.map_eq_none_iff] at hfront
  rw [value?_eq_map_find?, List.find?_append, hfront, Option.none_or, List.find?_cons, hself]
  rfl

/-- The value of a name does not depend on the order of entries. -/
theorem value?_of_perm (hdistinct : DistinctKeys entries) (h : others.Perm entries) :
    value? others name = value? entries name := by
  rcases hvalue : value? others name with _ | value
  · rw [value?_eq_none_iff] at hvalue
    exact (value?_eq_none_iff.mpr fun entry hentry => hvalue entry (h.mem_iff.mpr hentry)).symm
  · exact (value?_of_mem hdistinct (h.mem_iff.mp (mem_of_value? hvalue))).symm

end Value

end Datum

/-- What a user can choose. -/
inductive Setting where
  /-- From how many days on a file is stale. -/
  | staleDays
  /-- How many files must import a stale file. -/
  | staleImports
  /-- The bands of complexity. -/
  | bands
  /-- The marker words. -/
  | markerWords
  /-- Patterns of files that are left out. -/
  | excludes
  /-- How many files are looked at. -/
  | fileLimit
  /-- The command that audits dependencies. -/
  | auditCommand

namespace Setting

/-- All settings. -/
def all : List Setting :=
  [.staleDays, .staleImports, .bands, .markerWords, .excludes, .fileLimit, .auditCommand]

/-- The name of a setting. -/
def name : Setting → Text
  | .staleDays => "stale_days_threshold"
  | .staleImports => "stale_import_threshold"
  | .bands => Settings.bandsName
  | .markerWords => "todo_patterns"
  | .excludes => "exclude_globs"
  | .fileLimit => "max_files_to_scan"
  | .auditCommand => "audit_command"

/-- What is chosen for a setting. -/
def Value : Setting → Type
  | .staleDays | .staleImports | .fileLimit => Int
  | .bands => Code.Bands Int
  | .markerWords | .excludes | .auditCommand => List DocText

/-- What is preferred for one of the settings. -/
def get (p : Preferences) : (s : Setting) → s.Value
  | .staleDays => p.staleDays
  | .staleImports => p.staleImports
  | .bands => p.bands
  | .markerWords => p.markerWords
  | .excludes => p.excludes
  | .fileLimit => p.fileLimit
  | .auditCommand => p.auditCommand

/-- What entries choose for one of the settings. -/
def read (entries : List (Datum × Datum)) : (s : Setting) → Except Settings.Error s.Value
  | .staleDays => Settings.integerOr (Preferences.staleDays {}) entries (name .staleDays)
  | .staleImports => Settings.integerOr (Preferences.staleImports {}) entries (name .staleImports)
  | .bands => Settings.bandEntries entries >>= Settings.bandsOf
  | .markerWords => Settings.stringsOr (Preferences.markerWords {}) entries (name .markerWords)
  | .excludes => Settings.stringsOr (Preferences.excludes {}) entries (name .excludes)
  | .fileLimit => Settings.integerOr (Preferences.fileLimit {}) entries (name .fileLimit)
  | .auditCommand => Settings.stringsOr (Preferences.auditCommand {}) entries (name .auditCommand)

/-- The preferences for given values. -/
def preferences (value : (s : Setting) → s.Value) : Preferences where
  staleDays := value .staleDays
  staleImports := value .staleImports
  bands := value .bands
  markerWords := value .markerWords
  excludes := value .excludes
  fileLimit := value .fileLimit
  auditCommand := value .auditCommand

/-- Whether a key is the name of a setting. -/
def isName (key : Datum) : Bool := all.any fun s => key.sameKey (Datum.ofName s.name)

theorem mem_all (s : Setting) : s ∈ all := by cases s <;> simp [all]

theorem isName_iff (key : Datum) : isName key ↔ ∃ s : Setting, key = Datum.ofName s.name := by
  simp [isName, Datum.sameKey_ofName_iff, mem_all]

theorem get_preferences (value : (s : Setting) → s.Value) (s : Setting) :
    s.get (preferences value) = value s := by cases s <;> rfl

end Setting

namespace Settings

variable {entries others : List (Datum × Datum)} {settings : Preferences}

section Congr

variable {name : Text} (h : Datum.value? entries name = Datum.value? others name)

include h

theorem integerOr_congr (default : Int) :
    integerOr default entries name = integerOr default others name := by
  rw [integerOr, integerOr, h]

theorem stringsOr_congr (default : List DocText) :
    stringsOr default entries name = stringsOr default others name := by
  rw [stringsOr, stringsOr, h]

end Congr

theorem bandEntries_congr (h : Datum.value? entries bandsName = Datum.value? others bandsName) :
    bandEntries entries = bandEntries others := by
  rw [bandEntries, bandEntries, h]

/-- A setting is read from the value of its name and from nothing else. -/
theorem read_congr (s : Setting) (h : Datum.value? entries s.name = Datum.value? others s.name) :
    s.read entries = s.read others := by
  cases s with
  | staleDays | staleImports | fileLimit => exact integerOr_congr h _
  | bands => exact congrArg (· >>= bandsOf) (bandEntries_congr h)
  | markerWords | excludes | auditCommand => exact stringsOr_congr h _

/-- A setting whose name does not occur has its default. -/
theorem read_of_none (s : Setting) (h : Datum.value? entries s.name = none) :
    s.read entries = .ok (s.get {}) := by
  rw [read_congr s (h.trans (show none = Datum.value? [] s.name from rfl))]
  cases s <;> rfl

/-- Settings are put together from what is read for each. Of the bands it is read first whether they
are a map. -/
theorem ofEntries_eq (entries : List (Datum × Datum)) :
    ofEntries entries = (do
      let inner ← bandEntries entries
      let staleDays ← Setting.staleDays.read entries
      let staleImports ← Setting.staleImports.read entries
      let bands ← bandsOf inner
      let markerWords ← Setting.markerWords.read entries
      let excludes ← Setting.excludes.read entries
      let fileLimit ← Setting.fileLimit.read entries
      let auditCommand ← Setting.auditCommand.read entries
      return Preferences.mk staleDays staleImports bands markerWords excludes fileLimit
        auditCommand) :=
  rfl

/-- Settings are read one by one. -/
theorem ofEntries_eq_ok_iff :
    ofEntries entries = .ok settings ↔ ∀ s : Setting, s.read entries = .ok (s.get settings) := by
  simp only [ofEntries_eq, bind_eq_ok_iff]
  constructor
  · rintro ⟨inner, hinner, staleDays, hdays, staleImports, himports, bands, hbands, words, hwords,
      excludes, hexcludes, limit, hlimit, command, hcommand, heq⟩ s
    obtain rfl := Except.ok.inj heq
    cases s with
    | staleDays => exact hdays
    | staleImports => exact himports
    | bands => exact bind_eq_ok_iff.mpr ⟨inner, hinner, hbands⟩
    | markerWords => exact hwords
    | excludes => exact hexcludes
    | fileLimit => exact hlimit
    | auditCommand => exact hcommand
  · intro h
    obtain ⟨inner, hinner, hbands⟩ := bind_eq_ok_iff.mp (h .bands)
    exact ⟨inner, hinner, _, h .staleDays, _, h .staleImports, _, hbands, _, h .markerWords, _,
      h .excludes, _, h .fileLimit, _, h .auditCommand, rfl⟩

/-- Entries give settings if they give each of them. -/
theorem exists_ofEntries_iff :
    (∃ settings, ofEntries entries = .ok settings) ↔
      ∀ s : Setting, ∃ value, s.read entries = .ok value := by
  constructor
  · rintro ⟨settings, h⟩ s
    exact ⟨s.get settings, ofEntries_eq_ok_iff.mp h s⟩
  · intro h
    choose value hvalue using h
    refine ⟨Setting.preferences value, ofEntries_eq_ok_iff.mpr fun s => ?_⟩
    rw [Setting.get_preferences]
    exact hvalue s

/-- Entries that have the same value for the name of each setting come to the same. -/
theorem ofEntries_congr
    (h : ∀ s : Setting, Datum.value? entries s.name = Datum.value? others s.name) :
    ofEntries entries = ofEntries others := by
  have hband : bandEntries entries = bandEntries others := bandEntries_congr (h .bands)
  have hread (s : Setting) : s.read entries = s.read others := read_congr s (h s)
  simp only [ofEntries_eq, hband, hread]

/-- Names that are not known make no difference. -/
theorem ofEntries_filter_isName (entries : List (Datum × Datum)) :
    ofEntries (entries.filter fun entry => Setting.isName entry.1) = ofEntries entries := by
  refine ofEntries_congr fun s => ?_
  rw [Datum.value?_eq_map_find?, Datum.value?_eq_map_find?, List.find?_filter]
  congr 2
  funext entry
  -- the only key that is looked for is a name that is known
  by_cases hkey : entry.1.sameKey (Datum.ofName s.name)
  · have hname : Setting.isName entry.1 :=
      (Setting.isName_iff entry.1).mpr ⟨s, (Datum.sameKey_ofName_iff _ _).mp hkey⟩
    simp [hkey, hname]
  · simp [hkey]

/-! ### Entries alone -/

section Alone

variable (hdistinct : Datum.DistinctKeys entries)

include hdistinct

/-- A setting is read from its own entry as from all. -/
theorem read_singleton_of_mem (s : Setting) {value : Datum}
    (h : (Datum.ofName s.name, value) ∈ entries) :
    s.read [(Datum.ofName s.name, value)] = s.read entries := by
  refine read_congr s ?_
  rw [Datum.value?_of_mem hdistinct h]
  exact Datum.value?_of_mem (List.pairwise_singleton _ _) (List.mem_singleton_self _)

/-- Entries give settings just where each of them does alone. -/
theorem exists_ofEntries_iff_forall :
    (∃ settings, ofEntries entries = .ok settings) ↔
      ∀ entry ∈ entries, ∃ alone, ofEntries [entry] = .ok alone := by
  simp only [exists_ofEntries_iff]
  constructor
  -- alone an entry makes its own setting what it is among all, and the rest have their defaults
  · rintro h ⟨key, value⟩ hentry s
    by_cases hkey : key = Datum.ofName s.name
    · subst hkey
      rw [read_singleton_of_mem hdistinct s hentry]
      exact h s
    · refine ⟨_, read_of_none s (Datum.value?_eq_none_iff.mpr ?_)⟩
      simpa using hkey
  · intro h s
    rcases hvalue : Datum.value? entries s.name with _ | value
    · exact ⟨_, read_of_none s hvalue⟩
    · have hentry := Datum.mem_of_value? hvalue
      rw [← read_singleton_of_mem hdistinct s hentry]
      exact h _ hentry s

end Alone

/-! ### Bands -/

/-- One of the bands of complexity. -/
inductive Band where
  /-- From here on a function is reported. -/
  | low
  /-- From here on it is of medium severity. -/
  | medium
  /-- From here on it is of high severity. -/
  | high
  /-- From here on it is critical. -/
  | critical

/-- The name of a band. -/
def Band.name : Band → Text
  | .low => "low"
  | .medium => "medium"
  | .high => "high"
  | .critical => "critical"

/-- Where a band starts. -/
def Band.get (bands : Code.Bands Int) : Band → Int
  | .low => bands.low
  | .medium => bands.medium
  | .high => bands.high
  | .critical => bands.critical

/-- Each band is read from the value of its own name. -/
theorem integerOr_of_bandsOf {bands : Code.Bands Int} (h : bandsOf entries = .ok bands)
    (band : Band) :
    integerOr (band.get Code.Bands.standard) entries band.name = .ok (band.get bands) := by
  simp only [bandsOf, bind_eq_ok_iff] at h
  obtain ⟨low, hlow, medium, hmedium, high, hhigh, critical, hcritical, -, -, h⟩ := h
  split at h
  · obtain rfl := Except.ok.inj h
    cases band with
    | low => exact hlow
    | medium => exact hmedium
    | high => exact hhigh
    | critical => exact hcritical
  · cases h

/-! ### What entries come to -/

/-- Settings of which each is what its own entry makes it, or its default. -/
structure SetsEach (entries : List (Datum × Datum)) (settings : Preferences) : Prop where
  /-- A setting whose name occurs is what its entry alone makes it. -/
  own : ∀ (s : Setting) (value : Datum), (Datum.ofName s.name, value) ∈ entries →
    ∃ alone, ofEntries [(Datum.ofName s.name, value)] = .ok alone ∧ s.get settings = s.get alone
  /-- A setting whose name does not occur has its default. -/
  default : ∀ s : Setting, (∀ entry ∈ entries, entry.1 ≠ Datum.ofName s.name) →
    s.get settings = s.get {}
  /-- A band whose name occurs is the number of its entry. -/
  ownBand : ∀ inner, (Datum.ofName bandsName, .map inner) ∈ entries →
    ∀ (band : Band) (value : Datum), Datum.value? inner band.name = some value →
      integer value = .ok (band.get settings.bands)
  /-- A band whose name does not occur has its default. -/
  defaultBand : ∀ inner, (Datum.ofName bandsName, .map inner) ∈ entries →
    ∀ band : Band, (∀ entry ∈ inner, entry.1 ≠ Datum.ofName band.name) →
      band.get settings.bands = band.get Code.Bands.standard

theorem setsEach_of_ofEntries (hdistinct : Datum.DistinctKeys entries)
    (h : ofEntries entries = .ok settings) : SetsEach entries settings := by
  have hread := ofEntries_eq_ok_iff.mp h
  have hbands {inner : List (Datum × Datum)}
      (hinner : (Datum.ofName bandsName, .map inner) ∈ entries) (band : Band) :
      integerOr (band.get Code.Bands.standard) inner band.name = .ok (band.get settings.bands) := by
    obtain ⟨found, hfound, hbands⟩ := bind_eq_ok_iff.mp (hread .bands)
    rw [bandEntries, Datum.value?_of_mem hdistinct hinner] at hfound
    obtain rfl := Except.ok.inj hfound
    exact integerOr_of_bandsOf hbands band
  refine ⟨fun s value hentry => ?_, fun s hnone => ?_, fun inner hinner band value hvalue => ?_,
    fun inner hinner band hnone => ?_⟩
  · obtain ⟨alone, halone⟩ :=
      (exists_ofEntries_iff_forall hdistinct).mp ⟨settings, h⟩ _ hentry
    refine ⟨alone, halone, ?_⟩
    have hboth := (hread s).symm.trans
      ((read_singleton_of_mem hdistinct s hentry).symm.trans (ofEntries_eq_ok_iff.mp halone s))
    exact Except.ok.inj hboth
  · have hdefault := read_of_none s (Datum.value?_eq_none_iff.mpr hnone)
    exact Except.ok.inj ((hread s).symm.trans hdefault)
  · have hband := hbands hinner band
    rwa [integerOr, hvalue] at hband
  · have hband := hbands hinner band
    rw [integerOr, Datum.value?_eq_none_iff.mpr hnone] at hband
    exact (Except.ok.inj hband).symm

/-- Entries with different keys give settings just where each entry does alone, and each setting is
then what its own entry makes it, or its default, as is each band of complexity. Entries in another
order come to the same, and so do entries without the names that are not known. -/
theorem ofEntries_independent {entries : List (Datum × Datum)}
    (hdistinct : Datum.DistinctKeys entries) :
    ((∃ settings, ofEntries entries = .ok settings) ↔
      ∀ entry ∈ entries, ∃ alone, ofEntries [entry] = .ok alone) ∧
    (∀ settings, ofEntries entries = .ok settings → SetsEach entries settings) ∧
    (∀ others : List (Datum × Datum), others.Perm entries →
      ofEntries others = ofEntries entries) ∧
    ofEntries (entries.filter fun entry => Setting.isName entry.1) = ofEntries entries :=
  ⟨exists_ofEntries_iff_forall hdistinct, fun _ h => setsEach_of_ofEntries hdistinct h,
    fun _ h => ofEntries_congr fun _ => Datum.value?_of_perm hdistinct h,
    ofEntries_filter_isName entries⟩

/-- Entries of a name that is not known, of one band, and of a limit that is written out. -/
def fewEntries : List (Datum × Datum) :=
  [(.ofName "colour", .none),
    (.ofName bandsName, .map [(.ofName "critical", .number (.int 40))]),
    (.ofName "max_files_to_scan", .text (DocText.ofText "7"))]

/-- Of some entries one is passed over; the other two set one band and the limit, and they do so in
another order as well. -/
theorem ofEntries_independent_few :
    Datum.DistinctKeys fewEntries ∧
      ofEntries fewEntries = .ok { bands := ⟨5, 10, 15, 40⟩, fileLimit := 7 } ∧
      (∀ entry ∈ fewEntries, ∃ alone, ofEntries [entry] = .ok alone) ∧
      SetsEach fewEntries { bands := ⟨5, 10, 15, 40⟩, fileLimit := 7 } ∧
      ofEntries fewEntries.reverse = .ok { bands := ⟨5, 10, 15, 40⟩, fileLimit := 7 } := by
  have hdistinct : Datum.DistinctKeys fewEntries := by
    unfold Datum.DistinctKeys
    decide
  have hsettings : ofEntries fewEntries = .ok { bands := ⟨5, 10, 15, 40⟩, fileLimit := 7 } := rfl
  obtain ⟨halone, hsets, horder, -⟩ := ofEntries_independent hdistinct
  exact ⟨hdistinct, hsettings, halone.mp ⟨_, hsettings⟩, hsets _ hsettings,
    (horder _ (List.reverse_perm _)).trans hsettings⟩

end Settings

end DebtSurvey
