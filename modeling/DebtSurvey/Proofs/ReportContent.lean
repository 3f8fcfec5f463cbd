import DebtSurvey.Proofs.WrittenDocument
import DebtSurvey.Report.Document

/-!
# Reading a report back

Nothing that a report says is lost in its document. A field that is left out is told from one with
an empty text, a zero or a negative number, since these are written. So whoever reads the document
as JSON has the content of the report again, with all findings in order, and from it the debt map
that the report is about.

## Main definitions

* `Report.content?`: the content of a report that was read as JSON.
* `Report.Content.debtMap?`: the debt map that a report with some content is about.

## Main results

* `Report.item?_document`: a finding is read back, whatever it has and lacks.
* `Report.content?_document`: the content of a report is read back from its document.
* `Report.Content.isTree_document`: the document of a report is a tree that JSON readers read back.
* `Report.Content.debtMap?_ofDebtMap`: what a report says tells the debt map it is about.
* `Report.content?_parse?`: the content of a report is read back from its text.
* `Report.content?_parse?_ofFindings`: so is that of every report with computed statistics.
* `Report.content?_reader`: reports about debt maps are read back by all that read such trees back.
-/

namespace DebtSurvey

namespace Report

/-! ### Reading parts of a document -/

/-- The text of a string without surrogates. -/
def text? : Json → Option Text
  | .text t => t.toText?
  | _ => none

/-- The integer of a number. -/
def integer? : Json → Option Int
  | .number (.int n) => some n
  | _ => none

/-- The items of an array. -/
def list? {α : Type} (decode : Json → Option α) : Json → Option (List α)
  | .array items => items.mapM decode
  | _ => none

/-- The value of a field of an object. -/
def field? (name : Text) : Json → Option Json
  | .object fields => Json.field? fields (DocText.ofText name)
  | _ => none

/-- What a field says that is left out when it has no value. -/
def optional? {α : Type} (decode : Json → Option α) : Option Json → Option (Option α)
  | none => some none
  | some v => (decode v).map some

/-- Numbers by name. -/
def counts? : Json → Option (List (Text × Int))
  | .object fields => fields.mapM fun (name, v) => do return (← name.toText?, ← integer? v)
  | _ => none

/-- A finding of a report. -/
def item? (v : Json) : Option Item := do
  return {
    id := ← text? (← field? "id" v)
    kind := ← text? (← field? "kind" v)
    severity := ← text? (← field? "severity" v)
    file := ← text? (← field? "file" v)
    line := ← optional? integer? (field? "line" v)
    message := ← text? (← field? "message" v)
    author := ← optional? text? (field? "author" v)
    ageInDays := ← optional? integer? (field? "ageInDays" v)
    lastCommit := ← optional? text? (field? "lastCommit" v) }

/-- A hot file of a report. -/
def hotSpot? (v : Json) : Option HotSpot := do
  return {
    file := ← text? (← field? "file" v)
    score := ← integer? (← field? "score" v)
    importCount := ← integer? (← field? "importCount" v)
    items := ← list? item? (← field? "debtItems" v) }

/-- The statistics of a report. -/
def totals? (v : Json) : Option Totals := do
  return {
    total := ← integer? (← field? "totalDebt" v)
    byKind := ← counts? (← field? "byKind" v)
    bySeverity := ← counts? (← field? "bySeverity" v)
    hotSpots := ← list? hotSpot? (← field? "hotFiles" v) }

/-- The content of a report. -/
def content? (v : Json) : Option Content := do
  return {
    items := ← list? item? (← field? "items" v)
    scannedAt := ← integer? (← field? "scannedAt" v)
    commit := ← text? (← field? "commitSha" v)
    totals := ← totals? (← field? "stats" v) }

/-! ### From what a report says to a debt map -/

/-- The finding that is described. -/
def Item.finding? (i : Item) : Option Finding := do
  return {
    id := i.id
    kind := ← Kind.ofName? i.kind
    severity := ← Severity.ofName? i.severity
    file := i.file
    message := i.message
    line := i.line
    author := i.author
    ageInDays := i.ageInDays
    lastCommit := i.lastCommit }

/-- The hot file that is described. -/
def HotSpot.hotFile? (h : HotSpot) : Option HotFile := do
  return {
    file := h.file
    score := ← h.score.toNat?
    importCount := h.importCount
    findings := ← h.items.mapM Item.finding? }

/-- Numbers by what has a name. -/
def named? {α : Type} (ofName? : Text → Option α) (entries : List (Text × Int)) :
    Option (List (α × Nat)) :=
  entries.mapM fun (name, n) => do return (← ofName? name, ← n.toNat?)

/-- The statistics that are described. -/
def Totals.stats? (t : Totals) : Option Stats := do
  return {
    total := ← t.total.toNat?
    byKind := ← named? Kind.ofName? t.byKind
    bySeverity := ← named? Severity.ofName? t.bySeverity
    hotFiles := ← t.hotSpots.mapM HotSpot.hotFile? }

/-- The debt map that a report is about. -/
def Content.debtMap? (c : Content) : Option DebtMap := do
  return {
    findings := ← c.items.mapM Item.finding?
    scannedAt := c.scannedAt
    commit := c.commit
    stats := ← c.totals.stats? }

/-! ### Parts are read back -/

@[simp]
theorem text?_ofText (t : Text) : text? (Json.ofText t) = some t := DocText.toText?_ofText t

@[simp]
theorem integer?_ofInt (n : Int) : integer? (Json.ofInt n) = some n := rfl

theorem mapM_map_eq_some {α β : Type} {encode : α → β} {decode : β → Option α}
    (h : ∀ a, decode (encode a) = some a) (l : List α) : (l.map encode).mapM decode = some l := by
  induction l with
  | nil => rfl
  | cons a l ih => simp [h, ih]

theorem list?_array {α : Type} {encode : α → Json} {decode : Json → Option α}
    (h : ∀ a, decode (encode a) = some a) (l : List α) :
    list? decode (.array (l.map encode)) = some l := mapM_map_eq_some h l

theorem optional?_map {α : Type} {encode : α → Json} {decode : Json → Option α}
    (h : ∀ a, decode (encode a) = some a) (value : Option α) :
    optional? decode (value.map encode) = some value := by
  cases value with
  | none => rfl
  | some a => simp [optional?, h]

@[simp]
theorem counts?_counts (entries : List (Text × Int)) : counts? (counts entries) = some entries := by
  rw [counts, fields, List.map_map]
  exact mapM_map_eq_some (fun _ => by simp) entries

theorem lookup_cons (name key : Text) (v : Json) (entries : List (Text × Json)) :
    ((key, v) :: entries).lookup name = if name = key then some v else entries.lookup name := by
  by_cases h : name = key <;> simp [List.lookup_cons, h, beq_eq_false_iff_ne.mpr]

/-- A field of an object is the first of its name. -/
theorem field?_fields (name : Text) (entries : List (Text × Json)) :
    field? name (fields entries) = entries.lookup name := by
  induction entries with
  | nil => rfl
  | cons entry entries ih =>
    obtain ⟨key, v⟩ := entry
    by_cases h : name = key
    · simp [field?, fields, Json.field?, h]
    · -- other texts are other names in the document, so the search goes on
      have hother : DocText.ofText key ≠ DocText.ofText name :=
        fun hname => h (DocText.ofText_injective hname).symm
      rw [lookup_cons, if_neg h, ← ih]
      simp [field?, fields, Json.field?, hother]

theorem lookup_required (name key : Text) (v : Json) :
    (required key v).lookup name = if name = key then some v else none := lookup_cons name key v []

theorem lookup_optional {α : Type} (name key : Text) (encode : α → Json) (value : Option α) :
    (optional key encode value).lookup name = if name = key then value.map encode else none := by
  cases value with
  | none => simp [optional]
  | some a => exact lookup_required name key (encode a)

/-- A finding is read back, whatever it has and lacks. -/
theorem item?_document (i : Item) : item? i.document = some i := by
  -- a name is looked up in all pieces, of which only its own may have it
  simp +decide [item?, Item.document, field?_fields, List.lookup_append, lookup_required,
    lookup_optional, optional?_map text?_ofText, optional?_map integer?_ofInt]

theorem hotSpot?_document (h : HotSpot) : hotSpot? h.document = some h := by
  simp +decide [hotSpot?, HotSpot.document, field?_fields, lookup_cons,
    list?_array item?_document]

theorem totals?_document (t : Totals) : totals? t.document = some t := by
  simp +decide [totals?, Totals.document, field?_fields, lookup_cons,
    list?_array hotSpot?_document]

/-- The content of a report is read back from its document. -/
theorem content?_document (c : Content) : content? c.document = some c := by
  simp +decide [content?, Content.document, field?_fields, lookup_cons,
    list?_array item?_document, totals?_document]

/-! ### Documents of reports are trees -/

/-- The integers of a finding. -/
def Item.integers (i : Item) : List Int := i.line.toList ++ i.ageInDays.toList

/-- The integers of a hot file. -/
def HotSpot.integers (h : HotSpot) : List Int :=
  h.score :: h.importCount :: h.items.flatMap Item.integers

/-- The integers of statistics. -/
def Totals.integers (t : Totals) : List Int :=
  t.total :: (t.byKind ++ t.bySeverity).map (·.2) ++ t.hotSpots.flatMap HotSpot.integers

/-- All integers of a report. -/
def Content.integers (c : Content) : List Int :=
  c.scannedAt :: c.items.flatMap Item.integers ++ c.totals.integers

/-- Statistics with one number for a name. -/
structure Totals.HasDistinctNames (t : Totals) : Prop where
  kinds : (t.byKind.map (·.1)).Nodup
  severities : (t.bySeverity.map (·.1)).Nodup

section Tree

variable {IsAllowed : Int → Prop}

/-- Fields of an object that have at most one name, and trees as values. -/
structure IsPiece (IsAllowed : Int → Prop) (name : Text) (piece : List (Text × Json)) : Prop where
  names : (piece.map (·.1)).Sublist [name]
  trees : ∀ entry ∈ piece, entry.2.IsTree IsAllowed

theorem isPiece_required (name : Text) {v : Json} (h : v.IsTree IsAllowed) :
    IsPiece IsAllowed name (required name v) :=
  ⟨List.Sublist.refl _, List.forall_mem_singleton.mpr h⟩

theorem isPiece_optional {α : Type} (name : Text) {encode : α → Json} {value : Option α}
    (h : ∀ a ∈ value, (encode a).IsTree IsAllowed) :
    IsPiece IsAllowed name (optional name encode value) := by
  cases value with
  | none => exact ⟨List.nil_sublist _, List.forall_mem_nil _⟩
  | some a => exact isPiece_required name (h a rfl)

/-- Pieces for different names are the fields of a tree. -/
theorem isTree_of_pieces (names : List Text) {pieces : List (List (Text × Json))}
    (h : List.Forall₂ (IsPiece IsAllowed) names pieces) (hnames : names.Nodup) :
    (fields pieces.flatten).IsTree IsAllowed := by
  have hall : (pieces.flatten.map (·.1)).Sublist names ∧
      ∀ entry ∈ pieces.flatten, entry.2.IsTree IsAllowed := by
    clear hnames
    induction h with
    | nil => exact ⟨List.Sublist.refl _, List.forall_mem_nil _⟩
    | cons hpiece _ ih =>
      rw [List.flatten_cons, List.map_append]
      exact ⟨hpiece.names.append ih.1, List.forall_mem_append.mpr ⟨hpiece.trees, ih.2⟩⟩
  exact .object (hnames.sublist hall.1) hall.2

theorem Item.isTree_document (i : Item) (h : ∀ n ∈ i.integers, IsAllowed n) :
    i.document.IsTree IsAllowed := by
  obtain ⟨hline, hage⟩ := List.forall_mem_append.mp h
  -- optional fields may be missing, but no name stands twice
  refine isTree_of_pieces ["id", "kind", "severity", "file", "line", "message", "author",
    "ageInDays", "lastCommit"] ?_ (by decide)
  exact
    .cons (isPiece_required _ (.text i.id)) <|
    .cons (isPiece_required _ (.text i.kind)) <|
    .cons (isPiece_required _ (.text i.severity)) <|
    .cons (isPiece_required _ (.text i.file)) <|
    .cons (isPiece_optional _ fun n hn => .integer (hline n (Option.mem_toList.mpr hn))) <|
    .cons (isPiece_required _ (.text i.message)) <|
    .cons (isPiece_optional _ fun t _ => .text t) <|
    .cons (isPiece_optional _ fun n hn => .integer (hage n (Option.mem_toList.mpr hn))) <|
    .cons (isPiece_optional _ fun t _ => .text t) .nil

theorem HotSpot.isTree_document (s : HotSpot) (h : ∀ n ∈ s.integers, IsAllowed n) :
    s.document.IsTree IsAllowed := by
  rw [HotSpot.integers, List.forall_mem_cons, List.forall_mem_cons] at h
  obtain ⟨hscore, hcount, hitems⟩ := h
  have hnames : (["file", "score", "importCount", "debtItems"] : List Text).Nodup := by decide
  refine .object hnames ?_
  simp only [List.forall_mem_cons]
  refine ⟨.text s.file, .integer hscore, .integer hcount, .array (List.forall_mem_map.mpr ?_),
    List.forall_mem_nil _⟩
  exact fun i hi => i.isTree_document fun n hn => hitems n (List.mem_flatMap.mpr ⟨i, hi, hn⟩)

theorem isTree_counts {entries : List (Text × Int)} (hnames : (entries.map (·.1)).Nodup)
    (h : ∀ entry ∈ entries, IsAllowed entry.2) : (counts entries).IsTree IsAllowed := by
  refine .object ?_ (List.forall_mem_map.mpr fun entry hentry => .integer (h entry hentry))
  rwa [List.map_map]

theorem Totals.isTree_document {t : Totals} (hnames : t.HasDistinctNames)
    (h : ∀ n ∈ t.integers, IsAllowed n) : t.document.IsTree IsAllowed := by
  rw [Totals.integers, List.cons_append, List.forall_mem_cons, List.forall_mem_append,
    List.forall_mem_map, List.forall_mem_append] at h
  obtain ⟨htotal, ⟨hkinds, hseverities⟩, hspots⟩ := h
  have hkeys : (["totalDebt", "byKind", "bySeverity", "hotFiles"] : List Text).Nodup := by decide
  refine .object hkeys ?_
  simp only [List.forall_mem_cons]
  refine ⟨.integer htotal, isTree_counts hnames.kinds hkinds,
    isTree_counts hnames.severities hseverities, .array (List.forall_mem_map.mpr ?_),
    List.forall_mem_nil _⟩
  exact fun s hs => s.isTree_document fun n hn => hspots n (List.mem_flatMap.mpr ⟨s, hs, hn⟩)

/-- The document of a report is a tree. -/
theorem Content.isTree_document {c : Content} (hnames : c.totals.HasDistinctNames)
    (h : ∀ n ∈ c.integers, IsAllowed n) : c.document.IsTree IsAllowed := by
  rw [Content.integers, List.cons_append, List.forall_mem_cons, List.forall_mem_append] at h
  obtain ⟨htime, hitems, htotals⟩ := h
  have hkeys : (["items", "scannedAt", "commitSha", "stats"] : List Text).Nodup := by decide
  refine .object hkeys ?_
  simp only [List.forall_mem_cons]
  refine ⟨.array (List.forall_mem_map.mpr ?_), .integer htime, .text c.commit,
    Totals.isTree_document hnames htotals, List.forall_mem_nil _⟩
  exact fun i hi => i.isTree_document fun n hn => hitems n (List.mem_flatMap.mpr ⟨i, hi, hn⟩)

end Tree

/-! ### What reports tell -/

theorem Item.finding?_ofFinding (f : Finding) : (Item.ofFinding f).finding? = some f := by
  simp [Item.finding?, Item.ofFinding, Kind.ofName?_name, Severity.ofName?_name]

@[simp]
theorem toNat?_natCast (n : Nat) : (n : Int).toNat? = some n := Int.mem_toNat?.mpr rfl

theorem HotSpot.hotFile?_ofHotFile (h : HotFile) : (HotSpot.ofHotFile h).hotFile? = some h := by
  simp [HotSpot.hotFile?, HotSpot.ofHotFile, mapM_map_eq_some Item.finding?_ofFinding]

theorem named?_map {α : Type} {name : α → Text} {ofName? : Text → Option α}
    (h : ∀ a, ofName? (name a) = some a) (entries : List (α × Nat)) :
    named? ofName? (entries.map fun (a, n) => (name a, (n : Int))) = some entries :=
  mapM_map_eq_some (fun _ => by simp [h]) entries

theorem Totals.stats?_ofStats (s : Stats) : (Totals.ofStats s).stats? = some s := by
  simp [Totals.stats?, Totals.ofStats, named?_map Kind.ofName?_name,
    named?_map Severity.ofName?_name, mapM_map_eq_some HotSpot.hotFile?_ofHotFile]

/-- What a report says tells the debt map it is about. -/
theorem Content.debtMap?_ofDebtMap (m : DebtMap) : (Content.ofDebtMap m).debtMap? = some m := by
  simp [Content.debtMap?, Content.ofDebtMap, Totals.stats?_ofStats,
    mapM_map_eq_some Item.finding?_ofFinding]

/-! ### Reports are read back -/

/-- Computed statistics have one number for a name. -/
theorem Totals.hasDistinctNames_ofFindings (findings : List Finding) (fanIn : FanIn) :
    (Totals.ofStats (Stats.ofFindings findings fanIn)).HasDistinctNames := by
  constructor
  · have hnames : (Kind.all.map Kind.name).Nodup := by decide
    simpa [Totals.ofStats, Stats.ofFindings, Function.comp_def] using hnames
  · have hnames : (Severity.all.map Severity.name).Nodup := by decide
    simpa [Totals.ofStats, Stats.ofFindings, Function.comp_def] using hnames

section Reader

variable {reader : Text → Option Json} {IsRead : Int → Prop}

/-- The content of a report is read back from its text by whatever reads written trees back. -/
theorem content?_of_reader
    (hreader : ∀ v : Json, v.IsTree IsRead → reader (v.render .indented) = some v) {c : Content}
    (hnames : c.totals.HasDistinctNames) (hintegers : ∀ n ∈ c.integers, IsRead n) :
    (reader c.text).bind content? = some c := by
  rw [Content.text, hreader _ (Content.isTree_document hnames hintegers), Option.bind_some,
    content?_document]

/-- The content of a report is read back from its text. -/
theorem content?_parse? {c : Content} (hnames : c.totals.HasDistinctNames)
    (hfits : ∀ n ∈ c.integers, Json.Fits n) : (Json.parse? c.text).bind content? = some c :=
  content?_of_reader (fun _ => Json.parse?_render) hnames hfits

/-- The report about some findings with their statistics is read back. -/
theorem content?_parse?_ofFindings (findings : List Finding) (fanIn : FanIn) (scannedAt : Int)
    (commit : Text) :
    let m : DebtMap := ⟨findings, scannedAt, commit, Stats.ofFindings findings fanIn⟩
    (∀ n ∈ (Content.ofDebtMap m).integers, Json.Fits n) →
      (Json.parse? (documentText m)).bind content? = some (Content.ofDebtMap m) :=
  fun hfits => content?_parse? (Totals.hasDistinctNames_ofFindings findings fanIn) hfits

/-- A reader that gives written trees back, be it only those with integers of some kind, gives the
content of the report about every debt map with such integers back, and that content tells the debt
map. Kinds and severities may even be any texts, and counts any such integers. -/
theorem content?_reader
    (hreader : ∀ v : Json, v.IsTree IsRead → reader (v.render .indented) = some v) :
    (∀ m : DebtMap, (Totals.ofStats m.stats).HasDistinctNames →
      (∀ n ∈ (Content.ofDebtMap m).integers, IsRead n) →
        (reader (documentText m)).bind content? = some (Content.ofDebtMap m) ∧
          (Content.ofDebtMap m).debtMap? = some m) ∧
      ∀ c : Content, c.totals.HasDistinctNames → (∀ n ∈ c.integers, IsRead n) →
        (reader c.text).bind content? = some c := by
  refine ⟨fun m hnames hintegers => ?_, fun c => content?_of_reader hreader⟩
  exact ⟨content?_of_reader hreader hnames hintegers, Content.debtMap?_ofDebtMap m⟩

end Reader

/-- Findings that lack what others have as an empty text, a zero or a negative number. -/
def sample : DebtMap where
  findings := [⟨"", .todo, .low, "a:\n\x00\"\\ü😀", "", some 0, some "", some (-1), some ""⟩,
    { id := "x", kind := .dep, severity := .high, file := "b", message := "m" }]
  scannedAt := -1700000000000
  commit := ""
  stats := ⟨2, [(.todo, 1), (.dep, 0)], [(.low, 7)],
    [⟨"b", 5, -1, [⟨"x", .dep, .high, "b", "m", none, none, some 0, none⟩]⟩]⟩

/-- A finding of no known kind, and negative numbers of findings. -/
def oddSample : Content where
  items := [⟨"x", "any", "", "b", none, "m", none, none, none⟩]
  scannedAt := 0
  commit := "c"
  totals := ⟨-1, [("todo", 1), ("any", -1)], [("", 0)], [⟨"b", -5, 0, []⟩]⟩

/-- Both samples are read back by the reader of settings and answers. -/
theorem content?_reader_sample :
    (∀ v : Json, v.IsTree Json.Fits → Json.parse? (v.render .indented) = some v) ∧
      (Totals.ofStats sample.stats).HasDistinctNames ∧
      (∀ n ∈ (Content.ofDebtMap sample).integers, Json.Fits n) ∧
      (Json.parse? (documentText sample)).bind content? = some (Content.ofDebtMap sample) ∧
      (Content.ofDebtMap sample).debtMap? = some sample ∧
      oddSample.totals.HasDistinctNames ∧ (∀ n ∈ oddSample.integers, Json.Fits n) ∧
      (Json.parse? oddSample.text).bind content? = some oddSample := by
  have hnames : (Totals.ofStats sample.stats).HasDistinctNames := ⟨by decide, by decide⟩
  have hfits : ∀ n ∈ (Content.ofDebtMap sample).integers, Json.Fits n := by decide +kernel
  have hoddNames : oddSample.totals.HasDistinctNames := ⟨by decide, by decide⟩
  have hoddFits : ∀ n ∈ oddSample.integers, Json.Fits n := by decide +kernel
  have hreader (v : Json) (h : v.IsTree Json.Fits) : Json.parse? (v.render .indented) = some v :=
    Json.parse?_render h
  obtain ⟨hmaps, hcontents⟩ := content?_reader hreader
  obtain ⟨hread, htells⟩ := hmaps sample hnames hfits
  exact ⟨hreader, hnames, hfits, hread, htells, hoddNames, hoddFits,
    hcontents oddSample hoddNames hoddFits⟩

end Report

end DebtSurvey
