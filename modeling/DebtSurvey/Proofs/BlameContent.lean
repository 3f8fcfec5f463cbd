import DebtSurvey.Proofs.BlameOutput
import Mathlib.Data.List.Forall2

/-!
# Content in blame output

The content of the lines of a file stands in blame output behind tabs, and is passed over. A newline
ends it, but so does every other line break that it may hold, and what follows such a break is read
as a line of the output. As long as that says nothing about rows, the content does not matter; but
it may be a header, and then the file has a say in its own blame.

## Main results

* `Porcelain.effect_append_newline`: what blame output says can be taken line by line.
* `Porcelain.parse_congr_content`: streams that differ in their content are read alike, when what
  follows the line breaks in it is silent.
* `Porcelain.parse_forged_header`: a header in the content of a line makes a row.
-/

namespace DebtSurvey.Porcelain

/-- A line of blame output that holds content of the file. -/
def IsContent (t : Text) : Prop := t.head? = some '\t'

/-- Lines of blame output that differ in what follows the tab of content, if at all. -/
def SameButContent (s t : Text) : Prop := s = t ∨ IsContent s ∧ IsContent t

/-- A line in which nothing behind a line break says anything about rows. -/
def IsHarmless (t : Text) : Prop := ∀ piece ∈ (Text.breakLines t).tail, IsSilent piece

/-- Whether a line of blame output has no part in any row. -/
def Line.isIdle : Line → Bool
  | .content | .other | .time none => true
  | .header .. | .author _ | .time (some _) => false

/-- What lines of blame output have to say: all but the idle ones. -/
def effect (texts : List Text) : Except Error (List Line) :=
  (texts.mapM Line.parse).map (·.filter (!·.isIdle))

/-- Idle lines give no rows and change nothing. -/
theorem Reading.rows_filter (r : Reading) (lines : List Line) :
    r.rows (lines.filter (!·.isIdle)) = r.rows lines := by
  induction lines generalizing r with
  | nil => rfl
  | cons line rest ih =>
    by_cases hidle : line.isIdle
    · have hstep : r.step line = (r, none) := by
        cases line with
        | content | other => rfl
        | time seconds =>
          cases seconds with
          | none => rfl
          | some seconds => cases hidle
        | header | author => cases hidle
      rw [List.filter_cons_of_neg (by simp [hidle]), ih, rows_cons, hstep]
      rfl
    · rw [List.filter_cons_of_pos (by simp [hidle]), rows_cons, rows_cons, ih]

/-- The rows of blame output come of what it has to say. -/
theorem parse_eq_effect (output : Text) :
    parse output = (effect (Text.breakLines output)).map (Reading.rows {}) := by
  rw [parse, effect]
  cases (Text.breakLines output).mapM Line.parse with
  | error e => rfl
  | ok lines =>
    show Except.ok (Reading.rows {} lines) = Except.ok (Reading.rows {} (lines.filter _))
    rw [Reading.rows_filter]

/-- What lines have to say is said one after the other. -/
theorem effect_append (texts texts' : List Text) :
    effect (texts ++ texts') = (do return (← effect texts) ++ (← effect texts')) := by
  rw [effect, effect, effect, List.mapM_append]
  cases texts.mapM Line.parse with
  | error e => rfl
  | ok lines =>
    cases texts'.mapM Line.parse with
    | error e => rfl
    | ok lines' =>
      show Except.ok ((lines ++ lines').filter _) = Except.ok (lines.filter _ ++ lines'.filter _)
      rw [List.filter_append]

/-- What blame output has to say can be taken line by line. -/
theorem effect_append_newline (t rest : Text) :
    effect (Text.breakLines (t ++ '\n' :: rest)) = (do
      return (← effect (Text.breakLines (t ++ ['\n']))) ++ (← effect (Text.breakLines rest))) := by
  rw [Text.breakLines_append_newline, effect_append]

/-- A header starts with a digit of a hash. -/
theorem IsHeader.exists_digit {t : Text} (h : IsHeader t) :
    ∃ c rest, t = c :: rest ∧ isHashDigit c := by
  obtain ⟨commit, first, second, rest, ⟨hlength, hdigits⟩, -, -, rfl⟩ := h
  obtain ⟨c, tail, rfl⟩ : ∃ c tail, commit = c :: tail :=
    List.exists_cons_of_length_pos (by rw [hlength]; decide)
  exact ⟨c, _, rfl, List.all_eq_true.mp hdigits c List.mem_cons_self⟩

/-- The empty line is silent. -/
theorem isSilent_nil : IsSilent [] where
  no_header h := by
    obtain ⟨c, rest, hnil, -⟩ := h.exists_digit
    cases hnil
  no_author h := by simp [Text.ofString] at h
  no_time h := by simp [Text.ofString] at h

/-- A line of content is silent. -/
theorem IsContent.isSilent {t : Text} (h : IsContent t) : IsSilent t := by
  obtain ⟨rest, rfl⟩ : ∃ rest, t = '\t' :: rest := by
    cases t with
    | nil => cases h
    | cons c rest => exact ⟨rest, by rw [Option.some.inj h]⟩
  -- a tab is neither a digit of a hash nor the first letter of a label
  refine ⟨fun hheader => ?_, fun hauthor => ?_, fun htime => ?_⟩
  · obtain ⟨c, tail, hcons, hdigit⟩ := hheader.exists_digit
    obtain ⟨rfl, -⟩ := List.cons.inj hcons
    exact absurd hdigit (by decide)
  · exact absurd (List.cons_prefix_cons.mp hauthor).1 (by decide)
  · exact absurd (List.cons_prefix_cons.mp htime).1 (by decide)

/-- Silent lines are of no effect. -/
theorem effect_silent {texts : List Text} (h : ∀ t ∈ texts, IsSilent t) :
    effect texts = .ok [] := by
  induction texts with
  | nil => rfl
  | cons t texts ih =>
    rw [List.forall_mem_cons] at h
    have hfirst : effect [t] = .ok [] := by
      have hread : [t].mapM Line.parse = .ok [_] := mapM_parse_cons (parse_silent h.1) rfl
      rw [effect, hread]
      split <;> rfl
    rw [← List.singleton_append, effect_append, hfirst, ih h.2]
    rfl

/-! ### Content -/

/-- The line that is being read begins with what was read of it, once there is any. -/
theorem breakLinesFrom_head {current : Text} (hne : current ≠ []) (t : Text) :
    ∃ first rest, Text.breakLinesFrom current t = (current.reverse ++ first) :: rest := by
  fun_induction Text.breakLinesFrom current t with
  | case1 current hempty => exact absurd (List.isEmpty_iff.mp hempty) hne
  | case2 current => exact ⟨[], [], by rw [List.append_nil]⟩
  | case3 current rest => exact ⟨[], _, by rw [List.append_nil]⟩
  | case4 current => exact ⟨[], _, by rw [List.append_nil]⟩
  | case5 current c rest hpair hbreak ih =>
    obtain ⟨first, tail, hrest⟩ := ih (List.cons_ne_nil c current)
    refine ⟨c :: first, tail, ?_⟩
    rw [hrest, List.reverse_cons, List.append_assoc, List.singleton_append]

/-- The lines in harmless content are silent, whether a newline follows it or not. -/
theorem effect_content {t : Text} (htab : IsContent t) (h : IsHarmless t) :
    effect (Text.breakLines t) = .ok [] ∧ effect (Text.breakLines (t ++ ['\n'])) = .ok [] := by
  have hsilent : ∀ piece ∈ Text.breakLines t, IsSilent piece := by
    obtain ⟨text, rfl⟩ : ∃ text, t = '\t' :: text := by
      cases t with
      | nil => cases htab
      | cons c rest => exact ⟨rest, by rw [Option.some.inj htab]⟩
    obtain ⟨first, rest, hlines⟩ := breakLinesFrom_head (List.cons_ne_nil '\t' []) text
    have hcut : Text.breakLines ('\t' :: text) = ('\t' :: first) :: rest := by
      rw [Text.breakLines, Text.breakLinesFrom_cons_of_unbroken (by decide), hlines]
      rfl
    rw [IsHarmless, hcut] at h
    rw [hcut]
    -- the first line has the tab in front, and the others follow line breaks
    exact List.forall_mem_cons.mpr ⟨IsContent.isSilent rfl, h⟩
  refine ⟨effect_silent hsilent, ?_⟩
  rcases Text.breakLinesFrom_concat_newline [] t with hsame | hempty
  · rw [Text.breakLines, hsame]
    exact effect_silent hsilent
  · have hnil : effect [[]] = .ok [] := effect_silent (by simpa using isSilent_nil)
    rw [Text.breakLines, hempty, effect_append, hnil]
    show (do return (← effect (Text.breakLines t)) ++ (← Except.ok [])) = _
    rw [effect_silent hsilent]
    rfl

/-- Lines that differ in harmless content have the same to say. -/
theorem effect_congr {s t : Text} (h : SameButContent s t) (hs : IsContent s → IsHarmless s)
    (ht : IsContent t → IsHarmless t) :
    effect (Text.breakLines s) = effect (Text.breakLines t) ∧
      effect (Text.breakLines (s ++ ['\n'])) = effect (Text.breakLines (t ++ ['\n'])) := by
  rcases h with rfl | ⟨hscontent, htcontent⟩
  · exact ⟨rfl, rfl⟩
  · obtain ⟨hsplain, hsended⟩ := effect_content hscontent (hs hscontent)
    obtain ⟨htplain, htended⟩ := effect_content htcontent (ht htcontent)
    exact ⟨hsplain.trans htplain.symm, hsended.trans htended.symm⟩

/-- Streams whose lines differ in harmless content have the same to say. -/
theorem effect_join_congr {ss ts : List Text} (h : List.Forall₂ SameButContent ss ts)
    (hs : ∀ line ∈ ss, IsContent line → IsHarmless line)
    (ht : ∀ line ∈ ts, IsContent line → IsHarmless line) :
    effect (Text.breakLines (Text.join ['\n'] ss)) =
      effect (Text.breakLines (Text.join ['\n'] ts)) := by
  induction h with
  | nil => rfl
  | @cons s t ss ts hfirst hrest ih =>
    rw [List.forall_mem_cons] at hs ht
    have hline := effect_congr hfirst hs.1 ht.1
    cases hrest with
    | nil => exact hline.1
    | cons hnext hrest =>
      -- a newline follows the first lines, and the others go on alike
      have hothers := ih hs.2 ht.2
      rw [Text.join, Text.join, List.append_assoc, List.append_assoc, List.singleton_append,
        List.singleton_append, effect_append_newline s, hline.2, hothers, ← effect_append_newline t]

/-- A line without line breaks is harmless. -/
theorem isHarmless_of_unbroken {t : Text} (h : Text.Unbroken t) : IsHarmless t := by
  have hcut : ∀ current t, Text.Unbroken t → (Text.breakLinesFrom current t).tail = [] := by
    intro current t ht
    induction t generalizing current with
    | nil => cases current <;> rfl
    | cons c t ih =>
      obtain ⟨hc, ht⟩ := Text.unbroken_cons.mp ht
      rw [Text.breakLinesFrom_cons_of_unbroken hc, ih _ ht]
  intro piece hpiece
  rw [Text.breakLines, hcut [] t h] at hpiece
  exact absurd hpiece List.not_mem_nil

/-- What follows the tab in the content lines of blame output does not matter to its rows, as long
as nothing behind a line break in it says anything about rows. Content that holds no line break at
all is always harmless. -/
theorem parse_congr_content {s t : Text}
    (h : List.Forall₂ SameButContent (Text.lines s) (Text.lines t))
    (hs : ∀ line ∈ Text.lines s, IsContent line → IsHarmless line)
    (ht : ∀ line ∈ Text.lines t, IsContent line → IsHarmless line) : parse s = parse t := by
  have heffect := effect_join_congr h hs ht
  rw [Text.join_lines, Text.join_lines] at heffect
  rw [parse_eq_effect, parse_eq_effect, heffect]

/-- Blame output for a line with some content. -/
def oneLine (content : Text) : Text :=
  Text.join ['\n']
    [List.replicate 40 'a' ++ " 1 1 1", "author Ann", "author-time 5", '\t' :: content, []]

/-- Content that names an author is harmless, and so is content with an unlabelled text behind a
form feed. -/
theorem parse_congr_content_form_feed :
    List.Forall₂ SameButContent (Text.lines (oneLine "author Eve"))
      (Text.lines (oneLine "x\x0cy")) ∧
    (∀ line ∈ Text.lines (oneLine "author Eve"), IsContent line → IsHarmless line) ∧
    (∀ line ∈ Text.lines (oneLine "x\x0cy"), IsContent line → IsHarmless line) ∧
    parse (oneLine "author Eve") = parse (oneLine "x\x0cy") := by
  have hsame : List.Forall₂ SameButContent (Text.lines (oneLine "author Eve"))
      (Text.lines (oneLine "x\x0cy")) := by
    have hs : Text.lines (oneLine "author Eve") =
        [List.replicate 40 'a' ++ " 1 1 1", "author Ann", "author-time 5", '\t' :: "author Eve",
          []] := by
      decide
    have ht : Text.lines (oneLine "x\x0cy") =
        [List.replicate 40 'a' ++ " 1 1 1", "author Ann", "author-time 5", '\t' :: "x\x0cy",
          []] := by
      decide
    rw [hs, ht]
    exact .cons (.inl rfl) (.cons (.inl rfl) (.cons (.inl rfl)
      (.cons (.inr ⟨rfl, rfl⟩) (.cons (.inl rfl) .nil))))
  have hplain : ∀ line ∈ Text.lines (oneLine "author Eve"), IsContent line → IsHarmless line := by
    have hunbroken : ∀ line ∈ Text.lines (oneLine "author Eve"), Text.Unbroken line := by decide
    exact fun line hline _ => isHarmless_of_unbroken (hunbroken line hline)
  have hbroken : ∀ line ∈ Text.lines (oneLine "x\x0cy"), IsContent line → IsHarmless line := by
    intro line hline hcontent piece hpiece
    have hpieces : ∀ line ∈ Text.lines (oneLine "x\x0cy"),
        ∀ piece ∈ (Text.breakLines line).tail, piece = "y" := by decide
    obtain rfl := hpieces line hline piece hpiece
    refine ⟨fun hheader => ?_, by decide, by decide⟩
    obtain ⟨c, rest, hcons, hdigit⟩ := hheader.exists_digit
    obtain ⟨rfl, -⟩ := List.cons.inj hcons
    exact absurd hdigit (by decide)
  exact ⟨hsame, hplain, hbroken, parse_congr_content hsame hplain hbroken⟩

/-- A header in the content of a line makes a row: the file has a say in its own blame. -/
theorem parse_forged_header :
    parse (oneLine "x") = .ok [⟨1, "Ann", 5000, List.replicate 40 'a'⟩] ∧
    parse (oneLine ("x\x0c" ++ List.replicate 40 'a' ++ " 9 9")) =
      .ok [⟨1, "Ann", 5000, List.replicate 40 'a'⟩, ⟨9, "Ann", 5000, List.replicate 40 'a'⟩] := by
  decide +kernel

end DebtSurvey.Porcelain
