import DebtSurvey.Proofs.FileOutcome
import DebtSurvey.Proofs.Occurrence

/-!
# Bodies of functions

A body is decided by the brace that it starts with: from there it runs on until the braces are even,
or to the end of the text, and they are not even any sooner (`Code.count_closeBody`,
`Code.count_lt_of_prefix_closeBody`). Every head looks for its body on its own, and yet bodies never
overlap in part. A body that starts within another one starts at a depth of at least one, so it is
closed no later (`Code.closeBody_prefix_of_le`).

A brace is a separator, so the decision points of an inner body are decision points of the outer one
as well. Hence the outer function is at least as complex, whatever the bands are that complexity is
measured by, and it is reported where the inner one is.

## Main results

* `Code.body_of_mem`: what the body of a function is.
* `Code.body_split`: a body that starts within another is a piece of it.
* `Code.Bands.severity_mono`: more decision points are at least as severe.
* `Code.bodies_nested`: bodies nest, and outer functions are at least as complex as inner ones.
-/

namespace DebtSurvey.Code

open Scan (functionWork sourceOf? functionsOf)

/-! ### Bodies as pieces of a text -/

/-- A body is a piece of the text that it is taken from. -/
theorem closeBody_prefix_text (depth : Nat) (t : Text) : closeBody depth t <+: t := by
  induction t generalizing depth with
  | nil => cases depth <;> simp [closeBody]
  | cons c rest ih =>
    cases depth with
    | zero => simp [closeBody]
    | succ depth => exact (List.prefix_cons_inj c).mpr (ih _)

/-- A body is closed no later than one that starts deeper. -/
theorem closeBody_prefix_of_le {d e : Nat} (h : d ≤ e) (t : Text) :
    closeBody d t <+: closeBody e t := by
  induction t generalizing d e with
  | nil => cases d <;> simp [closeBody]
  | cons c rest ih =>
    cases d with
    | zero => simp [closeBody]
    | succ d =>
      obtain ⟨e, rfl⟩ : ∃ k, e = k + 1 := ⟨e - 1, by omega⟩
      -- a brace changes both depths alike
      rw [closeBody, closeBody, List.prefix_cons_inj]
      split
      · exact ih (by omega)
      · split
        · exact ih (by omega)
        · exact ih h

/-- From any place on, what is left of a body is a body at the depth of that place. -/
theorem exists_drop_closeBody (n depth : Nat) (t : Text) :
    ∃ e, (closeBody depth t).drop n = closeBody e (t.drop n) := by
  induction n generalizing depth t with
  | zero => exact ⟨depth, rfl⟩
  | succ n ih =>
    cases depth with
    | zero => exact ⟨0, by simp [closeBody]⟩
    | succ depth =>
      cases t with
      | nil => exact ⟨0, by simp [closeBody]⟩
      | cons c rest => exact ih _ rest

/-- A character changes the depth by as much as it changes the braces that stand open. -/
theorem depth_add_count (depth : Nat) (c : Char) (t : Text) :
    (if c = '\x7b' then depth + 2 else if c = '\x7d' then depth else depth + 1) + t.count '\x7b' +
        (c :: t).count '\x7d' =
      depth + 1 + (c :: t).count '\x7b' + t.count '\x7d' := by
  split
  · rename_i hc
    rw [hc, List.count_cons_self, List.count_cons_of_ne (by decide)]
    omega
  · rename_i hopening
    rw [List.count_cons_of_ne hopening]
    split
    · rename_i hc
      rw [hc, List.count_cons_self]
      omega
    · rename_i hclosing
      rw [List.count_cons_of_ne hclosing]

/-- A body is not closed before its end. -/
theorem count_lt_of_prefix_closeBody {depth : Nat} {t front : Text}
    (h : front <+: closeBody depth t) (hne : front ≠ closeBody depth t) :
    front.count '\x7d' < depth + front.count '\x7b' := by
  induction t generalizing depth front with
  | nil =>
    have hnil : closeBody depth [] = [] := by cases depth <;> rfl
    rw [hnil] at h hne
    exact absurd (List.prefix_nil.mp h) hne
  | cons c rest ih =>
    cases depth with
    | zero => exact absurd (List.prefix_nil.mp h) hne
    | succ depth =>
      cases front with
      | nil => exact Nat.succ_pos depth
      | cons first front =>
        -- what follows the first character is in front of the rest, at the depth behind the character
        obtain ⟨rfl, hfront⟩ := List.cons_prefix_cons.mp h
        have hlt := ih hfront fun heq => hne (by rw [closeBody, heq])
        have hdepth := depth_add_count depth first front
        omega

/-- A body closes all braces that stand open, or it runs to the end of the text and does not. -/
theorem count_closeBody (depth : Nat) (t : Text) :
    (closeBody depth t).count '\x7d' = depth + (closeBody depth t).count '\x7b' ∨
      closeBody depth t = t ∧ t.count '\x7d' < depth + t.count '\x7b' := by
  induction t generalizing depth with
  | nil =>
    cases depth with
    | zero => exact .inl rfl
    | succ depth => exact .inr ⟨rfl, Nat.succ_pos depth⟩
  | cons c rest ih =>
    cases depth with
    | zero => exact .inl rfl
    | succ depth =>
      rw [closeBody]
      -- the rest closes what stands open behind the character, or it does not
      rcases ih (if c = '\x7b' then depth + 2 else if c = '\x7d' then depth else depth + 1) with
        heven | ⟨hall, hlt⟩
      · have hdepth := depth_add_count depth c (closeBody
          (if c = '\x7b' then depth + 2 else if c = '\x7d' then depth else depth + 1) rest)
        exact .inl (by omega)
      · have hdepth := depth_add_count depth c rest
        exact .inr ⟨by rw [hall], by omega⟩

/-- A body that closes all braces ends in a closing one. -/
theorem exists_concat_of_even {depth : Nat} {t : Text} (hne : closeBody depth t ≠ [])
    (heven : (closeBody depth t).count '\x7d' = depth + (closeBody depth t).count '\x7b') :
    ∃ inner, closeBody depth t = inner ++ ['\x7d'] := by
  obtain ⟨inner, last, hbody⟩ := (List.eq_nil_or_concat' _).resolve_left hne
  have hfront : inner <+: closeBody depth t := hbody ▸ List.prefix_append inner [last]
  have hinner := count_lt_of_prefix_closeBody hfront (by simp [hbody])
  -- what comes before the last character leaves a brace open
  have hlast : last = '\x7d' := by
    by_contra hother
    rw [hbody, List.count_append, List.count_append, List.count_singleton, List.count_singleton,
      if_neg (by simpa using hother)] at heven
    omega
  exact ⟨inner, by rw [hbody, hlast]⟩

/-- A body runs to the end of the text, or it ends in a closing brace. -/
theorem closeBody_eq_or (depth : Nat) (t : Text) :
    closeBody (depth + 1) t = t ∨ ∃ inner, closeBody (depth + 1) t = inner ++ ['\x7d'] := by
  refine (count_closeBody (depth + 1) t).symm.imp And.left fun heven => ?_
  refine exists_concat_of_even (fun hnil => ?_) heven
  rw [hnil, List.count_nil, List.count_nil] at heven
  omega

/-! ### Bodies of the functions of a text -/

/-- The body that is looked for from a place on starts at the first opening brace. -/
theorem eq_of_takeBody? {t body : Text} {gap : Nat} (h : takeBody? t = some (gap, body)) :
    ∃ before rest, t = before ++ '\x7b' :: rest ∧ '\x7b' ∉ before ∧ gap = before.length ∧
      body = '\x7b' :: closeBody 1 rest := by
  have hsplit := List.takeWhile_append_dropWhile (p := (· ≠ '\x7b')) (l := t)
  have hhead := List.head?_dropWhile_not (· ≠ '\x7b') t
  unfold takeBody? at h
  cases hfound : t.dropWhile (· ≠ '\x7b') with
  | nil =>
    rw [hfound] at h
    cases h
  | cons brace rest =>
    rw [hfound] at h hsplit hhead
    obtain ⟨rfl, rfl⟩ := Prod.mk.inj (Option.some.inj h)
    obtain rfl : brace = '\x7b' := by simpa using hhead
    exact ⟨_, rest, hsplit.symm, fun hmem => by simpa using List.mem_takeWhile_imp hmem, rfl, rfl⟩

/-- The text behind the first character of the text from a place on. -/
theorem drop_succ_of_drop {source rest : Text} {position : Nat} {c : Char}
    (h : source.drop position = c :: rest) : source.drop (position + 1) = rest := by
  rw [← List.drop_drop, h]
  rfl

/-- How long a source is, from the text behind the character at a place. -/
theorem length_of_drop_cons {source rest : Text} {position : Nat} {c : Char}
    (h : source.drop position = c :: rest) : source.length = position + 1 + rest.length := by
  have hlength := congrArg List.length h
  rw [List.length_drop, List.length_cons] at hlength
  omega

/-- The body of a function is the one that is looked for from its head on. -/
theorem exists_takeBody? {source t : Text} {position line skip : Nat} {f : Function}
    (ht : source.drop position = t) (h : f ∈ functionsFrom position line skip t) :
    ∃ gap, f.bodyStart = f.headStart + gap ∧
      takeBody? (source.drop f.headStart) = some (gap, f.body) := by
  fun_induction functionsFrom position line skip t with
  | case1 => cases h
  | case2 position line skip c rest ih => exact ih (drop_succ_of_drop ht) h
  | case3 position line c rest next hnone ih => exact ih (drop_succ_of_drop ht) h
  | case4 position line c rest next name after hfound others hnone ih =>
    exact ih (drop_succ_of_drop ht) h
  | case5 position line c rest next name after hfound others gap body htaken ih =>
    rcases List.mem_cons.mp h with rfl | hothers
    · exact ⟨gap, rfl, by rw [ht, htaken]⟩
    · exact ih (drop_succ_of_drop ht) hothers

section Source

variable {source : Text} {f g : Function}

/-- The body of a function starts at the first opening brace from the start of its head on, and is
closed as the braces behind that one say. -/
theorem split_of_mem (hf : f ∈ functions source) :
    ∃ before rest, source.drop f.headStart = before ++ '\x7b' :: rest ∧ '\x7b' ∉ before ∧
      f.bodyStart = f.headStart + before.length ∧ f.body = '\x7b' :: closeBody 1 rest := by
  obtain ⟨gap, hstart, htaken⟩ := exists_takeBody? List.drop_zero hf
  obtain ⟨before, rest, hdrop, hnone, rfl, hbody⟩ := eq_of_takeBody? htaken
  exact ⟨before, rest, hdrop, hnone, hstart, hbody⟩

/-- The body of a function starts with an opening brace, and is closed as the braces behind it say.
-/
theorem body_of_mem (hf : f ∈ functions source) :
    ∃ rest, source.drop f.bodyStart = '\x7b' :: rest ∧ f.body = '\x7b' :: closeBody 1 rest := by
  obtain ⟨before, rest, hdrop, -, hstart, hbody⟩ := split_of_mem hf
  refine ⟨rest, ?_, hbody⟩
  rw [hstart, ← List.drop_drop, hdrop, List.drop_left]

/-- The body of a function is the text at its place. -/
theorem take_bodyLength (hf : f ∈ functions source) :
    (source.drop f.bodyStart).take f.body.length = f.body := by
  obtain ⟨rest, hdrop, hbody⟩ := body_of_mem hf
  rw [hdrop, hbody]
  exact (List.prefix_iff_eq_take.mp ((List.prefix_cons_inj _).mpr (closeBody_prefix_text 1 rest))).symm

/-- A body that starts within another is a piece of it, and it is closed within it unless nothing
follows. -/
theorem body_split (hf : f ∈ functions source) (hg : g ∈ functions source)
    (hstart : f.bodyStart ≤ g.bodyStart) (hend : g.bodyStart < f.bodyEnd) :
    ∃ before inner after, f.body = before ++ '\x7b' :: (inner ++ after) ∧
      g.body = '\x7b' :: inner ∧ before.length = g.bodyStart - f.bodyStart ∧
      (after = [] ∨ ∃ core, inner = core ++ ['\x7d']) := by
  obtain ⟨s, hfdrop, hfbody⟩ := body_of_mem hf
  obtain ⟨t, hgdrop, hgbody⟩ := body_of_mem hg
  -- from the place of the inner body on, the outer one is a body of its own depth
  have hinside : ∃ e, f.body.drop (g.bodyStart - f.bodyStart) = '\x7b' :: closeBody (e + 1) t := by
    rcases Nat.eq_or_lt_of_le hstart with heq | hlt
    · have hst : s = t := by
        rw [heq, hgdrop] at hfdrop
        exact (List.cons.inj hfdrop).2.symm
      exact ⟨0, by rw [heq, Nat.sub_self, hfbody, hst]; rfl⟩
    · obtain ⟨n, hn⟩ : ∃ n, g.bodyStart = f.bodyStart + (n + 1) :=
        ⟨g.bodyStart - f.bodyStart - 1, by omega⟩
      obtain ⟨e, he⟩ := exists_drop_closeBody n 1 s
      have ht : s.drop n = '\x7b' :: t := by
        rw [← hgdrop, hn, ← List.drop_drop, hfdrop]
        rfl
      have hlength : n < (closeBody 1 s).length := by
        rw [Function.bodyEnd, hfbody, List.length_cons] at hend
        omega
      rw [hn, Nat.add_sub_cancel_left, hfbody, List.drop_succ_cons, he, ht]
      cases e with
      | zero =>
        -- at depth zero the outer body would be over
        rw [ht, closeBody, List.drop_eq_nil_iff] at he
        omega
      | succ e => exact ⟨e + 1, rfl⟩
  obtain ⟨e, hinside⟩ := hinside
  obtain ⟨after, hafter⟩ := closeBody_prefix_of_le (Nat.le_add_left 1 e) t
  refine ⟨f.body.take (g.bodyStart - f.bodyStart), closeBody 1 t, after, ?_, hgbody, ?_, ?_⟩
  · rw [hafter, ← hinside, List.take_append_drop]
  · rw [List.length_take, Nat.min_eq_left]
    rw [Function.bodyEnd] at hend
    omega
  · refine (closeBody_eq_or 0 t).imp (fun hall => ?_) id
    -- where the inner body runs to the end of the text, nothing is left for the outer one
    have hle := (closeBody_prefix_text (e + 1) t).length_le
    rw [← hafter, hall, List.length_append] at hle
    exact List.eq_nil_of_length_eq_zero (by omega)

/-- A function encloses another when the body of the other lies within its own. -/
def Function.Encloses (f g : Function) : Prop :=
  f.bodyStart ≤ g.bodyStart ∧ g.bodyEnd ≤ f.bodyEnd

/-- A function whose body starts within that of another is enclosed by it. -/
theorem encloses_of_start (hf : f ∈ functions source) (hg : g ∈ functions source)
    (hstart : f.bodyStart ≤ g.bodyStart) (hend : g.bodyStart < f.bodyEnd) : f.Encloses g := by
  obtain ⟨before, inner, after, hfbody, hgbody, hlength, -⟩ := body_split hf hg hstart hend
  refine ⟨hstart, ?_⟩
  rw [Function.bodyEnd, Function.bodyEnd, hfbody, hgbody, List.length_append, List.length_cons,
    List.length_cons, List.length_append]
  omega

/-- Bodies do not overlap in part. -/
theorem disjoint_or_encloses (hf : f ∈ functions source) (hg : g ∈ functions source) :
    f.bodyEnd ≤ g.bodyStart ∨ g.bodyEnd ≤ f.bodyStart ∨ f.Encloses g ∨ g.Encloses f := by
  rcases Nat.le_total f.bodyStart g.bodyStart with hle | hle
  · rcases Nat.lt_or_ge g.bodyStart f.bodyEnd with hin | hout
    · exact .inr (.inr (.inl (encloses_of_start hf hg hle hin)))
    · exact .inl hout
  · rcases Nat.lt_or_ge f.bodyStart g.bodyEnd with hin | hout
    · exact .inr (.inr (.inr (encloses_of_start hg hf hle hin)))
    · exact .inr (.inl hout)

/-! ### Complexity of nested bodies -/

theorem isSeparator_opening : IsSeparator '\x7b' := by decide

theorem isSeparator_closing : IsSeparator '\x7d' := by decide

/-- A function is at least as complex as one that it encloses. -/
theorem complexity_le_of_encloses (hf : f ∈ functions source) (hg : g ∈ functions source)
    (h : f.Encloses g) : complexity g.body ≤ complexity f.body := by
  obtain ⟨hstart, hend⟩ := h
  have hinside : g.bodyStart < f.bodyEnd := by
    obtain ⟨t, -, hgbody⟩ := body_of_mem hg
    rw [Function.bodyEnd, hgbody, List.length_cons] at hend
    omega
  obtain ⟨before, inner, after, hfbody, hgbody, -, hclosed⟩ := body_split hf hg hstart hinside
  -- the opening brace of the inner body separates what comes before it
  have hfcount := complexity_append_cons isSeparator_opening before (inner ++ after)
  have hgcount := complexity_append_cons isSeparator_opening [] inner
  have hempty : complexity [] = 1 := rfl
  have hbefore := one_le_complexity before
  have hafter : complexity inner ≤ complexity (inner ++ after) := by
    rcases hclosed with rfl | ⟨core, rfl⟩
    · rw [List.append_nil]
    · -- and its closing brace what comes after it
      have hcore := complexity_append_cons isSeparator_closing core []
      have hrest := complexity_append_cons isSeparator_closing core after
      have hone := one_le_complexity after
      rw [List.append_assoc, List.singleton_append]
      omega
  rw [List.nil_append] at hgcount
  rw [hfbody, hgbody]
  omega

/-- More decision points are at least as severe, whatever the order of the bands is. -/
theorem Bands.severity_mono (bands : Bands Int) {m n : Int} (h : m ≤ n) :
    bands.severity m ≤ bands.severity n := by
  have hband : ∀ {bound : Int}, bound ≤ m → bound ≤ n := fun hm => Int.le_trans hm h
  unfold Bands.severity
  by_cases hcritical : bands.critical ≤ m
  · rw [if_pos hcritical, if_pos (hband hcritical)]
    exact Nat.le_refl _
  rw [if_neg hcritical]
  by_cases hhigh : bands.high ≤ m
  · rw [if_pos hhigh, if_pos (hband hhigh)]
    split <;> decide
  rw [if_neg hhigh]
  by_cases hmedium : bands.medium ≤ m
  · rw [if_pos hmedium, if_pos (hband hmedium)]
    split
    · decide
    · split <;> decide
  · rw [if_neg hmedium]
    exact Nat.zero_le _

/-- A function that is at least as complex as one that is reported is reported as well, and as at
least as severe. -/
theorem complexityFinding?_mono (bands : Bands Int) (file : Text) (blame : List BlameRow)
    (clock : Int) (h : complexity g.body ≤ complexity f.body) {y : Finding}
    (hy : complexityFinding? bands file blame clock g = some y) :
    ∃ x, complexityFinding? bands file blame clock f = some x ∧ y.severity ≤ x.severity := by
  have hscore : (complexity g.body : Int) ≤ complexity f.body := Int.ofNat_le.mpr h
  rw [complexityFinding?] at hy
  split at hy
  · rename_i hlow
    obtain rfl := Option.some.inj hy
    refine ⟨complexityFinding bands file blame clock f (complexity f.body), ?_,
      bands.severity_mono hscore⟩
    rw [complexityFinding?]
    exact if_pos (Int.le_trans hlow hscore)
  · cases hy

/-- The search for functions in a source that can be read finds each of them that reaches the lowest
band, with some blame. -/
theorem eq_of_functionWork {directory file commit : Text} {bands : Bands Int} {clock : Int}
    {w : World} {findings : List Finding} (hfile : Imports.hasSourceExtension file)
    (hsource : sourceOf? w.files directory file = some source)
    (h : ((functionWork directory file commit bands clock).run w).1 = .ok findings) :
    ∃ rows, findings = (functions source).filterMap (complexityFinding? bands file rows clock) := by
  have hfunctions : functionsOf w.files directory file = functions source := by
    rw [functionsOf, if_pos hfile, hsource]
    rfl
  obtain ⟨⟨blame, -, hblame⟩, -⟩ := (Scan.ensures_functionWork (Scan.filesInvariant w.files)
    (Scan.ensures_blame_files w.files) bands clock).run rfl
  rw [h, hfunctions, Scan.functionResult] at hblame
  split at hblame
  · rename_i hnone
    rw [Except.ok.inj hblame, hnone]
    exact ⟨[], rfl⟩
  · -- the blame was answered, or nothing would have been found
    cases blame with
    | error e => cases hblame
    | ok rows => exact ⟨rows, Except.ok.inj hblame⟩

/-- The bodies of two functions of a source, as pieces of it, are apart or one lies within the other.
A function that encloses another is at least as complex. So whatever the bands are, the search for
functions reports it where it reports the other, and as at least as severe. -/
theorem bodies_nested (hf : f ∈ functions source) (hg : g ∈ functions source) :
    ((source.drop f.bodyStart).take f.body.length = f.body ∧
      (source.drop g.bodyStart).take g.body.length = g.body) ∧
    (f.bodyEnd ≤ g.bodyStart ∨ g.bodyEnd ≤ f.bodyStart ∨ f.Encloses g ∨ g.Encloses f) ∧
    (f.Encloses g → complexity g.body ≤ complexity f.body ∧
      ∀ {directory file commit : Text} {bands : Bands Int} {clock : Int} {w : World}
        {findings : List Finding}, Imports.hasSourceExtension file →
        sourceOf? w.files directory file = some source →
        ((functionWork directory file commit bands clock).run w).1 = .ok findings →
        ∃ rows, findings = (functions source).filterMap (complexityFinding? bands file rows clock) ∧
          ∀ y, complexityFinding? bands file rows clock g = some y →
            ∃ x ∈ findings, complexityFinding? bands file rows clock f = some x ∧
              y.severity ≤ x.severity) := by
  refine ⟨⟨take_bodyLength hf, take_bodyLength hg⟩, disjoint_or_encloses hf hg, fun hencloses => ?_⟩
  have hcomplexity := complexity_le_of_encloses hf hg hencloses
  refine ⟨hcomplexity, fun {_ file _ bands clock _ _} hfile hsource hfound => ?_⟩
  obtain ⟨rows, rfl⟩ := eq_of_functionWork hfile hsource hfound
  refine ⟨rows, rfl, fun y hy => ?_⟩
  obtain ⟨x, hx, hseverity⟩ := complexityFinding?_mono bands file rows clock hcomplexity hy
  exact ⟨x, List.mem_filterMap.mpr ⟨f, hf, hx⟩, hx, hseverity⟩

end Source

/-- A function with a block in it that starts like a method. -/
def nestedSource : Text := "function f(x) \x7b if (x) \x7b y() \x7d \x7d"

/-- A workspace with that function in a file, and without a history. -/
def nestedFunctions : World where
  files := .dir [("w", .dir [("a.ts", .file (Text.Utf8.encode nestedSource))])]

/-- The function encloses the block and is more complex, so that it is of medium severity where the
block is of low severity. -/
theorem bodies_nested_block :
    ∃ f ∈ functions nestedSource, ∃ g ∈ functions nestedSource, f.Encloses g ∧ ¬g.Encloses f ∧
      ((nestedSource.drop f.bodyStart).take f.body.length = f.body ∧
        (nestedSource.drop g.bodyStart).take g.body.length = g.body) ∧
      complexity g.body ≤ complexity f.body ∧
      ∃ findings, ((functionWork "/w" "a.ts" [] ⟨1, 2, 3, 4⟩ 0).run nestedFunctions).1 =
          .ok findings ∧ findings.map (·.severity) = [.medium, .low] ∧
        ∃ rows y, complexityFinding? ⟨1, 2, 3, 4⟩ "a.ts" rows 0 g = some y ∧
          ∃ x ∈ findings, complexityFinding? ⟨1, 2, 3, 4⟩ "a.ts" rows 0 f = some x ∧
            y.severity ≤ x.severity := by
  obtain ⟨f, hfunction⟩ : ∃ f : Function, f = ⟨"f", 1, 0, 14, nestedSource.drop 14⟩ := ⟨_, rfl⟩
  obtain ⟨g, hblock⟩ : ∃ g : Function, g = ⟨"if", 1, 16, 23, "\x7b y() \x7d"⟩ := ⟨_, rfl⟩
  have hfunctions : functions nestedSource = [f, g] := by
    rw [hfunction, hblock]
    decide +kernel
  have hf : f ∈ functions nestedSource := by simp [hfunctions]
  have hg : g ∈ functions nestedSource := by simp [hfunctions]
  have hfg : f.Encloses g := by
    rw [hfunction, hblock]
    exact ⟨by decide, by decide⟩
  have hgf : ¬g.Encloses f := by
    rw [hfunction, hblock]
    exact fun h => absurd h.1 (by decide)
  have hseverities : ((functionWork "/w" "a.ts" [] ⟨1, 2, 3, 4⟩ 0).run nestedFunctions).1.toOption.map
      (·.map (·.severity)) = some [.medium, .low] := by decide +kernel
  have hreported : ∀ rows, ∃ y, complexityFinding? ⟨1, 2, 3, 4⟩ "a.ts" rows 0 g = some y := by
    have hone : complexity g.body = 1 := by
      rw [hblock]
      decide +kernel
    intro rows
    rw [complexityFinding?, hone]
    exact ⟨_, rfl⟩
  obtain ⟨hplaces, -, hnested⟩ := bodies_nested hf hg
  obtain ⟨hcomplexity, hsearch⟩ := hnested hfg
  rcases hfound : ((functionWork "/w" "a.ts" [] ⟨1, 2, 3, 4⟩ 0).run nestedFunctions).1
    with _ | findings <;> rw [hfound] at hseverities
  · cases hseverities
  obtain ⟨rows, -, hmono⟩ := hsearch (by decide) (by decide +kernel) hfound
  obtain ⟨y, hy⟩ := hreported rows
  exact ⟨f, hf, g, hg, hfg, hgf, hplaces, hcomplexity, findings, rfl, Option.some.inj hseverities,
    rows, y, hy, hmono y hy⟩

end DebtSurvey.Code
