import DebtSurvey.Proofs.FunctionBody
import DebtSurvey.Proofs.SourceLines

/-!
# Places of functions

A function is reported with the line of its head and the complexity of its body, so both have to be
cut out of the source at the right places. The line is told by the newlines above the head. The body
starts at the first opening brace from the head on and never stands even before its last character.
Either it is even there, with a closing brace, or the source ends with some of its braces open.

Heads are looked for from the front, and from the end of a head on. So functions stand in the order of
their heads, however their bodies nest, and what could be a head is passed over only where a head that
starts before has taken it.

## Main results

* `Code.pairwise_functionsFrom`, `Code.exists_headTakes`: functions stand in the order of their heads,
  and no other heads are left.
* `Code.functions_placed`: every function of a source is in its place, and they stand in order.
-/

namespace DebtSurvey.Code

/-! ### Texts with braces -/

/-- More braces are opened in a text than closed. -/
def IsOpen (t : Text) : Prop := t.count '\x7d' < t.count '\x7b'

instance (t : Text) : Decidable (IsOpen t) :=
  inferInstanceAs (Decidable (t.count '\x7d' < t.count '\x7b'))

/-- As many braces are closed in a text as opened, and it ends in a closing one. -/
def IsClosed (t : Text) : Prop := t.count '\x7d' = t.count '\x7b' ∧ t.getLast? = some '\x7d'

instance (t : Text) : Decidable (IsClosed t) :=
  inferInstanceAs (Decidable (t.count '\x7d' = t.count '\x7b' ∧ t.getLast? = some '\x7d'))

/-- In front of a text, an opening brace stands for one more depth. -/
theorem isOpen_opening_cons {t : Text} :
    IsOpen ('\x7b' :: t) ↔ t.count '\x7d' < 1 + t.count '\x7b' := by
  rw [IsOpen, List.count_cons_self, List.count_cons_of_ne (by decide), Nat.add_comm]

/-- Before its end, a body with its opening brace is open. -/
theorem isOpen_of_prefix_body {rest front : Text} (h : front <+: '\x7b' :: closeBody 1 rest)
    (hempty : front ≠ []) (hall : front ≠ '\x7b' :: closeBody 1 rest) : IsOpen front := by
  obtain ⟨first, front, rfl⟩ := List.exists_cons_of_ne_nil hempty
  obtain ⟨rfl, hfront⟩ := List.cons_prefix_cons.mp h
  exact isOpen_opening_cons.mpr (count_lt_of_prefix_closeBody hfront fun heq => hall (by rw [heq]))

/-- A body with its opening brace is closed, or it is open and all of the text. -/
theorem isClosed_or_isOpen (rest : Text) :
    IsClosed ('\x7b' :: closeBody 1 rest) ∨
      IsOpen ('\x7b' :: closeBody 1 rest) ∧ closeBody 1 rest = rest := by
  refine (count_closeBody 1 rest).imp (fun heven => ?_) fun ⟨hall, hlt⟩ => ⟨?_, hall⟩
  · have hne : closeBody 1 rest ≠ [] := by
      intro hnil
      rw [hnil] at heven
      cases heven
    obtain ⟨inner, hinner⟩ := exists_concat_of_even hne heven
    refine ⟨?_, by rw [hinner, ← List.cons_append, List.getLast?_concat]⟩
    rw [List.count_cons_of_ne (by decide), List.count_cons_self, heven, Nat.add_comm]
  · rw [isOpen_opening_cons, hall]
    exact hlt

/-! ### Places of the functions of a source -/

/-- A function is in its place in a source: the head that names it, the line of the head, and the
body. -/
structure Function.IsPlaced (source : Text) (f : Function) : Prop where
  /-- Where the head starts, the source reads as a head with the name. -/
  head : ∃ after, takeHead? (source.drop f.headStart) = some (f.name, after)
  /-- The line is one more than the newlines above the head. -/
  line : f.line = 1 + (source.take f.headStart).count '\n'
  /-- The body does not start before the head. -/
  headStart_le : f.headStart ≤ f.bodyStart
  /-- It starts with an opening brace. -/
  opening : source[f.bodyStart]? = some '\x7b'
  /-- That brace is the first one from the start of the head on. -/
  first : ∀ i, f.headStart ≤ i → i < f.bodyStart → source[i]? ≠ some '\x7b'
  /-- The body is the piece of the source from there on. -/
  piece : (source.drop f.bodyStart).take f.body.length = f.body
  /-- It is open wherever it is cut. -/
  prefixes : ∀ front, front <+: f.body → front ≠ [] → front ≠ f.body → IsOpen front
  /-- It is closed, or it is open and runs to the end of the source. -/
  ending : IsClosed f.body ∨ IsOpen f.body ∧ f.bodyEnd = source.length

section Source

variable {source : Text} {f : Function}

/-- Between the start of its head and its body, a function has no opening brace. -/
theorem no_opening_of_mem (hf : f ∈ functions source) {i : Nat} (hhead : f.headStart ≤ i)
    (hbody : i < f.bodyStart) : source[i]? ≠ some '\x7b' := by
  obtain ⟨before, rest, hdrop, hnone, hstart, -⟩ := split_of_mem hf
  obtain ⟨n, rfl⟩ := Nat.exists_eq_add_of_le hhead
  have hn : n < before.length := by omega
  rw [← List.getElem?_drop, hdrop, List.getElem?_append_left hn]
  exact fun hopening => hnone (List.mem_of_getElem? hopening)

/-- The body of a function is closed, or it is open and runs to the end of the source. -/
theorem ending_of_mem (hf : f ∈ functions source) :
    IsClosed f.body ∨ IsOpen f.body ∧ f.bodyEnd = source.length := by
  obtain ⟨rest, hdrop, hbody⟩ := body_of_mem hf
  have hlength := length_of_drop_cons hdrop
  rw [Function.bodyEnd, hbody]
  rcases isClosed_or_isOpen rest with hclosed | ⟨hopen, hall⟩
  · exact .inl hclosed
  · refine .inr ⟨hopen, ?_⟩
    rw [hall, List.length_cons]
    omega

/-- A function of a source is in its place there. -/
theorem isPlaced_of_mem (hf : f ∈ functions source) : f.IsPlaced source := by
  obtain ⟨hline, hhead⟩ := head_of_mem hf
  obtain ⟨before, -, -, -, hstart, -⟩ := split_of_mem hf
  obtain ⟨rest, hdrop, hbody⟩ := body_of_mem hf
  exact {
    head := hhead
    line := by rw [hline, Nat.add_comm]
    headStart_le := by omega
    opening := by rw [← List.head?_drop, hdrop, List.head?_cons]
    first := fun i => no_opening_of_mem hf
    piece := take_bodyLength hf
    prefixes := by
      rw [hbody]
      exact fun front => isOpen_of_prefix_body
    ending := ending_of_mem hf }

end Source

/-! ### The order of the functions of a source -/

/-- The head of a function takes a place of a source when it starts there, or before with its end
behind. -/
def Function.HeadTakes (source : Text) (f : Function) (i : Nat) : Prop :=
  f.headStart = i ∨ f.headStart < i ∧
    ∃ after, takeHead? (source.drop f.headStart) = some (f.name, after) ∧
      i + after.length < source.length

section From

variable {source t : Text} {position line skip : Nat}

/-- No head starts in front of the characters that still belong to the last head. -/
theorem add_skip_le_headStart {f : Function} (h : f ∈ functionsFrom position line skip t) :
    position + skip ≤ f.headStart := by
  -- each character moves the position on by one, and leaves one less of the last head
  fun_induction functionsFrom position line skip t with
  | case1 => cases h
  | case2 position line skip c rest ih =>
    have hle := ih h
    omega
  | case3 position line c rest next hnone ih =>
    have hle := ih h
    omega
  | case4 position line c rest next name after hfound others hnone ih =>
    have hle := ih h
    omega
  | case5 position line c rest next name after hfound others gap body htaken ih =>
    rcases List.mem_cons.mp h with rfl | hothers
    · exact Nat.le_refl _
    · have hle := ih hothers
      omega

/-- The functions that are found stand in the order of their heads, and no head starts in another. -/
theorem pairwise_functionsFrom (ht : source.drop position = t) :
    (functionsFrom position line skip t).Pairwise fun f g =>
      f.headStart < g.headStart ∧ ¬f.HeadTakes source g.headStart := by
  fun_induction functionsFrom position line skip t with
  | case1 => exact .nil
  | case2 position line skip c rest ih => exact ih (drop_succ_of_drop ht)
  | case3 position line c rest next hnone ih => exact ih (drop_succ_of_drop ht)
  | case4 position line c rest next name after hfound others hnone ih =>
    exact ih (drop_succ_of_drop ht)
  | case5 position line c rest next name after hfound others gap body htaken ih =>
    refine List.pairwise_cons.mpr ⟨fun g hg => ?_, ih (drop_succ_of_drop ht)⟩
    -- the others are found behind this head
    have hbehind := add_skip_le_headStart hg
    have hlength := length_of_drop_cons ht
    refine ⟨show position < g.headStart by omega, ?_⟩
    rintro (hsame | ⟨-, behind, hagain, hlt⟩)
    · change position = g.headStart at hsame
      omega
    · change takeHead? (source.drop position) = _ at hagain
      rw [ht, hfound] at hagain
      obtain ⟨-, rfl⟩ := Prod.mk.inj (Option.some.inj hagain)
      omega

/-- Without a body that can be taken, there is no opening brace. -/
theorem notMem_of_takeBody?_eq_none (h : takeBody? t = none) : '\x7b' ∉ t := by
  unfold takeBody? at h
  cases hfound : t.dropWhile (· ≠ '\x7b') with
  | nil => exact fun hmem => by simpa using List.dropWhile_eq_nil_iff.mp hfound _ hmem
  | cons brace rest =>
    rw [hfound] at h
    cases h

/-- A head with an opening brace behind is that of a function, unless it starts in the head of one. -/
theorem exists_headTakes (ht : source.drop position = t) {i : Nat} (hi : position + skip ≤ i)
    (hhead : (takeHead? (source.drop i)).isSome) (hbrace : '\x7b' ∈ source.drop i) :
    ∃ f ∈ functionsFrom position line skip t, f.HeadTakes source i := by
  fun_induction functionsFrom position line skip t with
  | case1 position line skip =>
    have hlength := List.drop_eq_nil_iff.mp ht
    rw [List.drop_eq_nil_of_le (by omega)] at hbrace
    cases hbrace
  | case2 position line skip c rest ih => exact ih (drop_succ_of_drop ht) (by omega)
  | case3 position line c rest next hnone ih =>
    rcases Nat.eq_or_lt_of_le hi with rfl | hlt
    · rw [Nat.add_zero, ht, hnone] at hhead
      cases hhead
    · exact ih (drop_succ_of_drop ht) hlt
  | case4 position line c rest next name after hfound others hnone ih =>
    -- what is behind the place is behind this head as well
    have hsuffix : source.drop i <:+ source.drop position := List.drop_suffix_drop_left source hi
    exact absurd (ht ▸ hsuffix.subset hbrace) (notMem_of_takeBody?_eq_none hnone)
  | case5 position line c rest next name after hfound others gap body htaken ih =>
    -- this head takes the places up to its end, and the others start behind
    rcases Nat.lt_or_ge i (position + 1 + (rest.length - after.length)) with hin | hbehind
    · refine ⟨_, List.mem_cons_self, ?_⟩
      rcases Nat.eq_or_lt_of_le hi with hstart | hlt
      · exact .inl hstart
      · have hlength := length_of_drop_cons ht
        exact .inr ⟨hlt, after, by rw [ht, hfound], by omega⟩
    · obtain ⟨f, hf, htakes⟩ := ih (drop_succ_of_drop ht) hbehind
      exact ⟨f, List.mem_cons_of_mem _ hf, htakes⟩

end From

/-- Every function of a source is in its place there: its line is that of its head, and its body the
piece from the first opening brace on that is closed no sooner than at its end. The functions stand
in the order of their heads, so that their lines do not go down either, and no head starts in the one
of another. And every head with an opening brace behind is one of theirs or starts in one of theirs. -/
theorem functions_placed (source : Text) :
    (∀ f ∈ functions source, f.IsPlaced source) ∧
    ((functions source).Pairwise fun f g =>
      f.headStart < g.headStart ∧ f.line ≤ g.line ∧ ¬f.HeadTakes source g.headStart) ∧
    ∀ i, (takeHead? (source.drop i)).isSome → '\x7b' ∈ source.drop i →
      ∃ f ∈ functions source, f.HeadTakes source i := by
  refine ⟨fun f => isPlaced_of_mem, ?_, fun i => exists_headTakes List.drop_zero (by omega)⟩
  have hpairs : (functions source).Pairwise fun f g =>
      f.headStart < g.headStart ∧ ¬f.HeadTakes source g.headStart :=
    pairwise_functionsFrom List.drop_zero
  refine hpairs.imp_of_mem fun {f g} hf hg ⟨hlt, hapart⟩ => ⟨hlt, ?_, hapart⟩
  -- what stands above a head stands above the later ones as well
  have habove : source.take f.headStart <+: source.take g.headStart :=
    List.take_prefix_take_left hlt.le
  rw [(head_of_mem hf).1, (head_of_mem hg).1]
  exact Nat.succ_le_succ (habove.sublist.count_le '\n')

/-- A function with a block in it that starts like a method, and a function that is not closed. -/
def unclosedSource : Text :=
  "function f(x) \x7b\n  if (x) \x7b y() \x7d\n\x7d\nconst g = (x) => \x7b\x7b z() \x7d"

/-- The function and its block are closed, and the last function runs to the end of the source. The
name and the parameters of the function would be the head of a method, had its head not taken them. -/
theorem functions_placed_unclosed :
    ∃ f block g, functions unclosedSource = [f, block, g] ∧
      (f.IsPlaced unclosedSource ∧ IsClosed f.body) ∧
      (block.IsPlaced unclosedSource ∧ IsClosed block.body) ∧
      (g.IsPlaced unclosedSource ∧ IsOpen g.body ∧ g.bodyEnd = unclosedSource.length) ∧
      [f.headStart, block.headStart, g.headStart] = [0, 18, 35] ∧
      [f.line, block.line, g.line] = [1, 2, 4] ∧
      (takeHead? (unclosedSource.drop 9)).isSome ∧
      ∃ h ∈ [f, block, g], h.HeadTakes unclosedSource 9 := by
  obtain ⟨f, hf⟩ : ∃ f : Function, f = ⟨"f", 1, 0, 14, (unclosedSource.take 34).drop 14⟩ := ⟨_, rfl⟩
  obtain ⟨block, hblock⟩ : ∃ block : Function, block = ⟨"if", 2, 18, 25, "\x7b y() \x7d"⟩ :=
    ⟨_, rfl⟩
  obtain ⟨g, hg⟩ : ∃ g : Function, g = ⟨"g", 4, 35, 52, unclosedSource.drop 52⟩ := ⟨_, rfl⟩
  have hfunctions : functions unclosedSource = [f, block, g] := by
    rw [hf, hblock, hg]
    decide +kernel
  obtain ⟨hplaced, -, hheads⟩ := functions_placed unclosedSource
  rw [hfunctions] at hplaced hheads
  have hclosed : IsClosed f.body ∧ IsClosed block.body := by
    rw [hf, hblock]
    decide +kernel
  have hopen : IsOpen g.body ∧ g.bodyEnd = unclosedSource.length := by
    rw [hg]
    decide +kernel
  have hmethod : (takeHead? (unclosedSource.drop 9)).isSome := by decide +kernel
  exact ⟨f, block, g, hfunctions, ⟨hplaced f (by simp), hclosed.1⟩,
    ⟨hplaced block (by simp), hclosed.2⟩, ⟨hplaced g (by simp), hopen⟩, by rw [hf, hblock, hg],
    by rw [hf, hblock, hg], hmethod, hheads 9 hmethod (by decide +kernel)⟩

end DebtSurvey.Code
