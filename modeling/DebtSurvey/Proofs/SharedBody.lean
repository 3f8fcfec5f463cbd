import DebtSurvey.Proofs.FunctionPlaces

/-!
# Bodies that are shared

A head need not hold the opening brace of a body. Its body is looked for on its own, and is the next
one in the text, to whatever it belongs. So a function that has no body of its own, such as an arrow
to an expression or a signature without an implementation, comes by the body of a later function,
unless another brace is opened before the head of that one. A binding to a function that has a name
of its own is found twice, with one body.

The head of a method ends in an opening brace. So a block is the body of at most one of these, which
is then the last of all the functions that have it as their body.

## Main results

* `Code.takeHead?_suffix`: a head is a piece from the front of a text.
* `Code.bodyStart_eq_iff`: two functions have the same body if and only if no brace is opened from
  the one head up to the other.
* `Code.nodup_bodyStart_iff`: all bodies are different if and only if a brace is opened from each head
  up to the next.
-/

namespace DebtSurvey.Code

/-! ### Heads as pieces of a text -/

section Head

variable {t rest name after : Text}

theorem takeWord?_eq_some_iff {word : Text} : takeWord? word t = some rest ↔ t = word ++ rest := by
  rw [takeWord?]
  constructor
  · intro h
    split at h
    · rename_i hword
      obtain ⟨behind, rfl⟩ := List.isPrefixOf_iff_prefix.mp hword
      rw [List.drop_left] at h
      rw [Option.some.inj h]
    · cases h
  · rintro rfl
    simp

theorem skipGap?_suffix (h : skipGap? t = some rest) : rest <:+ t := by
  cases t with
  | nil => cases h
  | cons c behind =>
    rw [skipGap?] at h
    split at h
    · rw [← Option.some.inj h]
      exact (List.dropWhile_suffix _).trans (List.suffix_cons c behind)
    · cases h

theorem takeName?_suffix (h : takeName? t = some (name, rest)) : rest <:+ t := by
  unfold takeName? at h
  simp only at h
  split at h
  · cases h
  · obtain ⟨-, rfl⟩ := Prod.mk.inj (Option.some.inj h)
    exact List.dropWhile_suffix _

theorem takeParens?_suffix (h : takeParens? t = some rest) : rest <:+ t := by
  unfold takeParens? at h
  split at h
  · rename_i inside
    split at h
    · cases h
    · rename_i closing behind hfound
      obtain rfl := Option.some.inj h
      have hinside : closing :: behind <:+ inside := hfound ▸ List.dropWhile_suffix _
      exact ((List.suffix_cons closing behind).trans hinside).trans (List.suffix_cons '(' inside)
  · cases h

theorem takeWord?_suffix {word : Text} (h : takeWord? word t = some rest) : rest <:+ t := by
  rw [takeWord?_eq_some_iff.mp h]
  exact List.suffix_append word rest

theorem boundFunction?_suffix (h : boundFunction? t = some rest) : rest <:+ t := by
  unfold boundFunction? at h
  split at h
  · rename_i hword
    rw [← Option.some.inj h]
    exact takeWord?_suffix hword
  · obtain ⟨parens, hparens, harrow⟩ := Option.bind_eq_some_iff.mp h
    have hblanks : skipBlanks parens <:+ parens := List.dropWhile_suffix _
    exact ((takeWord?_suffix harrow).trans hblanks).trans (takeParens?_suffix hparens)

theorem declaredHead?_suffix (h : declaredHead? t = some (name, after)) : after <:+ t := by
  simp only [declaredHead?, Option.bind_eq_bind, Option.bind_eq_some_iff] at h
  obtain ⟨word, hword, gap, hgap, hname⟩ := h
  exact ((takeName?_suffix hname).trans (skipGap?_suffix hgap)).trans (takeWord?_suffix hword)

theorem boundHead?_suffix (h : boundHead? t = some (name, after)) : after <:+ t := by
  simp only [boundHead?, Option.bind_eq_bind, Option.pure_def, Option.bind_eq_some_iff] at h
  obtain ⟨binding, hbinding, gap, hgap, ⟨found, behind⟩, hname, value, hvalue, h⟩ := h
  obtain ⟨word, -, hword⟩ := List.exists_of_findSome?_eq_some hbinding
  have hbehind : behind <:+ t :=
    ((takeName?_suffix hname).trans (skipGap?_suffix hgap)).trans (takeWord?_suffix hword)
  have hblanks : skipBlanks behind <:+ behind := List.dropWhile_suffix _
  have hstart : skipBlanks value <:+ value := List.dropWhile_suffix _
  have hbound : skipBlanks value <:+ t :=
    (hstart.trans (takeWord?_suffix hvalue)).trans (hblanks.trans hbehind)
  -- the function is read behind `async`, or else from the start of the value
  split at h
  · rename_i asynchronous hfound
    obtain ⟨-, rfl⟩ := Prod.mk.inj (Option.some.inj h)
    obtain ⟨start, hgap, hfunction⟩ := Option.bind_eq_some_iff.mp hfound
    obtain ⟨word, hasync, hgap⟩ := Option.bind_eq_some_iff.mp hgap
    have hstart : start <:+ skipBlanks value :=
      (skipGap?_suffix hgap).trans (takeWord?_suffix hasync)
    exact ((boundFunction?_suffix hfunction).trans hstart).trans hbound
  · obtain ⟨start, hfunction, h⟩ := Option.bind_eq_some_iff.mp h
    obtain ⟨-, rfl⟩ := Prod.mk.inj (Option.some.inj h)
    exact (boundFunction?_suffix hfunction).trans hbound

/-- The head of a method ends in an opening brace. -/
theorem opening_suffix_of_methodHead? (h : methodHead? t = some (name, after)) :
    '\x7b' :: after <:+ t := by
  simp only [methodHead?, Option.bind_eq_bind, Option.pure_def, Option.bind_eq_some_iff] at h
  obtain ⟨⟨found, behind⟩, hname, parens, hparens, opened, hopened, h⟩ := h
  obtain ⟨-, rfl⟩ := Prod.mk.inj (Option.some.inj h)
  have hbrace : skipBlanks parens = '\x7b' :: opened := takeWord?_eq_some_iff.mp hopened
  have hblanks : skipBlanks parens <:+ parens := List.dropWhile_suffix _
  have hbefore : skipBlanks behind <:+ behind := List.dropWhile_suffix _
  rw [← hbrace]
  exact (hblanks.trans (takeParens?_suffix hparens)).trans (hbefore.trans (takeName?_suffix hname))

theorem takeHead?_eq_some_iff : takeHead? t = some (name, after) ↔
    declaredHead? t = some (name, after) ∨
      declaredHead? t = none ∧ (boundHead? t = some (name, after) ∨
        boundHead? t = none ∧ methodHead? t = some (name, after)) := by
  simp only [takeHead?, Option.orElse_eq_orElse, Option.orElse_eq_or, Option.or_eq_some_iff]

theorem takeHead?_suffix (h : takeHead? t = some (name, after)) : after <:+ t := by
  obtain hdeclared | ⟨-, hbound | ⟨-, hmethod⟩⟩ := takeHead?_eq_some_iff.mp h
  · exact declaredHead?_suffix hdeclared
  · exact boundHead?_suffix hbound
  · exact (List.suffix_cons '\x7b' after).trans (opening_suffix_of_methodHead? hmethod)

/-- A head without an opening brace is that of a declaration or of a binding. -/
theorem declared_or_bound_of_notMem {head : Text} (h : takeHead? t = some (name, after))
    (ht : t = head ++ after) (hhead : '\x7b' ∉ head) :
    declaredHead? t = some (name, after) ∨ boundHead? t = some (name, after) := by
  obtain hdeclared | ⟨-, hbound | ⟨-, hmethod⟩⟩ := takeHead?_eq_some_iff.mp h
  · exact .inl hdeclared
  · exact .inr hbound
  · obtain ⟨front, hfront⟩ := opening_suffix_of_methodHead? hmethod
    -- the brace before the end of the head is in the head
    have hsame : (front ++ ['\x7b']) ++ after = head ++ after := by
      rw [← ht, ← hfront, List.append_assoc, List.singleton_append]
    rw [← List.append_cancel_right hsame] at hhead
    exact absurd (by simp) hhead

end Head

/-! ### Where bodies start -/

section Source

variable {source : Text} {f g : Function}

/-- What a source reads from the head of a function up to that of another. -/
def upTo (source : Text) (f g : Function) : Text := (source.take g.headStart).drop f.headStart

theorem mem_upTo_iff {c : Char} :
    c ∈ upTo source f g ↔ ∃ i, f.headStart ≤ i ∧ i < g.headStart ∧ source[i]? = some c := by
  rw [upTo, List.mem_iff_getElem?]
  constructor
  · rintro ⟨n, hn⟩
    rw [List.getElem?_drop, List.getElem?_take] at hn
    split at hn
    · exact ⟨f.headStart + n, Nat.le_add_right _ _, ‹_›, hn⟩
    · cases hn
  · rintro ⟨i, hfrom, hto, hi⟩
    refine ⟨i - f.headStart, ?_⟩
    rw [List.getElem?_drop, Nat.add_sub_cancel' hfrom, List.getElem?_take, if_pos hto]
    exact hi

/-- No brace is opened between the head of a function and its body. -/
theorem bodyStart_le_of_opening (hf : f ∈ functions source) {i : Nat} (hhead : f.headStart ≤ i)
    (hi : source[i]? = some '\x7b') : f.bodyStart ≤ i := by
  by_contra hlt
  exact no_opening_of_mem hf hhead (by omega) hi

/-- Where a brace is opened between two heads, the body of the first function comes before the head
of the second. -/
theorem bodyStart_lt_of_mem_upTo (hf : f ∈ functions source) (hg : g ∈ functions source)
    (h : '\x7b' ∈ upTo source f g) : f.bodyStart < g.bodyStart := by
  obtain ⟨i, hfrom, hto, hi⟩ := mem_upTo_iff.mp h
  calc f.bodyStart
      ≤ i := bodyStart_le_of_opening hf hfrom hi
    _ < g.headStart := hto
    _ ≤ g.bodyStart := (isPlaced_of_mem hg).headStart_le

/-- Two functions have the same body if and only if no brace is opened from the one head up to the
other. -/
theorem bodyStart_eq_iff (hf : f ∈ functions source) (hg : g ∈ functions source)
    (horder : f.headStart ≤ g.headStart) :
    f.bodyStart = g.bodyStart ↔ '\x7b' ∉ upTo source f g := by
  have hplaced := isPlaced_of_mem hf
  have hplaced' := isPlaced_of_mem hg
  constructor
  · intro heq hmem
    exact absurd heq (bodyStart_lt_of_mem_upTo hf hg hmem).ne
  · intro hnone
    have hbehind : g.headStart ≤ f.bodyStart := by
      by_contra hlt
      apply hnone
      rw [mem_upTo_iff]
      exact ⟨f.bodyStart, hplaced.headStart_le, Nat.lt_of_not_le hlt, hplaced.opening⟩
    -- the first brace from either head on is one from the other head on as well
    apply Nat.le_antisymm
    · exact bodyStart_le_of_opening hf (horder.trans hplaced'.headStart_le) hplaced'.opening
    · exact bodyStart_le_of_opening hg hbehind hplaced.opening

/-- The head of a function ends before that of a later one. -/
theorem exists_head_prefix_upTo (horder : f.headStart < g.headStart)
    (hapart : ¬f.HeadTakes source g.headStart) (hf : f ∈ functions source) :
    ∃ head after, source.drop f.headStart = head ++ after ∧
      takeHead? (source.drop f.headStart) = some (f.name, after) ∧ head <+: upTo source f g := by
  obtain ⟨-, after, hhead⟩ := head_of_mem hf
  obtain ⟨head, hsplit⟩ := takeHead?_suffix hhead
  refine ⟨head, after, hsplit.symm, hhead, ?_⟩
  have hlength := congrArg List.length hsplit
  rw [List.length_append, List.length_drop] at hlength
  have hend : ¬g.headStart + after.length < source.length := fun hlt =>
    hapart (.inr ⟨horder, after, hhead, hlt⟩)
  have hle : head.length ≤ g.headStart - f.headStart := by omega
  rw [upTo, List.drop_take, ← hsplit, List.prefix_take_iff]
  exact ⟨List.prefix_append head after, hle⟩

end Source

/-- The bodies of the functions of a source start at different places if and only if a brace is opened
from each head up to the next. Of any two functions with the same body, the earlier one is a declaration or a
binding, and there is no opening brace in its head or behind it up to the head of the later one. -/
theorem nodup_bodyStart_iff (source : Text) :
    (((functions source).map (·.bodyStart)).Nodup ↔
      (functions source).IsChain fun f g => '\x7b' ∈ upTo source f g) ∧
    (functions source).Pairwise fun f g =>
      (f.bodyStart = g.bodyStart ↔ '\x7b' ∉ upTo source f g) ∧
      (f.bodyStart = g.bodyStart → ∃ head after, source.drop f.headStart = head ++ after ∧
        '\x7b' ∉ head ∧ (declaredHead? (source.drop f.headStart) = some (f.name, after) ∨
          boundHead? (source.drop f.headStart) = some (f.name, after))) := by
  have hpairs : (functions source).Pairwise fun f g =>
      f.headStart < g.headStart ∧ ¬f.HeadTakes source g.headStart :=
    pairwise_functionsFrom List.drop_zero
  have hshared : (functions source).Pairwise fun f g =>
      (f.bodyStart = g.bodyStart ↔ '\x7b' ∉ upTo source f g) :=
    hpairs.imp_of_mem fun hf hg ⟨horder, _⟩ => bodyStart_eq_iff hf hg horder.le
  refine ⟨⟨fun hnodup => ?_, fun hchain => ?_⟩, ?_⟩
  · have hdifferent := List.pairwise_map.mp hnodup
    apply List.Pairwise.isChain
    refine (hdifferent.and hshared).imp fun ⟨hne, hiff⟩ => ?_
    by_contra hnone
    exact hne (hiff.mpr hnone)
  · -- from one body to the next the start goes up, and so it does from any body to a later one
    have hsteps : (functions source).IsChain fun f g => f.bodyStart < g.bodyStart :=
      hchain.imp_of_mem_imp fun f g hf hg => bodyStart_lt_of_mem_upTo hf hg
    have hrising : ((functions source).map (·.bodyStart)).IsChain (· < ·) :=
      (List.isChain_map _).mpr hsteps
    exact hrising.pairwise.imp Nat.ne_of_lt
  · refine (hpairs.and hshared).imp_of_mem fun {f g} hf _ ⟨⟨horder, hapart⟩, hiff⟩ => ⟨hiff, ?_⟩
    intro hsame
    obtain ⟨head, after, hsplit, hhead, hbefore⟩ := exists_head_prefix_upTo horder hapart hf
    have hnone : '\x7b' ∉ head := fun hmem => hiff.mp hsame (hbefore.subset hmem)
    exact ⟨head, after, hsplit, hnone, declared_or_bound_of_notMem hhead hsplit hnone⟩

/-- An arrow to an expression, and a function behind it. -/
def arrowSource : Text := "const id = (x) => x\nfunction g() \x7b return 1 \x7d"

/-- The arrow has no body of its own and comes by that of the function. -/
theorem nodup_bodyStart_iff_arrow :
    ∃ id g, functions arrowSource = [id, g] ∧ id.name = "id" ∧ g.name = "g" ∧
      '\x7b' ∉ upTo arrowSource id g ∧ id.bodyStart = g.bodyStart ∧
      ¬((functions arrowSource).map (·.bodyStart)).Nodup := by
  obtain ⟨id, hid⟩ : ∃ id : Function, id = ⟨"id", 1, 0, 33, arrowSource.drop 33⟩ := ⟨_, rfl⟩
  obtain ⟨g, hg⟩ : ∃ g : Function, g = ⟨"g", 2, 20, 33, arrowSource.drop 33⟩ := ⟨_, rfl⟩
  have hfunctions : functions arrowSource = [id, g] := by
    rw [hid, hg]
    decide +kernel
  have hnone : '\x7b' ∉ upTo arrowSource id g := by
    rw [hid, hg]
    decide +kernel
  obtain ⟨hnodup, hpairs⟩ := nodup_bodyStart_iff arrowSource
  rw [hfunctions] at hnodup hpairs ⊢
  have hsame : id.bodyStart = g.bodyStart :=
    ((List.pairwise_cons.mp hpairs).1 g (List.mem_singleton_self g)).1.mpr hnone
  refine ⟨id, g, rfl, by rw [hid], by rw [hg], hnone, hsame, fun hdifferent => ?_⟩
  exact hnone (List.isChain_pair.mp (hnodup.mp hdifferent))

-- on its own, it is not reported
example : functions "const id = (x) => x" = [] := by decide +kernel

end DebtSurvey.Code
