import DebtSurvey.Proofs.OneLine
import DebtSurvey.Proofs.Pieces
import DebtSurvey.Proofs.SharedBody
import Mathlib.Data.List.Infix

/-!
# Declarations

A declaration is the word `function` with a name, parameters and a block. It is the first function
that is found in its text, on the first line and under its name, if that is made of word characters.
No function is found under any other name.

The block is its body if no brace is opened among the parameters. Otherwise the body starts at the
first brace there, since the head of a declaration ends with its name. What is found then reads as the
block only where the parameters hold the very text of it, from that brace on.

## Main results

* `Code.closeBody_append_of_isBlock`: a block is closed by its last character, whatever follows.
* `Code.closeBody_eq_iff`: when the body that starts among the parameters reads as the block.
* `Code.declared_first_iff`: when a declaration is found with its name and its block.
-/

namespace DebtSurvey

namespace Text

/-- A blank is not a word character. -/
theorem not_isWord_of_isBlank {c : Char} (h : isBlank c) : ¬isWord c := by
  have hcode : c.toNat ∈ List.range' 9 5 ++ List.range' 28 5 ++ List.range' 0x2000 11 ++
      [0x85, 0xa0, 0x1680, 0x2028, 0x2029, 0x202f, 0x205f, 0x3000] := by
    simp only [isBlank, Bool.or_eq_true, Bool.and_eq_true, decide_eq_true_eq, beq_iff_eq] at h
    simp only [List.mem_append, List.mem_range'_1, List.mem_cons, List.not_mem_nil, or_false]
    omega
  have hnone : ∀ n ∈ List.range' 9 5 ++ List.range' 28 5 ++ List.range' 0x2000 11 ++
      [0x85, 0xa0, 0x1680, 0x2028, 0x2029, 0x202f, 0x205f, 0x3000], ¬isWord (Char.ofNat n) := by
    decide +kernel
  rw [← Char.ofNat_toNat c]
  exact hnone _ hcode

end Text

namespace Code

/-! ### Blocks -/

/-- A block starts with an opening brace and is closed by its last character, and not before. -/
structure IsBlock (t : Text) : Prop where
  opening : t.head? = some '\x7b'
  closed : IsClosed t
  prefixes : ∀ front, front <+: t → front ≠ [] → front ≠ t → IsOpen front

instance (t : Text) : Decidable (IsBlock t) :=
  decidable_of_iff (t.head? = some '\x7b' ∧ IsClosed t ∧
      ∀ front ∈ t.inits, front ≠ [] → front ≠ t → IsOpen front)
    ⟨fun ⟨hopening, hclosed, hprefixes⟩ =>
      ⟨hopening, hclosed, fun front hfront => hprefixes front ((List.mem_inits _ _).mpr hfront)⟩,
    fun ⟨hopening, hclosed, hprefixes⟩ =>
      ⟨hopening, hclosed, fun front hfront => hprefixes front ((List.mem_inits _ _).mp hfront)⟩⟩

theorem IsClosed.not_isOpen {t : Text} (h : IsClosed t) : ¬IsOpen t := fun hopen =>
  absurd h.1 (Nat.ne_of_lt hopen)

/-- What is in front of two texts is in front of the first, or it is the first and what is in front
of the second. -/
theorem prefix_append_cases {front s t : Text} (h : front <+: s ++ t) :
    front <+: s ∨ ∃ behind, front = s ++ behind ∧ behind <+: t := by
  rcases List.prefix_or_prefix_of_prefix h (List.prefix_append s t) with hshort | ⟨behind, rfl⟩
  · exact .inl hshort
  · exact .inr ⟨behind, rfl, (List.prefix_append_right_inj s).mp h⟩

section Block

variable {inner after : Text} (h : IsBlock ('\x7b' :: inner))

include h

/-- A block is closed by its last character, whatever follows. -/
theorem closeBody_append_of_isBlock : closeBody 1 (inner ++ after) = inner := by
  have hbody : closeBody 1 (inner ++ after) <+: inner ++ after := closeBody_prefix_text _ _
  -- the body and the inside of the block start at the same place, so one is in front of the other
  rcases List.prefix_or_prefix_of_prefix hbody (List.prefix_append inner after) with hshort | hlong
  · by_contra hne
    have hopen : IsOpen ('\x7b' :: closeBody 1 (inner ++ after)) := by
      apply h.prefixes
      · exact (List.prefix_cons_inj _).mpr hshort
      · exact List.cons_ne_nil _ _
      · exact fun heq => hne (List.cons.inj heq).2
    rcases isClosed_or_isOpen (inner ++ after) with hclosed | ⟨-, hall⟩
    · exact hclosed.not_isOpen hopen
    · rw [hall] at hshort hne
      exact hne (hshort.eq_of_length_le (by simp))
  · by_contra hne
    have hopen : IsOpen ('\x7b' :: inner) := by
      apply isOpen_of_prefix_body ((List.prefix_cons_inj _).mpr hlong) (List.cons_ne_nil _ _)
      exact fun heq => hne (List.cons.inj heq).2.symm
    exact h.closed.not_isOpen hopen

/-- A block behind a text without closing braces, as far as it is read, closes no more braces than
it opens. -/
theorem count_le_of_prefix {gap front : Text} (hgap : '\x7d' ∉ gap)
    (hfront : front <+: gap ++ '\x7b' :: inner) : front.count '\x7d' ≤ front.count '\x7b' := by
  rcases prefix_append_cases hfront with hshort | ⟨read, rfl, hread⟩
  · rw [List.count_eq_zero.mpr fun hmem => hgap (hshort.subset hmem)]
    exact Nat.zero_le _
  · have hle : read.count '\x7d' ≤ read.count '\x7b' := by
      by_cases hnil : read = []
      · rw [hnil]
        exact Nat.le_refl _
      by_cases hall : read = '\x7b' :: inner
      · rw [hall]
        exact h.closed.1.le
      · exact (h.prefixes read hread hnil hall).le
    rw [List.count_append, List.count_append, List.count_eq_zero.mpr hgap, Nat.zero_add]
    exact hle.trans (Nat.le_add_left _ _)

/-- The body that starts before a block reads as the block if and only if it is over before it. -/
theorem closeBody_eq_iff {rest gap : Text} (hgap : '\x7d' ∉ gap) :
    closeBody 1 (rest ++ (gap ++ '\x7b' :: inner)) = inner ↔ inner <+: rest := by
  constructor
  · intro hbody
    have hinner : inner <+: rest ++ (gap ++ '\x7b' :: inner) := by
      conv_lhs => rw [← hbody]
      exact closeBody_prefix_text _ _
    rcases prefix_append_cases hinner with hin | ⟨behind, hout, hbehind⟩
    · exact hin
    · -- what is read behind the rest cannot close the braces that are open there
      by_contra hne
      have hcount := count_le_of_prefix h hgap hbehind
      have hopen : IsOpen ('\x7b' :: rest) := by
        apply h.prefixes
        · exact (List.prefix_cons_inj _).mpr ⟨behind, hout.symm⟩
        · exact List.cons_ne_nil _ _
        · intro heq
          exact hne ((List.cons.inj heq).2 ▸ List.prefix_rfl)
      have hclosed := h.closed.1
      rw [hout, ← List.cons_append, List.count_append, List.count_append] at hclosed
      exact absurd hclosed (Nat.ne_of_lt (Nat.add_lt_add_of_lt_of_le hopen hcount))
  · rintro ⟨behind, rfl⟩
    rw [List.append_assoc]
    exact closeBody_append_of_isBlock h

end Block

/-! ### The first function of a text -/

/-- The body that is looked for in a text starts at its first opening brace. -/
theorem takeBody?_append_cons {before : Text} (h : '\x7b' ∉ before) (rest : Text) :
    takeBody? (before ++ '\x7b' :: rest) = some (before.length, '\x7b' :: closeBody 1 rest) := by
  have hall : ∀ c ∈ before, decide (c ≠ '\x7b') = true := by
    intro c hc
    apply decide_eq_true
    rintro rfl
    exact h hc
  rw [takeBody?, Text.takeWhile_append_cons, Text.takeWhile_of_notMem h,
    List.dropWhile_append_of_pos hall, List.dropWhile_cons_of_neg (by simp)]

/-- A head and a body that are found in a text from its start make the first function. -/
theorem head?_functions {source name after body : Text} {gap : Nat}
    (hhead : takeHead? source = some (name, after)) (hbody : takeBody? source = some (gap, body)) :
    (functions source).head? = some ⟨name, 1, 0, gap, body⟩ := by
  cases source with
  | nil => cases hbody
  | cons c rest =>
    rw [functions, functionsFrom, hhead, hbody]
    simp

/-! ### Declarations -/

/-- The text of a declaration. -/
def declaration (name params block : Text) : Text :=
  "function " ++ name ++ "(" ++ params ++ ") " ++ block

/-- What a declaration reads up to the name and the parenthesis behind it. -/
def declarationHead (name : Text) : Text := "function " ++ name ++ "("

section Declaration

variable {name : Text} (hname : name ≠ []) (hword : ∀ c ∈ name, Text.isWord c)

include hword

theorem opening_notMem_declarationHead : '\x7b' ∉ declarationHead name := by
  have hbrace : '\x7b' ∉ name := fun hmem => absurd (hword _ hmem) (by decide)
  have hwords : '\x7b' ∉ Text.ofString "function " ∧ '\x7b' ∉ Text.ofString "(" := by decide
  rw [declarationHead, List.mem_append, List.mem_append]
  rintro ((hfirst | hmem) | hlast)
  · exact hwords.1 hfirst
  · exact hbrace hmem
  · exact hwords.2 hlast

include hname

/-- A name of word characters is taken as a whole, up to the parenthesis behind it. -/
theorem takeName?_append (rest : Text) :
    takeName? (name ++ '(' :: rest) = some (name, '(' :: rest) := by
  have hend : Text.isWord '(' = false := by decide
  rw [takeName?, List.takeWhile_append_of_pos hword, List.dropWhile_append_of_pos hword,
    List.takeWhile_cons_of_neg (by simp [hend]), List.dropWhile_cons_of_neg (by simp [hend]),
    List.append_nil]
  simp [hname]

/-- The head of a declaration ends with its name. -/
theorem takeHead?_declaration (params block : Text) : takeHead? (declaration name params block) =
    some (name, '(' :: (params ++ (") " ++ block))) := by
  have htext : declaration name params block =
      "function" ++ ' ' :: (name ++ '(' :: (params ++ (") " ++ block))) := by
    simp [declaration, Text.ofString]
  have hgap (rest : Text) : skipGap? (' ' :: (name ++ rest)) = some (name ++ rest) := by
    obtain ⟨c, more, rfl⟩ := List.exists_cons_of_ne_nil hname
    have hblank : ¬Text.isBlank c := fun h =>
      Text.not_isWord_of_isBlank h (hword c List.mem_cons_self)
    rw [skipGap?, if_pos (by decide), skipBlanks, List.cons_append,
      List.dropWhile_cons_of_neg hblank]
  apply takeHead?_eq_some_iff.mpr
  left
  rw [declaredHead?, takeWord?_eq_some_iff.mpr htext]
  simp only [Option.bind_eq_bind, Option.bind_some, hgap]
  exact takeName?_append hname hword _

/-- The first function of a declaration is found at its start, and has the body that starts at the
first brace behind the name. -/
theorem head?_functions_declaration {params block before rest : Text} (hbefore : '\x7b' ∉ before)
    (hsplit : params ++ (") " ++ block) = before ++ '\x7b' :: rest) :
    (functions (declaration name params block)).head? =
      some ⟨name, 1, 0, (declarationHead name ++ before).length, '\x7b' :: closeBody 1 rest⟩ := by
  have htext : declaration name params block =
      (declarationHead name ++ before) ++ '\x7b' :: rest := by
    rw [List.append_assoc, ← hsplit]
    simp [declaration, declarationHead]
  have hnone : '\x7b' ∉ declarationHead name ++ before := by
    rw [List.mem_append]
    rintro (hhead | hmem)
    · exact opening_notMem_declarationHead hword hhead
    · exact hbefore hmem
  apply head?_functions (takeHead?_declaration hname hword params block)
  rw [htext]
  exact takeBody?_append_cons hnone rest

end Declaration

/-- A brace is the first one of a text at one place only. -/
theorem eq_of_first_opening {before front rest behind : Text} (hbefore : '\x7b' ∉ before)
    (hfront : '\x7b' ∉ front) (h : before ++ '\x7b' :: rest = front ++ '\x7b' :: behind) :
    rest = behind := by
  have hsame := congrArg (List.takeWhile (· ≠ '\x7b')) h
  rw [Text.takeWhile_append_cons, Text.takeWhile_append_cons, Text.takeWhile_of_notMem hbefore,
    Text.takeWhile_of_notMem hfront] at hsame
  rw [hsame] at h
  exact (List.cons.inj (List.append_cancel_left h)).2

/-- The body that starts at the first brace of some parameters reads as the block behind them if and
only if they hold the text of the block, from that brace on. -/
theorem closeBody_eq_iff_exists {inner before rest : Text} (hblock : IsBlock ('\x7b' :: inner))
    (hbefore : '\x7b' ∉ before) :
    closeBody 1 (rest ++ (") " ++ '\x7b' :: inner)) = inner ↔
      ∃ front after, '\x7b' ∉ front ∧
        before ++ '\x7b' :: rest = front ++ '\x7b' :: inner ++ after := by
  have hgap : '\x7d' ∉ Text.ofString ") " := by decide
  rw [closeBody_eq_iff hblock hgap]
  constructor
  · rintro ⟨after, rfl⟩
    exact ⟨before, after, hbefore, by simp⟩
  · rintro ⟨front, after, hfront, hsame⟩
    rw [List.append_assoc, List.cons_append] at hsame
    exact ⟨after, (eq_of_first_opening hbefore hfront hsame).symm⟩

/-- Under a name of word characters, the first function is the declaration. -/
theorem exists_first {name inner : Text} (params : Text) (hname : name ≠ [])
    (hword : ∀ c ∈ name, Text.isWord c) (hblock : IsBlock ('\x7b' :: inner)) :
    ∃ start body, (functions (declaration name params ('\x7b' :: inner))).head? =
        some ⟨name, 1, 0, start, body⟩ ∧
      (start = (declaration name params []).length ↔ '\x7b' ∉ params) ∧
      (body = '\x7b' :: inner ↔ '\x7b' ∉ params ∨
        ∃ before after, '\x7b' ∉ before ∧ params = before ++ '\x7b' :: inner ++ after) := by
  have hlength : (declaration name params []).length =
      (declarationHead name ++ (params ++ ") ")).length := by
    simp [declaration, declarationHead]
  by_cases hparams : '\x7b' ∈ params
  · obtain ⟨before, rest, rfl, hbefore⟩ := List.eq_append_cons_of_mem hparams
    have hsplit : before ++ '\x7b' :: rest ++ (") " ++ '\x7b' :: inner) =
        before ++ '\x7b' :: (rest ++ (") " ++ '\x7b' :: inner)) := by simp
    refine ⟨_, _, head?_functions_declaration hname hword hbefore hsplit, ?_, ?_⟩
    · rw [hlength]
      simp only [List.length_append, List.length_cons]
      exact ⟨fun hstart => by omega, fun hnone => absurd hparams hnone⟩
    · rw [List.cons_inj_right, closeBody_eq_iff_exists hblock hbefore]
      exact (or_iff_right (not_not.mpr hparams)).symm
  · have hbefore : '\x7b' ∉ params ++ Text.ofString ") " := by
      rw [List.mem_append]
      exact fun h => h.elim hparams (by decide)
    have hsplit : params ++ (") " ++ '\x7b' :: inner) = params ++ ") " ++ '\x7b' :: inner :=
      (List.append_assoc _ _ _).symm
    have hbody : closeBody 1 inner = inner := by
      have happend : closeBody 1 (inner ++ []) = inner := closeBody_append_of_isBlock hblock
      rwa [List.append_nil] at happend
    refine ⟨_, _, head?_functions_declaration hname hword hbefore hsplit, ?_, ?_⟩
    · exact iff_of_true hlength.symm hparams
    · rw [hbody]
      exact iff_of_true rfl (.inl hparams)

/-- The first function of a declaration has its name and its block, and is on the first line, if and
only if the name is made of word characters, and either no brace is opened among the parameters or
the text of the block stands there, from the first brace on. Under a name of word characters, the
first function is the declaration, and its body starts where the block does if and only if no brace
is opened among the parameters. -/
theorem declared_first_iff {name block : Text} (params : Text) (hname : name ≠ [])
    (hblock : IsBlock block) :
    ((∃ f, (functions (declaration name params block)).head? = some f ∧ f.name = name ∧ f.line = 1 ∧
        f.body = block) ↔
      (∀ c ∈ name, Text.isWord c) ∧ ('\x7b' ∉ params ∨
        ∃ before after, '\x7b' ∉ before ∧ params = before ++ block ++ after)) ∧
    ((∀ c ∈ name, Text.isWord c) →
      ∃ f, (functions (declaration name params block)).head? = some f ∧ f.name = name ∧ f.line = 1 ∧
        f.headStart = 0 ∧ (f.bodyStart = (declaration name params []).length ↔ '\x7b' ∉ params)) := by
  obtain ⟨inner, rfl⟩ : ∃ inner, block = '\x7b' :: inner := by
    obtain ⟨rest, hrest⟩ := List.head?_eq_some_iff.mp hblock.opening
    exact ⟨rest, hrest⟩
  constructor
  · constructor
    · rintro ⟨f, hfirst, rfl, -, hbody⟩
      -- the name was read from the text, where it is made of word characters
      have hword : ∀ c ∈ f.name, Text.isWord c := by
        obtain ⟨-, after, hhead⟩ := head_of_mem (List.mem_of_mem_head? hfirst)
        exact isWord_of_takeHead? hhead
      refine ⟨hword, ?_⟩
      obtain ⟨start, body, hfound, -, hbodyIff⟩ := exists_first params hname hword hblock
      rw [hfirst] at hfound
      apply hbodyIff.mp
      rw [← hbody, Option.some.inj hfound]
    · rintro ⟨hword, hparams⟩
      obtain ⟨start, body, hfound, -, hbody⟩ := exists_first params hname hword hblock
      exact ⟨_, hfound, rfl, rfl, hbody.mpr hparams⟩
  · intro hword
    obtain ⟨start, body, hfound, hstart, -⟩ := exists_first params hname hword hblock
    exact ⟨_, hfound, rfl, rfl, rfl, hstart⟩

/-- A parameter that is taken apart by its fields, in braces. -/
theorem declared_first_iff_fields :
    let name : Text := "f"
    let params : Text := "\x7ba\x7d"
    let block : Text := "\x7b return a \x7d"
    IsBlock block ∧ (functions (declaration name params block)).head? =
        some ⟨name, 1, 0, 11, "\x7ba\x7d"⟩ ∧
      ¬(∃ f, (functions (declaration name params block)).head? = some f ∧ f.name = name ∧
        f.line = 1 ∧ f.body = block) ∧
      ∃ f, (functions (declaration name params block)).head? = some f ∧ f.name = name ∧
        f.line = 1 ∧ f.headStart = 0 ∧ f.bodyStart ≠ (declaration name params []).length := by
  intro name params block
  have hname : name ≠ [] := by decide
  have hword : ∀ c ∈ name, Text.isWord c := List.all_eq_true.mp (by decide)
  have hblock : IsBlock block := by decide +kernel
  have hfirst : (functions (declaration name params block)).head? =
      some ⟨name, 1, 0, 11, "\x7ba\x7d"⟩ := by decide +kernel
  obtain ⟨hiff, hdeclared⟩ := declared_first_iff params hname hblock
  obtain ⟨f, hfound, hf, hline, hhead, hstart⟩ := hdeclared hword
  have hbrace : '\x7b' ∈ params := by decide
  refine ⟨hblock, hfirst, fun h => ?_, f, hfound, hf, hline, hhead, fun h => hstart.mp h hbrace⟩
  rcases (hiff.mp h).2 with hnone | ⟨before, after, -, hsame⟩
  · exact hnone hbrace
  · -- the block is longer than the parameters
    have hlength := congrArg List.length hsame
    rw [List.length_append, List.length_append] at hlength
    have hsizes : params.length = 3 ∧ block.length = 12 := by decide
    omega

end Code

end DebtSurvey
