import DebtSurvey.Proofs.LineBreak
import DebtSurvey.Workspace.Source
import Mathlib.Tactic.Common

/-!
# The bytes behind a source text

A source text comes of its bytes by lenient decoding, and then by making every line end a newline.
Both go through their input piece by piece, and a piece gives one character at most. So wherever the
text is divided, the bytes can be. Decoding keeps the number of newlines, and unifying line ends adds
one for each carriage return that has no newline behind it; that is how lines of the text differ from
lines of the file as version control counts them.

## Main results

* `IsPiecewise.exists_split`: where the result of a piecewise reading is divided, its input can be.
* `Text.Utf8.count_decodeLenient`: decoding keeps the number of newlines.
* `Text.count_unifyNewlines`: unifying line ends adds the bare carriage returns.
* `Source.Place.count_above`: the newlines above a place of a source text.
-/

namespace DebtSurvey

/-- A reading that goes through a list piece by piece: each piece gives one item at most, whatever
part of the list behind it is there. -/
structure IsPiecewise {α β : Type} (read : List α → List β) : Prop where
  nil : read [] = []
  cons : ∀ a rest, ∃ piece behind out, a :: rest = piece ++ behind ∧ piece ≠ [] ∧
    out.length ≤ 1 ∧ ∀ s, s <+: behind → read (piece ++ s) = out ++ read s

/-- Where what is read piece by piece is divided, the list that it is read from can be. -/
theorem IsPiecewise.exists_split {α β : Type} {read : List α → List β} (h : IsPiecewise read)
    {items : List α} {s t : List β} (hread : read items = s ++ t) :
    ∃ before after, items = before ++ after ∧ read before = s ∧ read after = t := by
  by_cases hs : s = []
  · subst hs
    exact ⟨[], items, rfl, h.nil, hread⟩
  cases items with
  | nil => exact absurd (List.append_eq_nil_iff.mp (hread.symm.trans h.nil)).1 hs
  | cons a rest =>
    obtain ⟨piece, behind, out, hpiece, hne, hout, hstep⟩ := h.cons a rest
    rw [hpiece, hstep behind (List.prefix_refl behind)] at hread
    -- one item at most belongs to the first part, which has one
    obtain ⟨s, rfl⟩ : out <+: s := by
      have hlength : out.length ≤ s.length := hout.trans (List.length_pos_iff.mpr hs)
      exact List.prefix_of_prefix_length_le ⟨_, hread⟩ ⟨t, rfl⟩ hlength
    rw [List.append_assoc, List.append_cancel_left_eq] at hread
    have : behind.length < rest.length + 1 := by
      have := congrArg List.length hpiece
      have := List.length_pos_iff.mpr hne
      simp only [List.length_cons, List.length_append] at *
      omega
    obtain ⟨before, after, rfl, rfl, hafter⟩ := h.exists_split hread
    refine ⟨piece ++ before, after, ?_, ?_, hafter⟩
    · rw [hpiece, List.append_assoc]
    · rw [hstep before ⟨after, rfl⟩]
termination_by items.length

namespace Text.Utf8

/-! ### The front of some bytes -/

/-- How many bytes stand at the front. -/
def Front.width : Front → Nat
  | .char _ width => width
  | .broken width => width

/-- What is read of what stands at the front: broken pieces are dropped. -/
def Front.text : Front → Text
  | .char c _ => [c]
  | .broken _ => []

theorem one_le_width_front (b : UInt8) (rest : List UInt8) : 1 ≤ (front b rest).width := by
  fun_cases front b rest <;> simp [Front.width]

theorem width_front_le (b : UInt8) (rest : List UInt8) :
    (front b rest).width ≤ rest.length + 1 := by
  fun_cases front b rest <;> simp [Front.width]

/-- What stands at the front is decided by the bytes that it takes. -/
theorem front_of_prefix {b : UInt8} {s rest : List UInt8} (hs : s <+: rest)
    (hwidth : (front b rest).width ≤ s.length + 1) : front b s = front b rest := by
  obtain ⟨t, rfl⟩ := hs
  unfold front at hwidth ⊢
  -- a first byte says how many more may follow, and the beginning holds some of them
  split_ifs at hwidth ⊢ with hone htwo hthree hfour
  · rfl
  · rcases s with _ | ⟨c, s⟩
    · rcases t with _ | ⟨c, t⟩ <;> simp only [List.nil_append] at hwidth ⊢
      split_ifs at hwidth ⊢ <;> simp_all [Front.width]
    · rfl
  · rcases s with _ | ⟨c, _ | ⟨d, s⟩⟩
    · rcases t with _ | ⟨c, _ | ⟨d, t⟩⟩ <;> simp only [List.nil_append] at hwidth ⊢ <;>
        split_ifs at hwidth ⊢ <;> simp_all [Front.width]
    · rcases t with _ | ⟨d, t⟩ <;>
        simp only [List.nil_append, List.cons_append] at hwidth ⊢
      split_ifs at hwidth ⊢ <;> simp_all [Front.width]
    · rfl
  · rcases s with _ | ⟨c, _ | ⟨d, _ | ⟨e, s⟩⟩⟩
    · rcases t with _ | ⟨c, _ | ⟨d, _ | ⟨e, t⟩⟩⟩ <;> simp only [List.nil_append] at hwidth ⊢ <;>
        split_ifs at hwidth ⊢ <;> simp_all [Front.width]
    · rcases t with _ | ⟨d, _ | ⟨e, t⟩⟩ <;>
        simp only [List.nil_append, List.cons_append] at hwidth ⊢ <;>
        split_ifs at hwidth ⊢ <;> simp_all [Front.width]
    · rcases t with _ | ⟨e, t⟩ <;>
        simp only [List.nil_append, List.cons_append] at hwidth ⊢
      split_ifs at hwidth ⊢ <;> simp_all [Front.width]
    · rfl
  · rfl

theorem ofNat_ne_newline {n : Nat} (h : n ≠ 10) : Char.ofNat n ≠ '\n' := by
  intro hc
  by_cases hn : n.isValidChar
  · rw [Char.ofNat, dif_pos hn] at hc
    have hvalue : n = 10 := congrArg Char.toNat hc
    exact h hvalue
  · rw [Char.ofNat, dif_neg hn] at hc
    exact absurd hc (by decide)

theorem ne_newline_of_isContinuation {c : UInt8} (h : isContinuation c) : 0x0a ≠ c := by
  rintro rfl
  exact absurd h (by decide)

theorem ne_newline_of_isSecond {b c : UInt8} (h : isSecond b c) : 0x0a ≠ c := by
  rintro rfl
  exact absurd h (by simp [isSecond, isContinuation])

/-- After a first byte without payload the second byte has one, so that no form is longer than it
need be. -/
theorem payload_ne_zero_of_isSecond {b c : UInt8} (h : isSecond b c) (hb : b = 0xe0 ∨ b = 0xf0) :
    payload c ≠ 0 := by
  have hbounds : 144 ≤ c.toNat ∧ c.toNat < 192 := by
    rcases hb with rfl | rfl <;>
      simp [isSecond, isContinuation, UInt8.le_iff_toNat_le, UInt8.lt_iff_toNat_lt] at h <;> omega
  unfold payload
  omega

/-- What stands at the front is a newline or holds none. -/
theorem newline_front (b : UInt8) (rest : List UInt8) :
    (b = 0x0a ∧ front b rest = .char '\n' 1) ∨
      0x0a ∉ (b :: rest).take (front b rest).width ∧
        ∀ c width, front b rest = .char c width → c ≠ '\n' := by
  by_cases hb : b = 0x0a
  · exact .inl ⟨hb, by rw [hb]; rfl⟩
  have hsecond : ∀ {c}, isSecond b c → 0x0a ≠ c := ne_newline_of_isSecond
  have hlead {c : UInt8} (hc : isSecond b c) (n : Nat) (hn : n = 224 ∨ n = 240)
      (h : b.toNat = n) : payload c ≠ 0 := by
    refine payload_ne_zero_of_isSecond hc ?_
    rcases hn with rfl | rfl
    · exact .inl (UInt8.toNat_inj.mp h)
    · exact .inr (UInt8.toNat_inj.mp h)
  refine .inr ⟨?_, fun c width => ?_⟩
  · have hfirst : 0x0a ≠ b := Ne.symm hb
    fun_cases front b rest <;> simp_all [Front.width, ne_newline_of_isContinuation]
  · fun_cases front b rest with
    | case1 hone =>
      rintro ⟨⟩
      exact ofNat_ne_newline fun h => hb (UInt8.toNat_inj.mp h)
    | case2 hone htwo c rest hc =>
      rintro ⟨⟩
      have hbounds : 194 ≤ b.toNat ∧ b.toNat < 224 := by
        simpa [UInt8.le_iff_toNat_le, UInt8.lt_iff_toNat_lt] using htwo
      exact ofNat_ne_newline (by omega)
    | case6 hone htwo hthree c d rest hc hd =>
      rintro ⟨⟩
      have hbounds : 224 ≤ b.toNat ∧ b.toNat < 240 := by
        simpa [UInt8.le_iff_toNat_le, UInt8.lt_iff_toNat_lt] using hthree
      have hpayload := hlead (by simpa using hc) 224 (.inl rfl)
      exact ofNat_ne_newline (by omega)
    | case13 hone htwo hthree hfour c d e rest hc hd he =>
      rintro ⟨⟩
      have hbounds : 240 ≤ b.toNat ∧ b.toNat < 245 := by
        simpa [UInt8.le_iff_toNat_le, UInt8.lt_iff_toNat_lt] using hfour
      have hpayload := hlead (by simpa using hc) 240 (.inr rfl)
      exact ofNat_ne_newline (by omega)
    | _ =>
      intro hbroken
      cases hbroken

/-! ### Lenient reading -/

@[simp]
theorem decodeLenient_nil : decodeLenient [] = [] := by rw [decodeLenient]

/-- Reading goes on behind what stands at the front. -/
theorem decodeLenient_cons (b : UInt8) (rest : List UInt8) :
    decodeLenient (b :: rest) =
      (front b rest).text ++ decodeLenient (rest.drop ((front b rest).width - 1)) := by
  rw [decodeLenient]
  cases front b rest <;> rfl

/-- What holds of no bytes, and of bytes when it holds of those behind their front, holds of all. -/
theorem front_induction {p : List UInt8 → Prop} (nil : p [])
    (cons : ∀ b rest, p (rest.drop ((front b rest).width - 1)) → p (b :: rest))
    (bytes : List UInt8) : p bytes := by
  induction bytes using decodeLenient.induct with
  | case1 => exact nil
  | case2 b rest c width hfront ih =>
    refine cons b rest ?_
    rwa [hfront]
  | case3 b rest width hfront ih =>
    refine cons b rest ?_
    rwa [hfront]

/-- What is read of the front has as many newlines as its bytes. -/
theorem count_front (b : UInt8) (rest : List UInt8) :
    (front b rest).text.count '\n' =
      (b :: rest.take ((front b rest).width - 1)).count 0x0a := by
  rcases newline_front b rest with ⟨rfl, hfront⟩ | ⟨hbytes, hchar⟩
  · rw [hfront]
    rfl
  · obtain ⟨width, hwidth⟩ : ∃ width, (front b rest).width = width + 1 :=
      Nat.exists_eq_add_of_le' (one_le_width_front b rest)
    rw [hwidth, List.take_succ_cons] at hbytes
    rw [hwidth, Nat.add_sub_cancel, List.count_eq_zero.mpr hbytes, List.count_eq_zero]
    cases hfront : front b rest with
    | char c width => exact List.mem_singleton.not.mpr (hchar c width hfront).symm
    | broken width => exact List.not_mem_nil

/-- Reading neither adds a newline nor drops one. -/
theorem count_decodeLenient (bytes : List UInt8) :
    (decodeLenient bytes).count '\n' = bytes.count 0x0a := by
  induction bytes using front_induction with
  | nil => rw [decodeLenient_nil, List.count_nil, List.count_nil]
  | cons b rest ih =>
    rw [decodeLenient_cons, List.count_append, ih, count_front, ← List.count_append,
      List.cons_append, List.take_append_drop]

/-- With other bytes behind it the front is read as before. -/
theorem decodeLenient_front_append (b : UInt8) {rest s : List UInt8}
    (hs : s <+: rest.drop ((front b rest).width - 1)) :
    decodeLenient (b :: (rest.take ((front b rest).width - 1) ++ s)) =
      (front b rest).text ++ decodeLenient s := by
  have hprefix : rest.take ((front b rest).width - 1) ++ s <+: rest := by
    have h := (List.prefix_append_right_inj (rest.take ((front b rest).width - 1))).mpr hs
    rwa [List.take_append_drop] at h
  have hlength : (rest.take ((front b rest).width - 1)).length = (front b rest).width - 1 := by
    rw [List.length_take]
    have := width_front_le b rest
    omega
  have hfront : front b (rest.take ((front b rest).width - 1) ++ s) = front b rest := by
    refine front_of_prefix hprefix ?_
    rw [List.length_append, hlength]
    omega
  rw [decodeLenient_cons, hfront, List.drop_append_of_le_length hlength.ge,
    List.drop_of_length_le hlength.le, List.nil_append]

/-- Lenient reading goes from front to front. -/
theorem isPiecewise_decodeLenient : IsPiecewise decodeLenient where
  nil := decodeLenient_nil
  cons b rest := by
    refine ⟨b :: rest.take ((front b rest).width - 1), rest.drop ((front b rest).width - 1),
      (front b rest).text, ?_, List.cons_ne_nil _ _, ?_, fun s hs => decodeLenient_front_append b hs⟩
    · rw [List.cons_append, List.take_append_drop]
    · cases front b rest <;> simp [Front.text]

end Text.Utf8

namespace Text

/-! ### Unified line ends -/

/-- How many carriage returns of a text have no newline behind them. -/
def bareReturns : Text → Nat
  | [] => 0
  | '\r' :: '\n' :: rest => bareReturns rest
  | '\r' :: rest => bareReturns rest + 1
  | _ :: rest => bareReturns rest

/-- Every carriage return without a newline behind it becomes one more newline. -/
theorem count_unifyNewlines (t : Text) :
    (unifyNewlines t).count '\n' = t.count '\n' + bareReturns t := by
  fun_induction unifyNewlines t with
  | case1 => rfl
  | case2 rest ih =>
    rw [bareReturns]
    simp [ih]
    omega
  | case3 rest hrest ih =>
    rw [bareReturns]
    · simp [ih]
      omega
    · exact hrest
  | case4 c rest hpair hreturn ih =>
    rw [bareReturns]
    · simp only [List.count_cons, ih]
      omega
    · exact hpair
    · exact hreturn

/-- Line ends are unified one after the other. -/
theorem isPiecewise_unifyNewlines : IsPiecewise unifyNewlines where
  nil := rfl
  cons c rest := by
    by_cases hc : c = '\r'
    · subst hc
      by_cases hrest : ∃ behind, rest = '\n' :: behind
      · -- a carriage return and a newline are one piece
        obtain ⟨behind, rfl⟩ := hrest
        exact ⟨['\r', '\n'], behind, ['\n'], rfl, by simp, Nat.le_refl 1, fun s _ => rfl⟩
      · refine ⟨['\r'], rest, ['\n'], rfl, by simp, Nat.le_refl 1, ?_⟩
        rintro s ⟨t, rfl⟩
        rw [List.singleton_append, unifyNewlines]
        · rfl
        · rintro behind rfl
          exact hrest ⟨behind ++ t, rfl⟩
    · refine ⟨[c], rest, [c], rfl, by simp, Nat.le_refl 1, fun s _ => ?_⟩
      rw [List.singleton_append, unifyNewlines]
      · rfl
      · exact fun behind hreturn => absurd hreturn hc
      · exact hc

end Text

namespace Source

/-- A place in a source file: its bytes in two parts, such that the text of the file is that of one
part and then that of the other. -/
structure Place (bytes : List UInt8) (above below : Text) where
  /-- The bytes in front of the place. -/
  before : List UInt8
  /-- The bytes behind the place. -/
  after : List UInt8
  bytes_eq : bytes = before ++ after
  above_eq : ofBytes before = above
  below_eq : ofBytes after = below

/-- Wherever the text of a file is divided, there is a place in the file. -/
theorem nonempty_place {bytes : List UInt8} {above below : Text}
    (h : ofBytes bytes = above ++ below) : Nonempty (Place bytes above below) := by
  obtain ⟨decoded, behind, hdecoded, habove, hbelow⟩ :=
    Text.isPiecewise_unifyNewlines.exists_split h
  obtain ⟨before, after, rfl, rfl, rfl⟩ :=
    Text.Utf8.isPiecewise_decodeLenient.exists_split hdecoded
  exact ⟨before, after, rfl, habove, hbelow⟩

namespace Place

variable {bytes : List UInt8} {above below : Text} (p : Place bytes above below)

/-- The line of a place in its file, counted from one, as version control counts lines: the newline
alone ends them. -/
def line : Nat := p.before.count 0x0a + 1

/-- How many carriage returns without a newline behind them are in front of a place. -/
def bareReturns : Nat := Text.bareReturns (Text.Utf8.decodeLenient p.before)

/-- The line of a place in the source text is the line in the file, if bare carriage returns are
taken for line ends as well. -/
theorem count_above : above.count '\n' + 1 = p.line + p.bareReturns := by
  have habove : above.count '\n' = p.before.count 0x0a + p.bareReturns := by
    rw [bareReturns, ← Text.Utf8.count_decodeLenient, ← Text.count_unifyNewlines]
    exact congrArg (List.count '\n') p.above_eq.symm
  rw [habove, line]
  omega

end Place

end Source

end DebtSurvey
