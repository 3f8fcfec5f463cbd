import DebtSurvey.Proofs.SourceText
import DebtSurvey.Workspace.Discovery

/-!
# Carriage returns in front of newlines

The lines of a file may end in a newline alone, or in a carriage return and a newline. Putting a
carriage return in front of every newline moves all bytes behind, but none between those of one
character: bytes that continue a character are no newlines. So the text is read as before, with
carriage returns in the same places, and unifying line ends takes them out again, before anything
else looks at the text.

## Main results

* `Text.Utf8.decodeLenient_withReturns`, `Text.Utf8.decode?_withReturns`: both ways of reading bytes
  give the text with carriage returns in front of its newlines.
* `Source.ofBytes_withReturns`: a source text is the same with carriage returns.
* `Workspace.unified_withReturns`: so is the text of an ignore file.
-/

namespace DebtSurvey

/-- Items with one more in front of each that is marked. -/
def insertBefore {α : Type} [DecidableEq α] (extra mark : α) : List α → List α
  | [] => []
  | a :: rest =>
    if a = mark then extra :: a :: insertBefore extra mark rest
    else a :: insertBefore extra mark rest

section InsertBefore

variable {α : Type} [DecidableEq α] {extra mark : α}

@[simp]
theorem insertBefore_cons_self (rest : List α) :
    insertBefore extra mark (mark :: rest) = extra :: mark :: insertBefore extra mark rest :=
  if_pos rfl

theorem insertBefore_cons_of_ne {a : α} (h : a ≠ mark) (rest : List α) :
    insertBefore extra mark (a :: rest) = a :: insertBefore extra mark rest :=
  if_neg h

/-- Without marked items nothing is inserted. -/
theorem insertBefore_append_of_notMem {items : List α} (h : mark ∉ items) (rest : List α) :
    insertBefore extra mark (items ++ rest) = items ++ insertBefore extra mark rest := by
  induction items with
  | nil => rfl
  | cons a items ih =>
    obtain ⟨ha, hitems⟩ := List.ne_and_not_mem_of_not_mem_cons h
    rw [List.cons_append, insertBefore_cons_of_ne (Ne.symm ha), ih hitems, List.cons_append]

/-- As long as no item is marked, as many can be dropped before or after. -/
theorem drop_insertBefore {n : Nat} {items : List α} (h : mark ∉ items.take n) :
    (insertBefore extra mark items).drop n = insertBefore extra mark (items.drop n) := by
  induction n generalizing items with
  | zero => rfl
  | succ n ih =>
    cases items with
    | nil => rfl
    | cons a rest =>
      rw [List.take_succ_cons] at h
      obtain ⟨ha, hrest⟩ := List.ne_and_not_mem_of_not_mem_cons h
      rw [insertBefore_cons_of_ne (Ne.symm ha), List.drop_succ_cons, List.drop_succ_cons, ih hrest]

/-- A first run of items that holds neither kind stays what it is. -/
theorem takeWhile_insertBefore {p : α → Bool} (hextra : ¬p extra) (hmark : ¬p mark)
    (items : List α) : (insertBefore extra mark items).takeWhile p = items.takeWhile p := by
  induction items with
  | nil => rfl
  | cons a rest ih =>
    by_cases ha : a = mark
    · subst ha
      rw [insertBefore_cons_self, List.takeWhile_cons_of_neg hextra,
        List.takeWhile_cons_of_neg hmark]
    · rw [insertBefore_cons_of_ne ha, List.takeWhile_cons, List.takeWhile_cons, ih]

end InsertBefore

namespace Text

/-- A text with a carriage return in front of every newline. -/
def withReturns (t : Text) : Text := insertBefore '\r' '\n' t

/-- A character that is no carriage return stays when line ends are unified. -/
theorem unifyNewlines_cons {c : Char} (h : c ≠ '\r') (rest : Text) :
    unifyNewlines (c :: rest) = c :: unifyNewlines rest := by
  rw [unifyNewlines]
  · exact fun _ hreturn => absurd hreturn h
  · exact h

/-- Without carriage returns all line ends are newlines. -/
theorem unifyNewlines_of_notMem {t : Text} (h : '\r' ∉ t) : unifyNewlines t = t := by
  induction t with
  | nil => rfl
  | cons c rest ih =>
    obtain ⟨hc, hrest⟩ := List.ne_and_not_mem_of_not_mem_cons h
    rw [unifyNewlines_cons (Ne.symm hc), ih hrest]

/-- Unifying line ends takes out the carriage returns that were put in. -/
theorem unifyNewlines_withReturns {t : Text} (h : '\r' ∉ t) :
    unifyNewlines (withReturns t) = t := by
  induction t with
  | nil => rfl
  | cons c rest ih =>
    obtain ⟨hc, hrest⟩ := List.ne_and_not_mem_of_not_mem_cons h
    by_cases hnewline : c = '\n'
    · subst hnewline
      exact congrArg ('\n' :: ·) (ih hrest)
    · rw [withReturns, insertBefore_cons_of_ne hnewline, unifyNewlines_cons (Ne.symm hc)]
      exact congrArg (c :: ·) (ih hrest)

namespace Utf8

/-- Bytes with a carriage return in front of every newline. -/
def withReturns (bytes : List UInt8) : List UInt8 := insertBefore 0x0d 0x0a bytes

/-- All bytes of the front but the first continue a character. -/
theorem width_front_le_takeWhile (b : UInt8) (rest : List UInt8) :
    (front b rest).width ≤ (rest.takeWhile isContinuation).length + 1 := by
  have hsecond {c : UInt8} (h : isSecond b c) : isContinuation c := by
    simp only [isSecond, Bool.and_eq_true] at h
    exact h.1.1.1.1
  fun_cases front b rest <;> simp_all [Front.width]

/-- What stands at the front is decided by the bytes that continue a character. -/
theorem front_takeWhile (b : UInt8) (rest : List UInt8) :
    front b (rest.takeWhile isContinuation) = front b rest :=
  front_of_prefix (List.takeWhile_prefix _) (width_front_le_takeWhile b rest)

/-- With carriage returns in the bytes behind it the front is the same. -/
theorem front_withReturns (b : UInt8) (rest : List UInt8) :
    front b (withReturns rest) = front b rest := by
  rw [← front_takeWhile, withReturns, takeWhile_insertBefore (by decide) (by decide),
    front_takeWhile]

/-- What holds of no bytes holds of all, if it goes on from what follows a newline to the newline
with it, and from what follows any other front, with carriage returns or without, to that front with
it. -/
theorem withReturns_induction {p : List UInt8 → List UInt8 → Prop} (nil : p [] [])
    (newline : ∀ rest rest', p rest rest' → p (0x0a :: rest) (0x0d :: 0x0a :: rest'))
    (other : ∀ b rest rest', front b rest' = front b rest → '\n' ∉ (front b rest).text →
      p (rest.drop ((front b rest).width - 1)) (rest'.drop ((front b rest).width - 1)) →
        p (b :: rest) (b :: rest'))
    (bytes : List UInt8) : p bytes (withReturns bytes) := by
  induction bytes using front_induction with
  | nil => exact nil
  | cons b rest ih =>
    rcases newline_front b rest with ⟨rfl, hfront⟩ | ⟨hbytes, hchar⟩
    · rw [hfront] at ih
      exact newline rest _ ih
    · obtain ⟨width, hwidth⟩ : ∃ width, (front b rest).width = width + 1 :=
        Nat.exists_eq_add_of_le' (one_le_width_front b rest)
      rw [hwidth, List.take_succ_cons] at hbytes
      obtain ⟨hb, hrest⟩ := List.ne_and_not_mem_of_not_mem_cons hbytes
      rw [withReturns, insertBefore_cons_of_ne (Ne.symm hb), ← withReturns]
      refine other b rest _ (front_withReturns b rest) ?_ ?_
      · cases hfront : front b rest with
        | char c width => exact List.mem_singleton.not.mpr (hchar c width hfront).symm
        | broken width => exact List.not_mem_nil
      · -- the other bytes of the front are no newlines either
        rw [hwidth, Nat.add_sub_cancel] at ih ⊢
        rwa [withReturns, drop_insertBefore hrest]

/-- Lenient reading of bytes with carriage returns. -/
theorem decodeLenient_withReturns (bytes : List UInt8) :
    decodeLenient (withReturns bytes) = Text.withReturns (decodeLenient bytes) := by
  induction bytes using withReturns_induction with
  | nil =>
    rw [decodeLenient_nil]
    rfl
  | newline rest rest' ih =>
    -- the carriage return and the newline are two fronts of one byte each
    rw [decodeLenient_cons 0x0d, decodeLenient_cons 0x0a rest]
    show '\r' :: decodeLenient (0x0a :: rest') = Text.withReturns ('\n' :: decodeLenient rest)
    rw [decodeLenient_cons, Text.withReturns, insertBefore_cons_self, ← Text.withReturns, ← ih]
    rfl
  | other b rest rest' hfront htext ih =>
    rw [decodeLenient_cons, decodeLenient_cons b rest, hfront, ih, Text.withReturns,
      Text.withReturns, insertBefore_append_of_notMem htext]

/-- Strict reading goes on behind what stands at the front, if that is a character. -/
theorem decode?_cons (b : UInt8) (rest : List UInt8) :
    decode? (b :: rest) =
      match front b rest with
      | .char c width => (decode? (rest.drop (width - 1))).map (c :: ·)
      | .broken _ => none := by
  cases hfront : front b rest <;> rw [decode?, hfront]

/-- Strict reading of bytes with carriage returns. -/
theorem decode?_withReturns (bytes : List UInt8) :
    decode? (withReturns bytes) = (decode? bytes).map Text.withReturns := by
  induction bytes using withReturns_induction with
  | nil =>
    rw [decode?]
    rfl
  | newline rest rest' ih =>
    have hreturn : decode? (0x0d :: 0x0a :: rest') =
        (decode? (0x0a :: rest')).map ('\r' :: ·) := decode?_cons 0x0d (0x0a :: rest')
    have hnewline (rest : List UInt8) : decode? (0x0a :: rest) = (decode? rest).map ('\n' :: ·) :=
      decode?_cons 0x0a rest
    rw [hreturn, hnewline, hnewline, ih, Option.map_map, Option.map_map, Option.map_map]
    rfl
  | other b rest rest' hfront htext ih =>
    rw [decode?_cons, decode?_cons b rest, hfront]
    cases hchar : front b rest with
    | char c width =>
      simp only [hchar, Front.width, Front.text, List.mem_singleton] at ih htext ⊢
      rw [ih, Option.map_map, Option.map_map]
      congr 1
      funext t
      exact (insertBefore_cons_of_ne (Ne.symm htext) t).symm
    | broken width => rfl

/-- Where strict reading gives a text, lenient reading gives it too. -/
theorem decodeLenient_of_decode? {bytes : List UInt8} {t : Text} (h : decode? bytes = some t) :
    decodeLenient bytes = t := by
  induction bytes using front_induction generalizing t with
  | nil =>
    rw [decode?] at h
    rw [decodeLenient_nil, Option.some.inj h]
  | cons b rest ih =>
    rw [decode?_cons] at h
    rw [decodeLenient_cons]
    cases hfront : front b rest with
    | char c width =>
      rw [hfront] at h ih
      obtain ⟨behind, hbehind, rfl⟩ := Option.map_eq_some_iff.mp h
      exact congrArg (c :: ·) (ih hbehind)
    | broken width =>
      rw [hfront] at h
      cases h

end Utf8

end Text

/-- A source text is the same with carriage returns in front of its newlines. -/
theorem Source.ofBytes_withReturns {bytes : List UInt8}
    (h : '\r' ∉ Text.Utf8.decodeLenient bytes) :
    ofBytes (Text.Utf8.withReturns bytes) = ofBytes bytes := by
  unfold ofBytes
  rw [Text.Utf8.decodeLenient_withReturns, Text.unifyNewlines_withReturns h,
    Text.unifyNewlines_of_notMem h]

/-- The text of an ignore file is the same with carriage returns in front of its newlines. -/
theorem Workspace.unified_withReturns {bytes : List UInt8}
    (h : '\r' ∉ Text.Utf8.decodeLenient bytes) :
    (Text.Utf8.decode? (Text.Utf8.withReturns bytes)).map Text.unifyNewlines =
      (Text.Utf8.decode? bytes).map Text.unifyNewlines := by
  rw [Text.Utf8.decode?_withReturns]
  rcases hdecode : Text.Utf8.decode? bytes with _ | t
  · rfl
  · rw [Text.Utf8.decodeLenient_of_decode? hdecode] at h
    simp only [Option.map_some, Text.unifyNewlines_withReturns h, Text.unifyNewlines_of_notMem h]

end DebtSurvey
