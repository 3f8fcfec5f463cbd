import DebtSurvey.Json.Reader
import Mathlib.Data.List.Basic

/-!
# The limit of nesting

A reader breaks off at the bracket that is one too many, and this is all that its limit does: unless
it breaks off, a document comes to the same with every higher limit, be it to a value or to being
malformed. And for every limit there are documents at which it does break off, whatever stands in
them behind their opening brackets.

## Main results

* `Json.read_eq_of_le`: a document that is not nested too deep is read with all higher limits alike.
* `Json.read_brackets`: opening brackets beyond the limit are nested too deep.
-/

namespace DebtSurvey.Json

/-- The first outcome is the second one, unless reading broke off. -/
inductive Within {α : Type} : Except Fault α → Except Fault α → Prop
  | tooDeep (outcome : Except Fault α) : Within (.error .tooDeep) outcome
  | same (outcome : Except Fault α) : Within outcome outcome

namespace Within

variable {α β : Type} {x y : Except Fault α}

theorem eq (h : Within x y) (hx : x ≠ .error .tooDeep) : x = y := by
  cases h with
  | tooDeep => exact absurd rfl hx
  | same => rfl

theorem map (h : Within x y) (f : α → β) : Within (x.map f) (y.map f) := by
  cases h with
  | tooDeep => exact .tooDeep _
  | same => exact .same _

theorem bind (h : Within x y) {f g : α → Except Fault β} (hnext : ∀ a, Within (f a) (g a)) :
    Within (x >>= f) (y >>= g) := by
  cases h with
  | tooDeep => exact .tooDeep _
  | same =>
    cases x with
    | error fault => exact .same _
    | ok a => exact hnext a

end Within

/-- What is read within a bound on the recursion is the same with higher limits, unless reading
breaks off: values, items of arrays, and fields that are added to those before. -/
structure ReadsWithin (fuel : Nat) : Prop where
  value : ∀ {nesting limit}, nesting ≤ limit → ∀ t,
    Within (readValue fuel nesting t) (readValue fuel limit t)
  items : ∀ {nesting limit}, nesting ≤ limit → ∀ t,
    Within (readItems fuel nesting t) (readItems fuel limit t)
  fields : ∀ {nesting limit}, nesting ≤ limit → ∀ fields t,
    Within (readFields fuel nesting fields t) (readFields fuel limit fields t)

section Read

variable {fuel nesting limit : Nat} (h : ReadsWithin fuel) (hle : nesting ≤ limit)

include h hle

theorem ReadsWithin.value_succ (t : Text) :
    Within (readValue (fuel + 1) nesting t) (readValue (fuel + 1) limit t) := by
  unfold readValue
  split
  · exact .same _
  · cases nesting with
    | zero => exact .tooDeep _
    | succ nesting =>
      obtain ⟨limit, rfl⟩ := Nat.exists_eq_add_of_lt hle
      simp only
      split
      · exact .same _
      · exact (h.items (by omega) _).map _
  · cases nesting with
    | zero => exact .tooDeep _
    | succ nesting =>
      obtain ⟨limit, rfl⟩ := Nat.exists_eq_add_of_lt hle
      simp only
      split
      · exact .same _
      · exact (h.fields (by omega) _ _).map _
  · exact .same _

theorem ReadsWithin.items_succ (t : Text) :
    Within (readItems (fuel + 1) nesting t) (readItems (fuel + 1) limit t) := by
  unfold readItems
  refine (h.value hle t).bind fun (item, after) => ?_
  simp only
  split
  · exact .same _
  · exact (h.items hle _).bind fun _ => .same _
  · exact .same _

theorem ReadsWithin.fields_succ (fields : List (DocText × Json)) (t : Text) :
    Within (readFields (fuel + 1) nesting fields t) (readFields (fuel + 1) limit fields t) := by
  unfold readFields
  split
  · refine (Within.same _).bind fun (name, after) => ?_
    simp only
    split
    · refine (h.value hle _).bind fun (value, after) => ?_
      simp only
      split
      · exact .same _
      · exact h.fields hle _ _
      · exact .same _
    · exact .same _
  · exact .same _

end Read

theorem readsWithin (fuel : Nat) : ReadsWithin fuel := by
  induction fuel with
  | zero => exact ⟨fun _ _ => .same _, fun _ _ => .same _, fun _ _ _ => .same _⟩
  | succ fuel ih => exact ⟨ih.value_succ, ih.items_succ, ih.fields_succ⟩

/-- A document that is not nested too deep for a limit comes to the same with every higher one. -/
theorem read_eq_of_le {nesting limit : Nat} (hle : nesting ≤ limit) {t : Text}
    (h : read nesting t ≠ .error .tooDeep) : read limit t = read nesting t := by
  have hwithin : Within (read nesting t) (read limit t) := by
    unfold read
    exact ((readsWithin _).value hle _).bind fun _ => .same _
  exact (hwithin.eq h).symm

/-- Opening brackets are read one inside the other, until the limit is reached. -/
theorem readValue_brackets {nesting fuel : Nat} (hfuel : 2 * nesting < fuel) (t : Text) :
    readValue fuel nesting (List.replicate (nesting + 1) '[' ++ t) = .error .tooDeep := by
  induction nesting generalizing fuel with
  | zero =>
    obtain ⟨fuel, rfl⟩ := Nat.exists_eq_add_of_lt hfuel
    rfl
  | succ nesting ih =>
    obtain ⟨fuel, rfl⟩ : ∃ n, fuel = n + 2 := ⟨fuel - 2, by omega⟩
    have hinner := ih (by omega : 2 * nesting < fuel)
    rw [List.replicate_succ, List.cons_append] at hinner ⊢
    show Except.map _ (readItems (fuel + 1) nesting ('[' :: (List.replicate nesting '[' ++ t))) = _
    rw [readItems, hinner]
    rfl

/-- Opening brackets beyond the limit are nested too deep, whatever follows them. -/
theorem read_brackets (nesting : Nat) (t : Text) :
    read nesting (List.replicate (nesting + 1) '[' ++ t) = .error .tooDeep := by
  have hspace : skipSpace (List.replicate (nesting + 1) '[' ++ t) =
      List.replicate (nesting + 1) '[' ++ t := rfl
  have hfuel : 2 * nesting < 2 * (List.replicate (nesting + 1) '[' ++ t).length + 2 := by
    rw [List.length_append, List.length_replicate]
    omega
  rw [read, hspace, readValue_brackets hfuel]
  rfl

-- Two arrays inside each other are one too many where there may be one, whatever follows them.
example : read 1 "[[1]]" = .error .tooDeep ∧ read 1 "[[1" = .error .tooDeep ∧
    read 1 "[1" = .error .malformed ∧ read 1 "[1]" = .ok (.array [.number (.int 1)]) :=
  ⟨rfl, rfl, rfl, rfl⟩

end DebtSurvey.Json
