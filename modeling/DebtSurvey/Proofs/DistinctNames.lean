import DebtSurvey.Json.Reader
import Mathlib.Data.List.Nodup

/-!
# Names of fields

Reading an object gives a name its last value, in the place of the first one. So whatever a document
repeats, no object of a value that was read has two fields of one name, at whatever depth it stands.

## Main results

* `Json.nodup_setField`: giving a name a value keeps names distinct.
* `Json.hasDistinctNames_of_read`: all names of a value that was read are distinct.
-/

namespace DebtSurvey.Json

/-- A value each of whose objects has fields of different names, at every depth. -/
inductive HasDistinctNames : Json → Prop
  | null : HasDistinctNames .null
  | bool (value : Bool) : HasDistinctNames (.bool value)
  | number (value : Number) : HasDistinctNames (.number value)
  | text (value : DocText) : HasDistinctNames (.text value)
  | array {items : List Json} (items_distinct : ∀ item ∈ items, HasDistinctNames item) :
    HasDistinctNames (.array items)
  | object {fields : List (DocText × Json)} (nodup : (fields.map (·.1)).Nodup)
    (values : ∀ field ∈ fields, HasDistinctNames field.2) : HasDistinctNames (.object fields)

theorem hasDistinctNames_empty : HasDistinctNames (.object []) :=
  .object List.nodup_nil (List.forall_mem_nil _)

section Field

variable {fields : List (DocText × Json)} {name : DocText} {value : Json}

theorem HasDistinctNames.nodup (h : HasDistinctNames (.object fields)) :
    (fields.map (·.1)).Nodup := by
  cases h
  assumption

theorem HasDistinctNames.of_mem (h : HasDistinctNames (.object fields)) {field : DocText × Json}
    (hfield : field ∈ fields) : HasDistinctNames field.2 := by
  cases h with
  | object _ values => exact values field hfield

theorem HasDistinctNames.of_field? (h : HasDistinctNames (.object fields))
    (hfield : field? fields name = some value) : HasDistinctNames value := by
  obtain ⟨field, hfind, rfl⟩ := Option.map_eq_some_iff.mp hfield
  exact h.of_mem (List.mem_of_find?_eq_some hfind)

theorem mem_setField {field : DocText × Json} (h : field ∈ setField fields name value) :
    field = (name, value) ∨ field ∈ fields := by
  induction fields with
  | nil => exact .inl (List.mem_singleton.mp h)
  | cons first rest ih =>
    rw [setField] at h
    split at h
    · rename_i hname
      exact (List.mem_cons.mp h).imp (by rw [hname]; exact id) (List.mem_cons_of_mem _)
    · rcases List.mem_cons.mp h with rfl | hrest
      · exact .inr List.mem_cons_self
      · exact (ih hrest).imp_right (List.mem_cons_of_mem _)

/-- Giving a name a value keeps names distinct. -/
theorem nodup_setField (h : (fields.map (·.1)).Nodup) :
    ((setField fields name value).map (·.1)).Nodup := by
  induction fields with
  | nil => exact List.nodup_singleton name
  | cons first rest ih =>
    obtain ⟨hnew, hrest⟩ := List.nodup_cons.mp h
    rw [setField]
    split
    · exact List.nodup_cons.mpr ⟨hnew, hrest⟩
    · rename_i hother
      -- the first name is neither the one that is given nor one of those behind it
      refine List.nodup_cons.mpr ⟨fun hmem => ?_, ih hrest⟩
      obtain ⟨field, hfield, hname⟩ := List.mem_map.mp hmem
      rcases mem_setField hfield with rfl | hold
      · exact hother hname.symm
      · exact hnew (List.mem_map.mpr ⟨field, hold, hname⟩)

theorem HasDistinctNames.setField (h : HasDistinctNames (.object fields))
    (hvalue : HasDistinctNames value) :
    HasDistinctNames (.object (Json.setField fields name value)) := by
  refine .object (nodup_setField h.nodup) fun field hfield => ?_
  rcases mem_setField hfield with rfl | hold
  · exact hvalue
  · exact h.of_mem hold

end Field

theorem hasDistinctNames_of_readSimple? {t after : Text} {v : Json}
    (h : readSimple? t = some (v, after)) : HasDistinctNames v := by
  unfold readSimple? at h
  split at h
  · obtain ⟨rfl, -⟩ := Prod.mk.inj (Option.some.inj h)
    exact .null
  · obtain ⟨rfl, -⟩ := Prod.mk.inj (Option.some.inj h)
    exact .bool true
  · obtain ⟨rfl, -⟩ := Prod.mk.inj (Option.some.inj h)
    exact .bool false
  · split at h
    · obtain ⟨rfl, -⟩ := Prod.mk.inj (Option.some.inj h)
      exact .number _
    · obtain ⟨rfl, -⟩ := Prod.mk.inj (Option.some.inj h)
      exact .number _
    · obtain ⟨rfl, -⟩ := Prod.mk.inj (Option.some.inj h)
      exact .number _
    · split at h <;>
      · obtain ⟨⟨n, rest⟩, -, hv⟩ := Option.map_eq_some_iff.mp h
        obtain ⟨rfl, -⟩ := Prod.mk.inj hv
        exact .number n

/-- What is read within a bound has distinct names: values, items of arrays, and fields that are
added to those before. -/
structure ReadsDistinct (fuel : Nat) : Prop where
  value : ∀ {nesting t after v}, readValue fuel nesting t = .ok (v, after) → HasDistinctNames v
  items : ∀ {nesting t after items}, readItems fuel nesting t = .ok (items, after) →
    ∀ item ∈ items, HasDistinctNames item
  fields : ∀ {nesting fields t after found}, HasDistinctNames (.object fields) →
    readFields fuel nesting fields t = .ok (found, after) → HasDistinctNames (.object found)

section Read

variable {fuel nesting : Nat} (h : ReadsDistinct fuel) {t after : Text}

include h

theorem ReadsDistinct.value_succ {v : Json}
    (hread : readValue (fuel + 1) nesting t = .ok (v, after)) : HasDistinctNames v := by
  unfold readValue at hread
  split at hread
  · rename_i rest
    rcases hstring : readString? rest with _ | ⟨s, after⟩ <;> rw [hstring] at hread <;> cases hread
    exact .text s
  · -- an array may be inside of as many others as the limit says
    split at hread
    · cases hread
    split at hread
    · cases hread
      exact .array (List.forall_mem_nil _)
    · rename_i nesting _ _
      rcases hitems : readItems fuel nesting _ with _ | ⟨items, after⟩ <;> rw [hitems] at hread <;>
        cases hread
      exact .array (h.items hitems)
  · split at hread
    · cases hread
    split at hread
    · cases hread
      exact hasDistinctNames_empty
    · rename_i nesting _ _
      rcases hfields : readFields fuel nesting [] _ with _ | ⟨fields, after⟩ <;>
        rw [hfields] at hread <;> cases hread
      exact h.fields hasDistinctNames_empty hfields
  · rcases hsimple : readSimple? t with _ | ⟨v, after⟩ <;> rw [hsimple] at hread <;> cases hread
    exact hasDistinctNames_of_readSimple? hsimple

theorem ReadsDistinct.items_succ {items : List Json}
    (hread : readItems (fuel + 1) nesting t = .ok (items, after)) :
    ∀ item ∈ items, HasDistinctNames item := by
  unfold readItems at hread
  rcases hitem : readValue fuel nesting t with _ | ⟨item, rest⟩ <;> rw [hitem] at hread
  · cases hread
  simp only [bind, Except.bind] at hread
  split at hread
  · cases hread
    exact List.forall_mem_singleton.mpr (h.value hitem)
  · rename_i others _
    rcases hothers : readItems fuel nesting (skipSpace others) with _ | ⟨others, rest⟩ <;>
      rw [hothers] at hread <;> cases hread
    exact List.forall_mem_cons.mpr ⟨h.value hitem, h.items hothers⟩
  · cases hread

theorem ReadsDistinct.fields_succ {fields found : List (DocText × Json)}
    (hfields : HasDistinctNames (.object fields))
    (hread : readFields (fuel + 1) nesting fields t = .ok (found, after)) :
    HasDistinctNames (.object found) := by
  unfold readFields at hread
  split at hread
  · rename_i rest
    rcases hname : readString? rest with _ | ⟨name, rest⟩ <;> rw [hname] at hread
    · cases hread
    simp only [orMalformed, bind, Except.bind] at hread
    split at hread
    · rename_i rest _
      rcases hvalue : readValue fuel nesting (skipSpace rest) with _ | ⟨value, rest⟩ <;>
        rw [hvalue] at hread
      · cases hread
      have hadded : HasDistinctNames (.object (setField fields name value)) :=
        hfields.setField (h.value hvalue)
      -- the field ends the object, or more are added to it
      simp only at hread
      split at hread
      · cases hread
        exact hadded
      · exact h.fields hadded hread
      · cases hread
    · cases hread
  · cases hread

end Read

theorem readsDistinct (fuel : Nat) : ReadsDistinct fuel := by
  induction fuel with
  | zero => exact ⟨nofun, nofun, fun _ h => nomatch h⟩
  | succ fuel ih => exact ⟨ih.value_succ, ih.items_succ, ih.fields_succ⟩

/-- Whatever a document repeats, all names of its value are distinct. -/
theorem hasDistinctNames_of_read {nesting : Nat} {t : Text} {v : Json}
    (h : read nesting t = .ok v) : HasDistinctNames v := by
  unfold read at h
  rcases hread : readValue (2 * t.length + 2) nesting (skipSpace t) with _ | ⟨value, after⟩ <;>
    rw [hread] at h
  · cases h
  simp only [bind, Except.bind] at h
  split at h
  · cases h
    exact (readsDistinct _).value hread
  · cases h

end DebtSurvey.Json
