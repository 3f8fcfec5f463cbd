/-!
# Faults of settings documents

A document can fail as a whole, or a single value in it can be impossible. The two are told apart,
because a document that fails as a whole is passed over, and an impossible value is not.
-/

namespace DebtSurvey.Yaml

/-- Why a document denotes no plain value. -/
inductive Error where
  /-- The text is not a document of plain values. -/
  | malformed
  /-- The bytes of the document are not UTF-8. -/
  | notUtf8
  /-- Collections stand too deep inside each other. -/
  | tooDeep
  /-- An escape names a number beyond the last code point. -/
  | noCodePoint
  /-- An escape names a number beyond `2 ^ 31`. -/
  | hugeCodePoint
  /-- A truth value has an unknown name. -/
  | unknownTruthValue
  /-- A number has no digits at all. -/
  | emptyNumber
  /-- A number is not written as one. -/
  | badNumber
  /-- A date is not in the calendar, or a time not on the clock. -/
  | impossibleDate
  /-- A date is not written as one. -/
  | badDate
  /-- A date is a map. -/
  | structuredDate
deriving DecidableEq, Repr

end DebtSurvey.Yaml
