import DebtSurvey.Age
import DebtSurvey.Finding.Basic
import DebtSurvey.Finding.Identity
import DebtSurvey.History.Provider
import DebtSurvey.Imports.Graph

/-!
# Findings of stale files

A file is stale when its last commit is old and many files import it. The age is taken from the
moment of the commit, which is turned into floating point milliseconds first.
-/

namespace DebtSurvey.Staleness

/-- The fan-in from which on a stale file can be critical. -/
def criticalFanIn : Nat := 10

/-- The severity of a stale file. -/
def severity {α : Type} [NatCast α] [LT α] [LE α] [DecidableLT α] [DecidableLE α]
    (ageInDays fanIn importThreshold : α) : Severity :=
  if ((365 : Nat) : α) < ageInDays ∧ ((criticalFanIn : Nat) : α) ≤ fanIn then .critical
  else if ((365 : Nat) : α) < ageInDays ∧ importThreshold ≤ fanIn then .high
  else if ((180 : Nat) : α) < ageInDays ∧ importThreshold ≤ fanIn then .high
  else .medium

/-- Milliseconds of a moment since the epoch, as a floating point number: seconds are rounded first,
then their thousandfold. -/
def millis (moment : Calendar.Moment) : Binary64 :=
  (Binary64.ofRat (mkRat moment.sinceEpoch 1000000)).scale 1000

/-- The age of a moment in whole days. -/
def age (moment : Calendar.Moment) (clock : Int) : Except NumberError Int :=
  Age.between (.float (millis moment)) (.int clock)

/-- What a reader is told about a stale file. -/
def message (age fanIn : Int) : Text :=
  "File untouched for " ++ Text.ofInt age ++ " days but imported by " ++ Text.ofInt fanIn ++ " files"

/-- The finding of a file of an age, if it is stale. -/
def finding? (daysThreshold importThreshold : Int) (fanIn : FanIn) (file commit : Text) (age : Int) :
    Option Finding :=
  let count := fanIn.count file
  if daysThreshold ≤ age ∧ importThreshold ≤ count then
    some
      { id := Identity.ofParts [file, Kind.stale.name]
        kind := .stale
        severity := severity age count importThreshold
        file
        message := message age count
        ageInDays := some age
        lastCommit := some commit }
  else none

/-- The finding of a file by its history, if it is stale. -/
def inspect (root : Text) (daysThreshold importThreshold : Int) (fanIn : FanIn) (clock : Int)
    (file : Text) (w : World) : Except NumberError (Option Finding) × World :=
  match History.lastModified root file w with
  | (none, w) => (.ok none, w)
  | (some (commit, moment), w) =>
    ((age moment clock).map (finding? daysThreshold importThreshold fanIn file commit), w)

/-- The findings among some files, one after the other. -/
def inspectAll (root : Text) (daysThreshold importThreshold : Int) (fanIn : FanIn) (clock : Int) :
    List Text → World → Except NumberError (List Finding) × World
  | [], w => (.ok [], w)
  | file :: rest, w =>
    match inspect root daysThreshold importThreshold fanIn clock file w with
    | (.error e, w) => (.error e, w)
    | (.ok found, w) =>
      let (others, w) := inspectAll root daysThreshold importThreshold fanIn clock rest w
      (others.map (found.toList ++ ·), w)

/-- The stale files among some files; their number is noted. -/
def scan (root : Text) (daysThreshold importThreshold : Int) (fanIn : FanIn) (clock : Int)
    (files : List Text) (w : World) : Except NumberError (List Finding) × World :=
  match inspectAll root daysThreshold importThreshold fanIn clock files w with
  | (.error e, w) => (.error e, w)
  | (.ok found, w) => (.ok found, w.note (.staleFound found.length))

end DebtSurvey.Staleness
