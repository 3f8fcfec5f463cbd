import DebtSurvey.Analysis.Functions
import DebtSurvey.Analysis.Markers
import DebtSurvey.History.Provider
import DebtSurvey.Imports.Specifier
import DebtSurvey.Settings.Basic
import DebtSurvey.Workspace.Source

/-!
# Work on one file

A file is searched for markers, then for complex functions. Reading the file and each part of a
blame are steps of a job, so that work on other files may take place in between. A file that cannot
be read gives no findings, and that is noted; a blame that cannot be understood ends the job.
-/

namespace DebtSurvey.Scan

/-- The findings of one file, unless its blame cannot be understood. -/
abbrev FileResult := Except Porcelain.Error (List Finding)

/-- Read a source file; a failure is noted. -/
def readSource (directory file : Text) (failure : Event) (w : World) : Option Text × World :=
  match Source.read w.files (Path.append directory file) with
  | .ok source => (some source, w)
  | .error _ => (none, w.note failure)

/-- Search a file for marker words. Without any word the file is not even read. -/
def markerWork (directory file commit : Text) (words : List Text) (clock : Int) :
    Job World FileResult :=
  if words.all (·.isEmpty) then .done (.ok [])
  else
    (Job.single (readSource directory file (.markersSkipped file))).andThen fun source =>
      match source with
      | none => .done (.ok [])
      | some source =>
        (History.blame directory file commit).andThen fun blame =>
          .done (blame.map fun rows => Marker.findings words file source rows clock)

/-- Search a file for complex functions. Files of other languages are not read, and for a file
without functions there is no blame to ask for. -/
def functionWork (directory file commit : Text) (bands : Code.Bands Int) (clock : Int) :
    Job World FileResult :=
  if Imports.hasSourceExtension file then
    (Job.single (readSource directory file (.functionsSkipped file))).andThen fun source =>
      match source.map Code.functions with
      | none => .done (.ok [])
      | some [] => .done (.ok [])
      | some functions =>
        (History.blame directory file commit).andThen fun blame =>
          .done (blame.map fun rows => Code.complexityFindings bands file functions rows clock)
  else .done (.ok [])

/-- All work on one file: markers first, then functions. -/
def fileWork (directory file commit : Text) (settings : Settings) (clock : Int) :
    Job World FileResult :=
  (markerWork directory file commit settings.markerWords clock).andThen fun marked =>
    match marked with
    | .error e => .done (.error e)
    | .ok marked =>
      (functionWork directory file commit settings.bands clock).andThen fun complex =>
        .done (complex.map (marked ++ ·))

end DebtSurvey.Scan
