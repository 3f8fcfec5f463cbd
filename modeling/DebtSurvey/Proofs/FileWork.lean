import DebtSurvey.Proofs.WorldPart

/-!
# The work on a file keeps to itself

The work on a file reads the file and asks for its blame. It is confined to the part of the world
that belongs to the command line of that blame, provided it is known whether there is a history:
nothing that the work on another file does can be seen by it.

## Main results

* `History.confined_blame`: asking for a blame is confined to the part of its command line.
* `Scan.confined_fileWork`: so is all work on a file.
-/

namespace DebtSurvey

open Job (Confined)

namespace History

/-- Asking for the blame of a file is confined to the part of its command line. -/
theorem confined_blame (root file commit : Text) :
    Confined World.Settled World.part (blameLine file) (blame root file commit) := by
  -- looking up what is remembered
  refine (Confined.single (fun _ h => h) ?_ fun _ _ _ _ => rfl).andThen fun known => ?_
  · intro w v _ _ h
    refine ⟨?_, h⟩
    rw [World.remembered?_eq_blame?, World.remembered?_eq_blame?, h]
  cases known with
  | some rows => exact .done _
  | none =>
    -- asking whether there is a history, which is known and so changes nothing
    refine (Confined.single ?_ ?_ ?_).andThen fun isRepository => ?_
    · intro w hw
      rwa [isRepository_of_settled root hw]
    · intro w v hw hv h
      rw [isRepository_of_settled root hw, isRepository_of_settled root hv]
      exact ⟨congrArg (fun p : Part => p.repository.getD false) h, h⟩
    · intro w hw key _
      rw [isRepository_of_settled root hw]
    cases isRepository with
    | false => exact .done _
    | true =>
      -- running the command, which advances the part of its own line
      refine (Confined.single ?_ ?_ ?_).andThen fun answer => ?_
      · exact fun w hw => settled_askBlame hw
      · intro w v _ _ h
        refine ⟨fst_askBlame_congr h, ?_⟩
        rw [part_askBlame, part_askBlame, h]
      · intro w _ key hkey
        rw [part_askBlame, if_neg hkey]
      match answer with
      | .error e => exact .done _
      | .ok none => exact .done _
      | .ok (some rows) =>
        -- remembering the rows, under a key that has the file in it
        refine (Confined.single ?_ ?_ ?_).andThen fun rows => .done _
        · exact fun w hw => settled_remember hw
        · intro w v _ _ h
          rw [World.fst_remember, World.fst_remember, World.part_remember, World.part_remember, h]
          exact ⟨rfl, rfl⟩
        · intro w _ key hkey
          rw [World.part_remember, if_neg fun hand => hkey hand.1]

end History

namespace Scan

/-- Reading a source file is confined to any part, since all parts share the files. -/
theorem confined_readSource (directory file line : Text) (failure : Event) :
    Confined World.Settled World.part line (Job.single (readSource directory file failure)) := by
  have hread : ∀ w : World, readSource directory file failure w =
      ((Source.read w.files (Path.append directory file)).toOption,
        (readSource directory file failure w).2) := by
    intro w
    unfold readSource
    cases Source.read w.files (Path.append directory file) <;> rfl
  have hpart : ∀ (w : World) (key : Text),
      (readSource directory file failure w).2.part key = w.part key := by
    intro w key
    unfold readSource
    cases Source.read w.files (Path.append directory file) <;> rfl
  refine .single ?_ ?_ fun w _ key _ => hpart w key
  · intro w hw
    unfold readSource
    cases Source.read w.files (Path.append directory file) <;> exact hw
  · intro w v _ _ h
    rw [hpart, hpart, hread w, hread v]
    exact ⟨congrArg (fun p : Part =>
      (Source.read p.files (Path.append directory file)).toOption) h, h⟩

/-- Searching a file for markers is confined to the part of its blame. -/
theorem confined_markerWork (directory file commit : Text) (words : List Text) (clock : Int) :
    Confined World.Settled World.part (History.blameLine file)
      (markerWork directory file commit words clock) := by
  unfold markerWork
  split
  · exact .done _
  · refine (confined_readSource directory file _ _).andThen fun source => ?_
    cases source with
    | none => exact .done _
    | some source =>
      exact (History.confined_blame directory file commit).andThen fun blame => .done _

/-- Searching a file for functions is confined to the part of its blame. -/
theorem confined_functionWork (directory file commit : Text) (bands : Code.Bands Int)
    (clock : Int) :
    Confined World.Settled World.part (History.blameLine file)
      (functionWork directory file commit bands clock) := by
  unfold functionWork
  split
  · refine (confined_readSource directory file _ _).andThen fun source => ?_
    match source.map Code.functions with
    | none => exact .done _
    | some [] => exact .done _
    | some (_ :: _) =>
      exact (History.confined_blame directory file commit).andThen fun blame => .done _
  · exact .done _

/-- All work on a file is confined to the part of its blame. -/
theorem confined_fileWork (directory file commit : Text) (settings : Settings) (clock : Int) :
    Confined World.Settled World.part (History.blameLine file)
      (fileWork directory file commit settings clock) := by
  refine (confined_markerWork directory file commit _ clock).andThen fun marked => ?_
  cases marked with
  | error e => exact .done _
  | ok marked =>
    exact (confined_functionWork directory file commit _ clock).andThen fun complex => .done _

end Scan

end DebtSurvey
