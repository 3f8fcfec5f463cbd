import DebtSurvey.Proofs.Interleaving
import DebtSurvey.Scan.FileWork
import Mathlib.Logic.Basic

/-!
# The world along a command line

A session asks the outside world by command lines, and remembers the blame of files. What belongs to
one command line is a part of the world: the answers still to come, how often the line was run, and
the blames that it has brought. With it goes what all lines share: the files, the clock, and whether
there is a history.

Once it is known whether there is a history, the work on a file is confined to the part of the line
that asks for its blame (`Scan.confined_fileWork`), and files have different lines
(`History.blameLine_injective`). What is asked later depends on the parts only: from worlds that
agree on all of them (`World.Agree`) the audit and the search for stale files come to the same.
-/

namespace DebtSurvey

namespace Script

/-- The answers to come for a command line, where the script knows it. -/
def answers? (key : Text) : Script → Option (List Answer)
  | [] => none
  | (k, answers) :: rest => if k = key then some answers else answers? key rest

/-- The answers to come for a command line are listed in the script. -/
theorem mem_of_answers? {key : Text} {answers : List Answer} {script : Script}
    (h : script.answers? key = some answers) : (key, answers) ∈ script := by
  induction script with
  | nil => cases h
  | cons entry rest ih =>
    rw [answers?] at h
    split at h
    · rename_i hkey
      rw [← hkey, ← Option.some.inj h]
      exact List.mem_cons_self
    · exact List.mem_cons_of_mem _ (ih h)

/-- A command line gets the first of its answers to come. -/
theorem fst_ask (key : Text) (script : Script) :
    (ask key script).1 = ((answers? key script).bind List.head?).getD unknown := by
  induction script with
  | nil => rfl
  | cons entry rest ih =>
    obtain ⟨k, answers⟩ := entry
    by_cases h : k = key
    · simp [ask, answers?, h]
    · simpa [ask, answers?, h] using ih

/-- Asking a command line uses up one of its answers and none of the others. -/
theorem answers?_snd_ask (key other : Text) (script : Script) :
    answers? other (ask key script).2 =
      if other = key then (answers? key script).map advance else answers? other script := by
  induction script with
  | nil => simp [ask, answers?]
  | cons entry rest ih =>
    obtain ⟨k, answers⟩ := entry
    by_cases h : k = key
    · subst h
      by_cases ho : other = k
      · simp [ask, answers?, ho]
      · simp [ask, answers?, ho, Ne.symm ho]
    · by_cases ho : other = key
      · subst ho
        simpa [ask, answers?, h] using ih
      · simp only [ask, answers?, h, ho, if_false] at ih ⊢
        rw [ih]

end Script

/-- What belongs to one command line in a world, and what all command lines share. -/
structure Part where
  /-- The file system. -/
  files : Node
  /-- The clock. -/
  clock : Int
  /-- Whether there is a history, once asked. -/
  repository : Option Bool
  /-- The answers to come, where the script knows the line. -/
  answers : Option (List Answer)
  /-- How often the line was run. -/
  asked : Nat
  /-- The blames remembered that the line has brought. -/
  blames : List ((Text × Text) × List BlameRow)

namespace Part

/-- The next answer. -/
def next (p : Part) : Answer := (p.answers.bind List.head?).getD Script.unknown

/-- The part after its line was run once more. -/
def advance (p : Part) : Part :=
  { p with answers := p.answers.map Script.advance, asked := p.asked + 1 }

/-- The remembered blame of a file at a commit. -/
def blame? (p : Part) (file commit : Text) : Option (List BlameRow) :=
  (p.blames.find? (·.1 = (file, commit))).map (·.2)

end Part

namespace History

/-- The command line of some arguments of the version control program. -/
def line (arguments : List Text) : Text := Host.key ("git" :: arguments)

/-- The command line that asks for the blame of a file. -/
def blameLine (file : Text) : Text := line (blameArguments file)

/-- Files have different command lines. -/
theorem blameLine_injective : Function.Injective blameLine := by
  intro f g h
  simpa [blameLine, line, blameArguments, Host.key, Text.join] using h

end History

namespace World

/-- The part of a world that belongs to a command line. -/
def part (line : Text) (w : World) : Part where
  files := w.files
  clock := w.clock
  repository := w.memory.repository
  answers := w.host.script.answers? line
  asked := w.host.calls.count line
  blames := w.memory.blames.filter fun b => History.blameLine b.1.1 = line

/-- Worlds agree when nothing that is asked of them by command lines tells them apart; what was
noted and told may differ, and so may the order in which lines were run and blames remembered. -/
def Agree (w v : World) : Prop := ∀ line, w.part line = v.part line

/-- It is known whether there is a history. -/
def Settled (w : World) : Prop := w.memory.repository.isSome

variable {w v : World}

/-- The next answer to a command line is that of its part. -/
theorem fst_ask (line : Text) (w : World) : (w.host.ask line).1 = (w.part line).next :=
  Script.fst_ask line w.host.script

/-- Running a command line advances its part and no other. -/
theorem part_ask (key line : Text) (w : World) :
    ({ w with host := (w.host.ask line).2 } : World).part key =
      if key = line then (w.part key).advance else w.part key := by
  by_cases h : key = line
  · subst h
    simp [part, Host.ask, Part.advance, Script.answers?_snd_ask]
  · have hline : line ≠ key := Ne.symm h
    simp [part, Host.ask, Script.answers?_snd_ask, h, hline]

/-- The remembered blame of a file is that of the part of its line. -/
theorem remembered?_eq_blame? (file commit : Text) (w : World) :
    History.remembered? file commit w = (w.part (History.blameLine file)).blame? file commit := by
  -- whatever is remembered under the file is in the part of its line
  have hkeep : ∀ b : (Text × Text) × List BlameRow,
      (History.blameLine b.1.1 = History.blameLine file ∧ b.1 = (file, commit)) ↔
        b.1 = (file, commit) := by
    rintro ⟨⟨f, c⟩, rows⟩
    refine and_iff_right_of_imp fun h => ?_
    rw [(Prod.mk.inj h).1]
  simp only [History.remembered?, Part.blame?, part, List.find?_filter, decide_eq_true_eq, hkeep]

/-- What is remembered of a file is added to the part of its line and to no other. -/
theorem part_remember (file commit : Text) (rows : List BlameRow) (line : Text) (w : World) :
    (History.remember file commit rows w).2.part line =
      if line = History.blameLine file ∧ (w.part line).blame? file commit = none then
        { w.part line with blames := (w.part line).blames ++ [((file, commit), rows)] }
      else w.part line := by
  unfold History.remember
  rw [remembered?_eq_blame?]
  by_cases hline : line = History.blameLine file
  · subst hline
    -- the entry is added at the end, where the part of the line keeps it
    cases h : (w.part (History.blameLine file)).blame? file commit with
    | none => simp [part]
    | some known => simp
  · cases h : (w.part (History.blameLine file)).blame? file commit with
    | none => simp [part, hline, Ne.symm hline]
    | some known => simp [hline]

/-- The answer to what is remembered is decided by the part of the line. -/
theorem fst_remember (file commit : Text) (rows : List BlameRow) (w : World) :
    (History.remember file commit rows w).1 =
      ((w.part (History.blameLine file)).blame? file commit).getD rows := by
  unfold History.remember
  rw [remembered?_eq_blame?]
  cases (w.part (History.blameLine file)).blame? file commit <;> rfl

end World

namespace History

variable {w v : World}

/-- Asking the version control program changes nothing but the outside world. -/
theorem exists_ask (arguments : List Text) (w : World) :
    ∃ result host, ask arguments w = (result, { w with host }) := ⟨_, _, rfl⟩

/-- What the version control program answers is decided by the part of its command line. -/
theorem fst_ask (arguments : List Text) (w : World) :
    (ask arguments w).1 =
      Host.interpret "git" (line arguments) patience (w.part (line arguments)).next := by
  rw [← World.fst_ask]
  rfl

/-- Asking the version control program advances the part of the command line and no other. -/
theorem part_ask (arguments : List Text) (key : Text) (w : World) :
    (ask arguments w).2.part key =
      if key = line arguments then (w.part key).advance else w.part key :=
  World.part_ask key (line arguments) w

/-- Once it is known whether there is a history, that is not asked again. -/
theorem isRepository_of_settled (root : Text) (h : w.Settled) :
    isRepository root w = (w.memory.repository.getD false, w) := by
  obtain ⟨known, hknown⟩ := Option.isSome_iff_exists.mp h
  simp [isRepository, hknown]

/-- Asking for a blame leaves it known whether there is a history. -/
theorem settled_askBlame {file : Text} (h : w.Settled) : (askBlame file w).2.Settled := by
  obtain ⟨result, host, hask⟩ := exists_ask (blameArguments file) w
  unfold askBlame
  rw [hask]
  cases result with
  | error cause => exact h
  | ok output =>
    simp only
    cases Porcelain.parse output <;> exact h

/-- Remembering a blame leaves it known whether there is a history. -/
theorem settled_remember {file commit : Text} {rows : List BlameRow} (h : w.Settled) :
    (remember file commit rows w).2.Settled := by
  unfold remember
  cases remembered? file commit w <;> exact h

/-- Asking for a blame comes to the same from worlds that agree on the part of its line. -/
theorem fst_askBlame_congr {file : Text}
    (h : w.part (blameLine file) = v.part (blameLine file)) :
    (askBlame file w).1 = (askBlame file v).1 := by
  have hanswer : (ask (blameArguments file) w).1 = (ask (blameArguments file) v).1 := by
    rw [fst_ask, fst_ask]
    exact congrArg (fun p : Part => Host.interpret "git" (blameLine file) patience p.next) h
  unfold askBlame
  rcases hw : ask (blameArguments file) w with ⟨result, w'⟩
  rcases hv : ask (blameArguments file) v with ⟨result', v'⟩
  rw [hw, hv] at hanswer
  -- the same answer is read the same way
  obtain rfl : result = result' := hanswer
  cases result with
  | error cause => rfl
  | ok output => cases hparse : Porcelain.parse output <;> simp [hparse]

/-- Asking for a blame advances the part of its line and no other. -/
theorem part_askBlame (file key : Text) (w : World) :
    (askBlame file w).2.part key =
      if key = blameLine file then (w.part key).advance else w.part key := by
  rw [blameLine, ← part_ask]
  unfold askBlame
  rcases ask (blameArguments file) w with ⟨result, w'⟩
  cases result with
  | error cause => rfl
  | ok output => cases hparse : Porcelain.parse output <;> simp [hparse]

end History

end DebtSurvey
