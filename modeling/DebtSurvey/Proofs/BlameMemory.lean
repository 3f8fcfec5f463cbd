import DebtSurvey.Proofs.WorldPart
import Mathlib.Data.Finset.Card
import Mathlib.Data.List.Basic

/-!
# Sessions with the history of a workspace

A session asks the history of one workspace for this and that, forgets its blames now and then, and
in between the outside world may change its mind about every command. The memory of blames is
followed through all of it by the set of keys, a file and a commit, whose blame was read since the
memory was last cleared.

## Main results

* `History.run_blame`: what asking for a blame comes to, as one equation; `History.run_blame_of_new`
  is what follows from it for a blame that is not remembered.
* `History.Remembers`: the memory holds each key of a set once; `History.remembers_session` is the
  invariant of a session.
* `History.session_of_remembered`: a remembered blame stays what it is until the memory is cleared.
* `History.session_blame`: what a session knows of blames.
-/

namespace DebtSurvey.History

/-- What a session does with the history of a workspace. -/
inductive Request where
  /-- Ask whether there is a history. -/
  | isRepository
  /-- Ask for the current commit. -/
  | currentCommit
  /-- Ask for the blame of a file at a commit. -/
  | blame (file commit : Text)
  /-- Ask for the last commit of a file. -/
  | lastModified (file : Text)
  /-- Forget all blame. -/
  | clear
  /-- Ask how many blames are remembered. -/
  | size
  /-- From here on the outside world answers by another script. -/
  | rescript (script : Script)

/-- The world after a request. -/
def Request.perform (root : Text) : Request → World → World
  | .isRepository, w => (History.isRepository root w).2
  | .currentCommit, w => (History.currentCommit root w).2
  | .blame file commit, w => ((History.blame root file commit).run w).2
  | .lastModified file, w => (History.lastModified root file w).2
  | .clear, w => History.clear w
  | .size, w => w
  | .rescript script, w => { w with host := { w.host with script } }

/-- The world after the requests of a session, one after the other. -/
def session (root : Text) : List Request → World → World
  | [], w => w
  | request :: rest, w => session root rest (request.perform root w)

/-- The rows that the command for the blame of a file brings, where there is a history, the command
succeeds and its output can be read. -/
def brings? (root file : Text) (w : World) : Option (List BlameRow) :=
  match isRepository root w with
  | (false, _) => none
  | (true, w) =>
    match (askBlame file w).1 with
    | .ok rows => rows
    | .error _ => none

/-- The keys whose blame was read since the memory was last cleared, after a request. The key of a
blame is added when the command brings rows, be they none at all. -/
def Request.mark (root : Text) (w : World) (keys : Finset (Text × Text)) :
    Request → Finset (Text × Text)
  | .blame file commit =>
    if (brings? root file w).isSome then insert (file, commit) keys else keys
  | .clear => ∅
  | _ => keys

/-- The keys whose blame was read since the memory was last cleared, after the requests of a
session. -/
def readKeys (root : Text) :
    List Request → World → Finset (Text × Text) → Finset (Text × Text)
  | [], _, keys => keys
  | request :: rest, w, keys =>
    readKeys root rest (request.perform root w) (request.mark root w keys)

/-- The memory of a world holds the blames of some keys, each of them once. -/
structure Remembers (keys : Finset (Text × Text)) (w : World) : Prop where
  /-- No key is remembered twice. -/
  nodup : (w.memory.blames.map (·.1)).Nodup
  /-- The keys are those remembered. -/
  mem_iff : ∀ key, key ∈ keys ↔ key ∈ w.memory.blames.map (·.1)

variable {root file commit : Text} {rows : List BlameRow} {keys : Finset (Text × Text)} {w : World}

/-! ### What leaves the memory of blames alone -/

/-- Asking whether there is a history remembers no blame. -/
theorem blames_isRepository (root : Text) (w : World) :
    (isRepository root w).2.memory.blames = w.memory.blames := by
  unfold isRepository
  cases w.memory.repository with
  | some known => rfl
  | none =>
    -- either answer is kept in the other half of the memory
    obtain ⟨result, host, hask⟩ := exists_ask probe w
    simp only [hask]
    cases result <;> rfl

/-- Asking for the current commit remembers no blame. -/
theorem blames_currentCommit (root : Text) (w : World) :
    (currentCommit root w).2.memory.blames = w.memory.blames := by
  rw [← blames_isRepository root w]
  unfold currentCommit
  rcases isRepository root w with ⟨_ | _, v⟩
  · rfl
  · obtain ⟨result, host, hask⟩ := exists_ask currentArguments v
    simp only [hask]
    cases result <;> rfl

/-- Asking for the last commit of a file remembers no blame. -/
theorem blames_lastModified (root file : Text) (w : World) :
    (lastModified root file w).2.memory.blames = w.memory.blames := by
  rw [← blames_isRepository root w]
  unfold lastModified
  rcases isRepository root w with ⟨_ | _, v⟩
  · rfl
  · obtain ⟨result, host, hask⟩ := exists_ask (lastArguments file) v
    simp only [hask]
    cases result with
    | error cause => rfl
    | ok output =>
      simp only
      split
      · rfl
      · split <;> rfl

/-- Running the command for a blame remembers nothing by itself, and is one more command line run.
-/
theorem askBlame_changes (file : Text) (w : World) :
    (askBlame file w).2.memory = w.memory ∧
      (askBlame file w).2.host.calls = w.host.calls ++ [blameLine file] := by
  have hcalls : (ask (blameArguments file) w).2.host.calls = w.host.calls ++ [blameLine file] := rfl
  obtain ⟨result, host, hask⟩ := exists_ask (blameArguments file) w
  rw [hask] at hcalls
  unfold askBlame
  rw [hask]
  cases result with
  | error cause => exact ⟨rfl, hcalls⟩
  | ok output =>
    simp only
    cases Porcelain.parse output <;> exact ⟨rfl, hcalls⟩

/-! ### Asking for a blame -/

/-- Asking for a blame answers what is remembered; where nothing is and there is a history it runs
the command, and remembers the rows that it brings. -/
theorem run_blame (root file commit : Text) (w : World) :
    (blame root file commit).run w =
      match remembered? file commit w with
      | some rows => (.ok rows, w)
      | none =>
        match isRepository root w with
        | (false, w) => (.ok [], w)
        | (true, w) =>
          match askBlame file w with
          | (.error e, w) => (.error e, w)
          | (.ok none, w) => (.ok [], w)
          | (.ok (some rows), w) =>
            (.ok rows, { w with memory := { w.memory with
              blames := w.memory.blames ++ [((file, commit), rows)] } }) := by
  rw [blame, Job.run_andThen, Job.run_single]
  cases hknown : remembered? file commit w with
  | some rows => rfl
  | none =>
    have hrepository := blames_isRepository root w
    obtain ⟨known, v, hrep⟩ : ∃ known v, isRepository root w = (known, v) := ⟨_, _, rfl⟩
    simp only [Job.run_andThen, Job.run_single, hrep] at hrepository ⊢
    cases known with
    | false => rfl
    | true =>
      have hasked := (askBlame_changes file v).1
      simp only [if_true, Job.run_andThen, Job.run_single]
      rcases hask : askBlame file v with ⟨_ | _ | rows, u⟩ <;> rw [hask] at hasked
      · rfl
      · rfl
      · -- nothing was remembered in between: neither question touches the blames
        have hstill : remembered? file commit u = none := by
          rw [remembered?, show u.memory = v.memory from hasked, hrepository]
          exact hknown
        simp only [Job.run_andThen, Job.run_single, remember, hstill]
        rfl

/-- A remembered blame is answered as it is, and nothing changes. -/
theorem run_blame_of_remembered (h : remembered? file commit w = some rows) :
    (blame root file commit).run w = (.ok rows, w) := by
  rw [run_blame, h]

/-- A blame that is not remembered runs its command, where there is a history. The rows that the
command brings are answered and remembered; when it brings none, nothing is remembered or forgotten.
-/
theorem run_blame_of_new (root : Text) (hnew : remembered? file commit w = none) :
    let asked := (blame root file commit).run w
    asked.2.host.calls = (isRepository root w).2.host.calls ++
        (if (isRepository root w).1 then [blameLine file] else []) ∧
      match brings? root file w with
      | some rows => asked.1 = .ok rows ∧
          asked.2.memory.blames = w.memory.blames ++ [((file, commit), rows)]
      | none => asked.2.memory.blames = w.memory.blames := by
  have hrepository := blames_isRepository root w
  rw [run_blame, hnew]
  unfold brings?
  rcases hrep : isRepository root w with ⟨_ | _, v⟩ <;> rw [hrep] at hrepository
  · exact ⟨by simp, hrepository⟩
  · obtain ⟨hmemory, hcalls⟩ := askBlame_changes file v
    simp only [if_true]
    -- the command fails, its output cannot be read, or it brings rows
    rcases hask : askBlame file v with ⟨_ | _ | rows, u⟩ <;> rw [hask] at hmemory hcalls
    · exact ⟨hcalls, (congrArg Memory.blames hmemory).trans hrepository⟩
    · exact ⟨hcalls, (congrArg Memory.blames hmemory).trans hrepository⟩
    · have hblames : u.memory.blames = w.memory.blames :=
        (congrArg Memory.blames hmemory).trans hrepository
      refine ⟨hcalls, rfl, ?_⟩
      show u.memory.blames ++ _ = _
      rw [hblames]

/-! ### Sessions -/

/-- A key is new to the memory when none of the blames remembered has it. -/
theorem remembered?_eq_none_iff :
    remembered? file commit w = none ↔ (file, commit) ∉ w.memory.blames.map (·.1) := by
  rw [remembered?, Option.map_eq_none_iff, List.find?_eq_none, List.mem_map]
  simp only [decide_eq_true_eq, not_exists, not_and]

/-- A key is remembered when one of the blames remembered has it. -/
theorem exists_remembered_iff :
    (∃ rows, remembered? file commit w = some rows) ↔
      (file, commit) ∈ w.memory.blames.map (·.1) := by
  rw [← Option.ne_none_iff_exists', ne_eq, remembered?_eq_none_iff, not_not]

/-- As many blames are remembered as there are keys. -/
theorem Remembers.size_eq (h : Remembers keys w) : size w = keys.card := by
  have hkeys : keys = (w.memory.blames.map (·.1)).toFinset := by
    ext key
    rw [h.mem_iff, List.mem_toFinset]
  rw [hkeys, List.toFinset_card_of_nodup h.nodup, List.length_map, size]

/-- Worlds that remember the same blames remember the same keys. -/
theorem Remembers.congr {v : World} (h : Remembers keys w)
    (hblames : v.memory.blames = w.memory.blames) : Remembers keys v :=
  ⟨by rw [hblames]; exact h.nodup, by rw [hblames]; exact h.mem_iff⟩

/-- An entry with a new key at the end of the memory makes its key one of those remembered. -/
theorem Remembers.concat {v : World} {key : Text × Text} (h : Remembers keys w)
    (hnew : key ∉ w.memory.blames.map (·.1))
    (hblames : v.memory.blames = w.memory.blames ++ [(key, rows)]) :
    Remembers (insert key keys) v := by
  constructor
  · rw [hblames, List.map_append, List.map_singleton, ← List.concat_eq_append]
    exact h.nodup.concat hnew
  · intro other
    rw [hblames, Finset.mem_insert, h.mem_iff, List.map_append, List.mem_append, or_comm]
    simp

/-- Asking for a blame remembers its key when the command brings rows, and only then. -/
theorem Remembers.blame (h : Remembers keys w) (root file commit : Text) :
    Remembers ((Request.blame file commit).mark root w keys)
      ((Request.blame file commit).perform root w) := by
  rw [Request.mark, Request.perform]
  by_cases hknown : (file, commit) ∈ w.memory.blames.map (·.1)
  · -- the key is there, and is not added a second time
    obtain ⟨old, hold⟩ := exists_remembered_iff.mpr hknown
    rw [run_blame_of_remembered hold, Finset.insert_eq_of_mem ((h.mem_iff _).mpr hknown), ite_self]
    exact h
  · have hnew := run_blame_of_new root (remembered?_eq_none_iff.mpr hknown)
    cases hbrings : brings? root file w with
    | none =>
      rw [hbrings] at hnew
      exact h.congr hnew.2
    | some rows =>
      rw [hbrings] at hnew
      exact h.concat hknown hnew.2.2

/-- A request keeps account of the keys remembered. -/
theorem Remembers.perform (h : Remembers keys w) (root : Text) (request : Request) :
    Remembers (request.mark root w keys) (request.perform root w) := by
  cases request with
  | blame file commit => exact h.blame root file commit
  | isRepository => exact h.congr (blames_isRepository root w)
  | currentCommit => exact h.congr (blames_currentCommit root w)
  | lastModified file => exact h.congr (blames_lastModified root file w)
  | clear => exact ⟨List.nodup_nil, fun key => by simp [Request.mark, Request.perform, clear]⟩
  | size => exact h
  | rescript script => exact h.congr rfl

/-- The keys remembered after a session are those read since the memory was last cleared. -/
theorem remembers_session (root : Text) (requests : List Request) (h : Remembers keys w) :
    Remembers (readKeys root requests w keys) (session root requests w) := by
  -- the keys read so far go along with the world
  induction requests generalizing w keys with
  | nil => exact h
  | cons request requests ih => exact ih (h.perform root request)

/-- The keys read in a session cut in two. -/
theorem readKeys_append (root : Text) (before after : List Request) (w : World)
    (keys : Finset (Text × Text)) :
    readKeys root (before ++ after) w keys =
      readKeys root after (session root before w) (readKeys root before w keys) := by
  induction before generalizing w keys with
  | nil => rfl
  | cons request before ih => exact ih (request.perform root w) (request.mark root w keys)

/-- What is remembered stays remembered through every request but clearing the memory. -/
theorem remembered?_perform {request : Request} (hclear : request ≠ .clear)
    (h : remembered? file commit w = some rows) :
    remembered? file commit (request.perform root w) = some rows := by
  cases request with
  | clear => exact absurd rfl hclear
  | blame other key =>
    rw [Request.perform]
    cases hother : remembered? other key w with
    | some known =>
      rw [run_blame_of_remembered hother]
      exact h
    | none =>
      have hnew := run_blame_of_new root hother
      cases hbrings : brings? root other w with
      | none =>
        rw [hbrings] at hnew
        rw [remembered?, hnew.2]
        exact h
      | some brought =>
        -- entries are added at the end, so the entry found before is found again
        rw [hbrings] at hnew
        rw [remembered?, Option.map_eq_some_iff] at h
        obtain ⟨entry, hentry, rfl⟩ := h
        rw [remembered?, hnew.2.2, List.find?_append, hentry, Option.some_or, Option.map_some]
  | isRepository => rw [remembered?, Request.perform, blames_isRepository]; exact h
  | currentCommit => rw [remembered?, Request.perform, blames_currentCommit]; exact h
  | lastModified other => rw [remembered?, Request.perform, blames_lastModified]; exact h
  | size => exact h
  | rescript script => exact h

/-- A remembered blame is answered as it is after any session that does not clear the memory,
whatever the outside world has come to answer, and answering it changes nothing. -/
theorem session_of_remembered {later : List Request} (hclear : Request.clear ∉ later)
    (h : remembered? file commit w = some rows) :
    (blame root file commit).run (session root later w) = (.ok rows, session root later w) := by
  induction later generalizing w with
  | nil => exact run_blame_of_remembered h
  | cons request later ih =>
    rw [List.mem_cons, not_or] at hclear
    exact ih hclear.2 (remembered?_perform (Ne.symm hclear.1) h)

/-- What a session with a fresh memory knows of blames. As many are remembered as keys were read
since the memory was last cleared. A key that was read is answered by rows that stay the same,
without a change to anything, until the memory is cleared. A key that was not runs its command,
where there is a history; when that brings rows they are the answer from then on until the memory is
cleared, and when it does not, no blame is remembered or forgotten, and the key is as unread as
before. -/
theorem session_blame (root : Text) (requests : List Request) (hfresh : w.memory = {}) :
    let now := session root requests w
    let read := readKeys root requests w ∅
    size now = read.card ∧
      ∀ file commit,
        let asked := (blame root file commit).run now
        ((file, commit) ∈ read → ∃ rows, ∀ later, Request.clear ∉ later →
          (blame root file commit).run (session root later now) =
            (.ok rows, session root later now)) ∧
        ((file, commit) ∉ read →
          (asked.2.host.calls = (isRepository root now).2.host.calls ++
            if (isRepository root now).1 then [blameLine file] else []) ∧
          match brings? root file now with
          | some rows => asked.1 = .ok rows ∧ ∀ later, Request.clear ∉ later →
              (blame root file commit).run (session root later asked.2) =
                (.ok rows, session root later asked.2)
          | none => asked.2.memory.blames = now.memory.blames ∧
              (file, commit) ∉ readKeys root (requests ++ [.blame file commit]) w ∅) := by
  have hstart : Remembers ∅ w := ⟨by simp [hfresh], by simp [hfresh]⟩
  have hnow := remembers_session root requests hstart
  intro now read
  refine ⟨hnow.size_eq, fun file commit => ⟨fun hread => ?_, fun hunread => ?_⟩⟩
  · -- a key that was read is remembered
    obtain ⟨rows, hrows⟩ := exists_remembered_iff.mpr ((hnow.mem_iff _).mp hread)
    exact ⟨rows, fun later hclear => session_of_remembered hclear hrows⟩
  · have hnew : remembered? file commit now = none :=
      remembered?_eq_none_iff.mpr (mt (hnow.mem_iff _).mpr hunread)
    obtain ⟨hcalls, hasked⟩ := run_blame_of_new root hnew
    refine ⟨hcalls, ?_⟩
    cases hbrings : brings? root file now with
    | none =>
      rw [hbrings] at hasked
      refine ⟨hasked, ?_⟩
      rw [readKeys_append, readKeys, readKeys]
      show (file, commit) ∉
        if (brings? root file now).isSome then insert (file, commit) read else read
      simpa [hbrings] using hunread
    | some rows =>
      rw [hbrings] at hasked
      refine ⟨hasked.1, fun later hclear => session_of_remembered hclear ?_⟩
      -- the rows stand at the end of the memory, and no entry before them has their key
      rw [remembered?, Option.map_eq_none_iff] at hnew
      rw [remembered?, hasked.2, List.find?_append, hnew]
      simp

/-- A world whose version control program finds nothing to say of a file, and then fails. -/
def oneEmptyBlame : World where
  files := .dir []
  host.script :=
    [(Host.key ("git" :: probe), [.exited 0 [] []]),
      (Host.key ("git" :: blameArguments ['a']), [.exited 0 [] [], .exited 1 [] []])]

/-- An empty blame counts as read, and is answered again though its command would fail by then. -/
theorem session_blame_one_empty :
    let now := session [] [.blame ['a'] ['c']] oneEmptyBlame
    oneEmptyBlame.memory = {} ∧ size now = 1 ∧
      ∃ rows, ∀ later, Request.clear ∉ later →
        (blame [] ['a'] ['c']).run (session [] later now) = (.ok rows, session [] later now) := by
  have hfresh : oneEmptyBlame.memory = {} := rfl
  have hread : readKeys [] [.blame ['a'] ['c']] oneEmptyBlame ∅ =
      {(['a'], ['c'])} := by decide
  obtain ⟨hsize, hblames⟩ := session_blame [] [.blame ['a'] ['c']] hfresh
  rw [hread] at hsize hblames
  exact ⟨hfresh, hsize, (hblames ['a'] ['c']).1 (by simp)⟩

end DebtSurvey.History
