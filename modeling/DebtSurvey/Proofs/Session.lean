import DebtSurvey.Proofs.FindingKinds
import DebtSurvey.Proofs.KnownHistory
import DebtSurvey.Proofs.ScanFailure

/-!
# Sessions of scans

A session scans a workspace, or one of its files, again and again. In between blames are forgotten,
files come and go, the outside world changes its mind about every command, and every request comes
with settings of its own. Through all of it the workspace is asked only once whether it has a
history.

The first request that finds the workspace asks, and goes on as if the answer had been known before
(`Scan.perform_probed`). From there on every request keeps what is known, and without a history it
runs nothing but its audit (`Scan.Ready.perform`).

## Main results

* `Scan.Ready.perform`: what a request does once it is known whether there is a history.
* `Scan.Fresh.perform_of_finds`: what the first request that finds the workspace does before that.
* `Scan.session_history`: the history in a session.
-/

namespace DebtSurvey

open History (probeLine)

namespace Scan

/-! ### Requests -/

/-- What happens in a session. -/
inductive Request where
  /-- Scan the workspace. -/
  | scan (schedule : Schedule) (settings : Settings)
  /-- Scan one file only. -/
  | scanFile (file : Text) (settings : Settings)
  /-- Forget all blame. -/
  | clear
  /-- From here on there are other files. -/
  | refile (files : Node)
  /-- From here on the outside world answers by another script. -/
  | rescript (script : Script)
  /-- The clock is set. -/
  | setClock (clock : Int)

/-- What a request gives. -/
inductive Outcome where
  /-- A map of the workspace, or why there is none. -/
  | scanned (result : Except Fault (DebtMap × List Progress))
  /-- The findings of a file, or why there are none. -/
  | inspected (result : Except Fault (List Finding))
  /-- Nothing. -/
  | nothing

/-- What a request gives, and the world after it. -/
def Request.perform (root : Text) : Request → World → Outcome × World
  | .scan schedule settings, w =>
    let (result, w) := Scan.scan schedule root settings w
    (.scanned result, w)
  | .scanFile file settings, w =>
    let (result, w) := Scan.scanFile root file settings w
    (.inspected result, w)
  | .clear, w => (.nothing, History.clear w)
  | .refile files, w => (.nothing, { w with files })
  | .rescript script, w => (.nothing, { w with host.script := script })
  | .setClock clock, w => (.nothing, { w with clock })

/-- What the requests of a session give, one after the other, and the world after them. -/
def session (root : Text) : List Request → World → List Outcome × World
  | [], w => ([], w)
  | request :: rest, w =>
    let (outcome, w) := request.perform root w
    let (outcomes, w) := session root rest w
    (outcome :: outcomes, w)

/-- Whether a request looks for the workspace and finds it. -/
def Request.finds (root : Text) : Request → World → Bool
  | .scan .., w => w.files.hasDirectory root
  | .scanFile .., w => w.files.hasDirectory root
  | _, _ => false

/-- What the outside world answers to the first request of a session that finds the workspace, when
it is asked whether there is a history; nothing if no request does. -/
def firstAnswer? (root : Text) : List Request → World → Option Bool
  | [], _ => none
  | request :: rest, w =>
    if request.finds root w then some (History.ask History.probe w).1.isOk
    else firstAnswer? root rest (request.perform root w).2

/-- The audit that a request runs: a scan runs one when it finds the workspace, its files and a
declaration of dependencies. -/
def Request.audit (root : Text) : Request → World → List Text
  | .scan _ settings, w =>
    if w.files.hasDirectory root ∧ (sourceFiles w.files root settings).isOk ∧
        w.files.hasPath (Path.append root Audit.manifest) then
      [Host.key settings.auditCommand]
    else []
  | _, _ => []

/-- The audits that are run in a session, in order. -/
def audits (root : Text) : List Request → World → List Text
  | [], _ => []
  | request :: rest, w => request.audit root w ++ audits root rest (request.perform root w).2

/-- What a request gives is without anything from history. -/
def Outcome.IsUndated : Outcome → Prop
  | .scanned (.ok (map, _)) => map.commit = [] ∧ ∀ f ∈ map.findings, f.IsUndated
  | .inspected (.ok found) => ∀ f ∈ found, f.IsUndated
  | _ => True

/-! ### What a request does once that is known -/

/-- What has happened in a session since it was known whether there is a history: audits were run,
and where there is no history nothing else. The user was told nothing. -/
structure Account (known : Bool) (audits : List Text) (start w : World) : Prop where
  ready : Ready known w
  notices : w.notices = start.notices
  probes : w.host.calls.count probeLine =
    start.host.calls.count probeLine + audits.count probeLine
  idle : known = false → w.host.calls = start.host.calls ++ audits

section Account

variable {known : Bool} {start w v : World} {ran later : List Text}

theorem Since.account (h : Since known start w) (hready : Ready known start) :
    Account known [] start w where
  ready := h.ready hready
  notices := h.notices
  probes := h.probes
  idle hknown := (h.idle hknown).2.trans (List.append_nil _).symm

theorem Account.trans (h : Account known ran start w) (h' : Account known later w v) :
    Account known (ran ++ later) start v where
  ready := h'.ready
  notices := h'.notices.trans h.notices
  probes := by rw [h'.probes, h.probes, List.count_append, Nat.add_assoc]
  idle hknown := by rw [h'.idle hknown, h.idle hknown, List.append_assoc]

theorem Account.since (h : Account known ran start w) (h' : Since known w v) :
    Account known ran start v := by
  have hall := h.trans (h'.account h.ready)
  rwa [List.append_nil] at hall

/-- An audit runs its command, if the workspace declares dependencies. -/
theorem Ready.audit (h : Ready known w) (root : Text) (command : List Text) (limits : Audit.Limits) :
    Account known
      (if w.files.hasPath (Path.append root Audit.manifest) then [Host.key command] else []) w
      (Audit.scan root command limits w).2 := by
  unfold Audit.scan
  split
  · -- whatever the answer is, one more command line was run
    have hrun : Account known [Host.key command] w
        { w with host := (w.host.ask (Host.key command)).2 } :=
      ⟨⟨h.repository, h.noticed, h.blames⟩, rfl, List.count_append, fun _ => rfl⟩
    simp only [Host.runLine_eq]
    split
    · exact hrun
    · exact hrun.since ((Since.refl known _).note _)
    · split
      · exact hrun
      · exact hrun
      · exact hrun.since ((Since.refl known _).note _)
  · exact (Since.refl known w).account h

/-- The end of a scan runs its audit. Without a history it finds nothing but dependencies. -/
theorem Ready.conclude (h : Ready known w) (root : Text) (settings : Settings) (commit : Text)
    (clock : Int) (files : List Text) (inFiles : List Finding) :
    Account known
        (if w.files.hasPath (Path.append root Audit.manifest) then [Host.key settings.auditCommand]
          else []) w (conclude root settings commit clock files inFiles w).2 ∧
      ∀ map, known = false →
        (conclude root settings commit clock files inFiles w).1 = .ok map →
          map.commit = commit ∧ ∀ f ∈ map.findings, f ∈ inFiles ∨ f.kind = .dep := by
  have haudit := h.audit root settings.auditCommand Audit.limits
  unfold Scan.conclude
  rcases hrun : Audit.scan root settings.auditCommand Audit.limits w
    with ⟨_ | dependencies, v⟩ <;> rw [hrun] at haudit
  · exact ⟨haudit, fun map _ hmap => nomatch hmap⟩
  · -- counting imports only adds notes
    have hcounted : Since known v (countImports root files v).2 :=
      ⟨rfl, rfl, rfl, rfl, rfl, fun _ => ⟨rfl, rfl⟩⟩
    obtain ⟨hstale, hnone⟩ := Since.staleness haudit.ready root settings.staleDays
      settings.staleImports (countImports root files v).1 clock files hcounted
    simp only
    rcases hscan : Staleness.scan root settings.staleDays settings.staleImports
      (countImports root files v).1 clock files (countImports root files v).2
      with ⟨_ | stale, u⟩ <;> rw [hscan] at hstale hnone
    · exact ⟨haudit.since hstale, fun map _ hmap => nomatch hmap⟩
    · refine ⟨haudit.since hstale, fun map hknown hmap => ?_⟩
      obtain rfl := Except.ok.inj hmap
      obtain rfl := hnone stale hknown rfl
      refine ⟨rfl, fun f hf => ?_⟩
      rw [List.append_nil] at hf
      have hdependencies := Audit.kind_of_scan (congrArg Prod.fst hrun)
      exact (List.mem_append.mp hf).imp_right (hdependencies f)

/-- Without any blame the findings of a file are undated. -/
theorem undated_fileResult (files : Node) (root : Text) (settings : Settings) (clock : Int)
    (file : Text) :
    ∀ f ∈ found (fileResult files root settings clock file (.ok []) (.ok [])), f.IsUndated := by
  intro f hf
  rcases mem_found_fileResult hf with ⟨source, hmarker⟩ | hfunction
  · exact Marker.findings_undated _ _ _ _ hmarker
  · exact Code.complexityFindings_undated _ _ _ _ hfunction

/-- A scan runs its audit. Without a history its map has no commit and nothing dated. -/
theorem Ready.scan (h : Ready known w) (root : Text) (schedule : Schedule) (settings : Settings) :
    Account known ((Request.scan schedule settings).audit root w) w
        (Scan.scan schedule root settings w).2 ∧
      (known = false → (Outcome.scanned (Scan.scan schedule root settings w).1).IsUndated) := by
  rw [scan_eq_search]
  by_cases hroot : w.files.hasDirectory root
  · obtain ⟨commit, hok⟩ := currentCommit_ok hroot
    obtain ⟨hstart, hcommit⟩ := (Since.refl known w).scanCommit h root
    rcases hcurrent : Scan.currentCommit root w with ⟨result, start⟩
    rw [hcurrent] at hok hstart hcommit
    obtain rfl : result = .ok commit := hok
    -- whatever is asked in the search, nothing of account happens in it
    obtain ⟨after, hafter, hsearch⟩ := search_ensures (Since.workInvariant known w) hcurrent
      (fun file => h.ensures_blame root file commit) schedule settings hstart
    rcases hsource : sourceFiles w.files root settings with cause | ⟨names, event⟩ <;>
      rw [hsource] at hsearch
    · have haudit : (Request.scan schedule settings).audit root w = [] := by
        simp [Request.audit, hsource, Except.isOk, Except.toBool]
      rw [hsearch, haudit]
      exact ⟨hafter.account h, fun _ => trivial⟩
    · obtain ⟨results, hsearch, hresults⟩ := hsearch
      have haudit : (Request.scan schedule settings).audit root w =
          if after.files.hasPath (Path.append root Audit.manifest) then
            [Host.key settings.auditCommand]
          else [] := by
        simp [Request.audit, hroot, hsource, hafter.files, Except.isOk, Except.toBool]
      obtain ⟨hend, hfound⟩ := (hafter.ready h).conclude root settings commit w.clock names
        (results.flatMap found)
      rw [hsearch, haudit]
      refine ⟨(hafter.account h).trans hend, fun hknown => ?_⟩
      simp only
      rcases hmap : Scan.conclude root settings commit w.clock names (results.flatMap found) after
        with ⟨_ | map, last⟩
      · trivial
      · rw [hmap] at hfound
        obtain ⟨rfl, hkinds⟩ := hfound map hknown rfl
        refine ⟨hcommit _ hknown rfl, fun f hf => ?_⟩
        -- what is not from a file is from the audit, for there are no stale files
        rcases hkinds f hf with hfile | hdependency
        · refine forall_found hresults ?_ f hfile
          rintro file result ⟨marked, complex, hmarked, hcomplex, rfl⟩
          rw [hmarked hknown, hcomplex hknown]
          exact undated_fileResult _ _ _ _ _
        · exact Finding.isUndated_of_dep hdependency
  · rw [Scan.search, currentCommit_of_missing hroot, Request.audit,
      if_neg fun hall => hroot hall.1]
    exact ⟨(Since.refl known w).account h, fun _ => trivial⟩

/-- A scan of one file does its work in the world that finding the commit leaves. -/
theorem scanFile_eq (root file : Text) (settings : Settings) (w : World) :
    Scan.scanFile root file settings w =
      match currentCommit root w with
      | (.error e, w) => (.error e, w)
      | (.ok commit, start) =>
        let (result, after) := (fileWork root file commit settings start.clock).run start
        (result.mapError .blame, after) := by
  unfold Scan.scanFile
  rw [Action.bind_apply]
  rcases currentCommit root w with ⟨_ | commit, start⟩ <;> rfl

/-- A scan of one file runs no audit. Without a history its findings are undated. -/
theorem Ready.scanFile (h : Ready known w) (root file : Text) (settings : Settings) :
    Account known [] w (Scan.scanFile root file settings w).2 ∧
      (known = false → (Outcome.inspected (Scan.scanFile root file settings w).1).IsUndated) := by
  obtain ⟨hstart, -⟩ := (Since.refl known w).scanCommit h root
  rw [scanFile_eq]
  rcases hcurrent : currentCommit root w with ⟨_ | commit, start⟩ <;> rw [hcurrent] at hstart
  · exact ⟨hstart.account h, fun _ => trivial⟩
  · have hwork := ensures_fileWork (Since.workInvariant known w) (h.ensures_blame root file commit)
      settings start.clock
    obtain ⟨⟨marked, complex, hmarked, hcomplex, hresult⟩, hafter⟩ := hwork.run hstart
    refine ⟨hafter.account h, fun hknown => ?_⟩
    rw [hmarked hknown, hcomplex hknown] at hresult
    have hundated := undated_fileResult w.files root settings start.clock file
    simp only
    rw [hresult]
    cases hfound : fileResult w.files root settings start.clock file (.ok []) (.ok []) with
    | error e => trivial
    | ok found =>
      rw [hfound] at hundated
      exact hundated

/-- Once it is known whether there is a history, a request is accounted for by its audit. Without a
history it gives nothing that history could have added. -/
theorem Ready.perform (h : Ready known w) (root : Text) (request : Request) :
    Account known (request.audit root w) w (request.perform root w).2 ∧
      (known = false → (request.perform root w).1.IsUndated) := by
  -- what happens outside of the scans leaves alone what is known and what was run
  have hquiet : ∀ {v : World}, v.memory.repository = w.memory.repository →
      v.memory.blames = w.memory.blames ∨ v.memory.blames = [] → v.noticed = w.noticed →
      v.notices = w.notices → v.host.calls = w.host.calls → Account known [] w v := by
    intro v hrepository hblames hnoticed hnotices hcalls
    refine ⟨⟨hrepository.trans h.repository, hnoticed.trans h.noticed, fun hknown => ?_⟩, hnotices,
      by rw [hcalls]; rfl, fun _ => by rw [hcalls, List.append_nil]⟩
    rcases hblames with hsame | hnone
    · exact hsame.trans (h.blames hknown)
    · exact hnone
  cases request with
  | scan schedule settings => exact h.scan root schedule settings
  | scanFile file settings => exact h.scanFile root file settings
  | clear => exact ⟨hquiet rfl (.inr rfl) rfl rfl rfl, fun _ => trivial⟩
  | refile files => exact ⟨hquiet rfl (.inl rfl) rfl rfl rfl, fun _ => trivial⟩
  | rescript script => exact ⟨hquiet rfl (.inl rfl) rfl rfl rfl, fun _ => trivial⟩
  | setClock clock => exact ⟨hquiet rfl (.inl rfl) rfl rfl rfl, fun _ => trivial⟩

/-- Once it is known whether there is a history, a session is accounted for by its audits. -/
theorem Ready.session (h : Ready known w) (root : Text) (requests : List Request) :
    Account known (audits root requests w) w (session root requests w).2 ∧
      (known = false → ∀ outcome ∈ (session root requests w).1, outcome.IsUndated) := by
  induction requests generalizing w with
  | nil => exact ⟨(Since.refl known w).account h, fun _ => List.forall_mem_nil _⟩
  | cons request rest ih =>
    obtain ⟨hfirst, hundated⟩ := h.perform root request
    obtain ⟨hrest, hothers⟩ := ih hfirst.ready
    exact ⟨hfirst.trans hrest, fun hknown =>
      List.forall_mem_cons.mpr ⟨hundated hknown, hothers hknown⟩⟩

end Account

/-! ### The first request that finds the workspace -/

/-- The world once it is known whether there is a history, and the user has been told if there is
none. -/
def probed (root : Text) (w : World) : World :=
  match History.isRepository root w with
  | (true, w) => w
  | (false, w) => tellNoHistory w

/-- Nothing has been asked about history yet, and nobody was told that there is none. -/
structure Fresh (w : World) : Prop where
  memory : w.memory = {}
  noticed : w.noticed = false

section Fresh

variable {w : World} {root : Text}

/-- At first the outside world is asked whether there is a history, and the user is told if there is
none. -/
theorem Fresh.probed (h : Fresh w) (root : Text) :
    Ready (History.ask History.probe w).1.isOk (probed root w) ∧
      (Scan.probed root w).files = w.files ∧
      (Scan.probed root w).notices = w.notices ++
        (if (History.ask History.probe w).1.isOk then [] else [noHistoryNotice]) ∧
      (Scan.probed root w).host.calls = w.host.calls ++ [probeLine] := by
  have hunknown : w.memory.repository = none := by rw [h.memory]
  have hblames : w.memory.blames = [] := by rw [h.memory]
  have hcalls : (History.ask History.probe w).2.host.calls = w.host.calls ++ [probeLine] := rfl
  obtain ⟨result, host, hask⟩ := History.exists_ask History.probe w
  rw [hask] at hcalls
  unfold Scan.probed History.isRepository
  -- nothing is remembered, so the answer decides; a refusal also makes the user be told
  rw [hunknown]
  simp only [hask]
  cases result with
  | ok output => exact ⟨⟨rfl, h.noticed, nofun⟩, rfl, (List.append_nil _).symm, hcalls⟩
  | error cause =>
    simp only [tellNoHistory, World.note, h.noticed, Bool.false_eq_true, if_false]
    exact ⟨⟨rfl, rfl, fun _ => hblames⟩, trivial, rfl, hcalls⟩

/-- The user is told only once. -/
theorem tellNoHistory_tellNoHistory (w : World) :
    tellNoHistory (tellNoHistory w) = tellNoHistory w := by
  have htold : (tellNoHistory w).noticed = true := by
    unfold tellNoHistory
    split
    · assumption
    · rfl
  rw [tellNoHistory, if_pos htold]

/-- Telling the user changes neither the files nor what is remembered. -/
theorem tellNoHistory_keeps (w : World) :
    (tellNoHistory w).files = w.files ∧ (tellNoHistory w).memory = w.memory := by
  unfold tellNoHistory
  split <;> exact ⟨rfl, rfl⟩

/-- Finding the commit asks first whether there is a history, and tells the user if not. -/
theorem currentCommit_probed (hroot : w.files.hasDirectory root) :
    currentCommit root (probed root w) = currentCommit root w := by
  have hknown := History.repository_isRepository root w
  have hfiles := (History.isRepository_settles root w).2.1
  obtain ⟨known, v, hrep⟩ : ∃ known v, History.isRepository root w = (known, v) := ⟨_, _, rfl⟩
  rw [hrep] at hknown hfiles
  replace hfiles : v.files = w.files := hfiles
  -- asked again, the same is found in memory, and telling the user again changes nothing
  rw [probed, currentCommit, currentCommit, if_pos hroot, hrep]
  cases known with
  | true =>
    simp only
    rw [if_pos (hfiles ▸ hroot), History.isRepository_of_known hknown]
  | false =>
    obtain ⟨hsame, hmemory⟩ := tellNoHistory_keeps v
    have hstill : (tellNoHistory v).memory.repository = some false := by rw [hmemory]; exact hknown
    simp only
    rw [if_pos (by rw [hsame, hfiles]; exact hroot), History.isRepository_of_known hstill]
    simp only [tellNoHistory_tellNoHistory]

/-- The first request that finds the workspace goes on as if it had been known whether there is a
history. -/
theorem perform_probed {request : Request} (h : request.finds root w) :
    request.perform root (probed root w) = request.perform root w := by
  cases request with
  | scan schedule settings =>
    rw [Request.perform, Request.perform, scan_eq, scan_eq, currentCommit_probed h]
  | scanFile file settings =>
    rw [Request.perform, Request.perform, scanFile_eq, scanFile_eq, currentCommit_probed h]
  | clear | refile | rescript | setClock => cases h

/-- A request that does not find the workspace asks nothing and gives nothing. -/
theorem Fresh.perform_of_not_finds (h : Fresh w) {request : Request}
    (hmissing : request.finds root w = false) :
    Fresh (request.perform root w).2 ∧ (request.perform root w).2.notices = w.notices ∧
      (request.perform root w).2.host.calls = w.host.calls ∧ request.audit root w = [] ∧
      (request.perform root w).1.IsUndated := by
  cases request with
  | scan schedule settings =>
    have hroot : ¬w.files.hasDirectory root := by simpa [Request.finds] using hmissing
    rw [Request.perform, scan_eq, currentCommit_of_missing hroot, Request.audit,
      if_neg fun hall => hroot hall.1]
    exact ⟨h, rfl, rfl, rfl, trivial⟩
  | scanFile file settings =>
    have hroot : ¬w.files.hasDirectory root := by simpa [Request.finds] using hmissing
    rw [Request.perform, scanFile_eq, currentCommit_of_missing hroot]
    exact ⟨h, rfl, rfl, rfl, trivial⟩
  | clear =>
    refine ⟨⟨?_, h.noticed⟩, rfl, rfl, rfl, trivial⟩
    rw [Request.perform, History.clear, h.memory]
  | refile files => exact ⟨⟨h.memory, h.noticed⟩, rfl, rfl, rfl, trivial⟩
  | rescript script => exact ⟨⟨h.memory, h.noticed⟩, rfl, rfl, rfl, trivial⟩
  | setClock clock => exact ⟨⟨h.memory, h.noticed⟩, rfl, rfl, rfl, trivial⟩

/-- The first request that finds the workspace asks once whether there is a history, and the user is
told if there is none; from there on that is known. -/
theorem Fresh.perform_of_finds (h : Fresh w) {request : Request} (hfinds : request.finds root w) :
    let known := (History.ask History.probe w).1.isOk
    let after := (request.perform root w).2
    Ready known after ∧
      after.notices = w.notices ++ (if known then [] else [noHistoryNotice]) ∧
      after.host.calls.count probeLine =
        w.host.calls.count probeLine + 1 + (request.audit root w).count probeLine ∧
      (known = false → after.host.calls = w.host.calls ++ probeLine :: request.audit root w ∧
        (request.perform root w).1.IsUndated) := by
  obtain ⟨hready, hfiles, hnotices, hcalls⟩ := h.probed root
  obtain ⟨haccount, hundated⟩ := hready.perform root request
  -- the audit depends on the files only, and asking about history leaves them alone
  have haudit : request.audit root (Scan.probed root w) = request.audit root w := by
    cases request with
    | scan schedule settings => rw [Request.audit, Request.audit, hfiles]
    | scanFile | clear | refile | rescript | setClock => rfl
  rw [perform_probed hfinds, haudit] at haccount
  rw [perform_probed hfinds] at hundated
  refine ⟨haccount.ready, haccount.notices.trans hnotices, ?_, fun hknown => ⟨?_, hundated hknown⟩⟩
  · rw [haccount.probes, hcalls, List.count_append, List.count_singleton_self]
  · rw [haccount.idle hknown, hcalls, List.append_assoc, List.singleton_append]

/-- What a session knows of history, from the start. -/
theorem Fresh.session (h : Fresh w) (root : Text) (requests : List Request) :
    let outcomes := (session root requests w).1
    let after := (session root requests w).2
    match firstAnswer? root requests w with
    | none => Fresh after ∧ after.notices = w.notices ∧ after.host.calls = w.host.calls
    | some known =>
      Ready known after ∧
      after.notices = w.notices ++ (if known then [] else [noHistoryNotice]) ∧
      after.host.calls.count probeLine =
        w.host.calls.count probeLine + 1 + (audits root requests w).count probeLine ∧
      (known = false →
        after.host.calls = w.host.calls ++ probeLine :: audits root requests w ∧
        ∀ outcome ∈ outcomes, outcome.IsUndated) := by
  induction requests generalizing w with
  | nil => exact ⟨h, rfl, rfl⟩
  | cons request rest ih =>
    rw [firstAnswer?]
    by_cases hfinds : request.finds root w
    · -- the others go on from where it is known whether there is a history
      obtain ⟨hready, hnotices, hprobes, hfirst⟩ := h.perform_of_finds hfinds
      obtain ⟨haccount, hothers⟩ := hready.session root rest
      rw [if_pos hfinds]
      refine ⟨haccount.ready, haccount.notices.trans hnotices, ?_, fun hknown => ⟨?_, ?_⟩⟩
      · rw [Scan.audits, List.count_append, ← Nat.add_assoc, ← hprobes]
        exact haccount.probes
      · rw [Scan.audits, ← List.cons_append, ← List.append_assoc, ← (hfirst hknown).1]
        exact haccount.idle hknown
      · exact List.forall_mem_cons.mpr ⟨(hfirst hknown).2, hothers hknown⟩
    · -- nothing has happened, so the others go on from the start
      have hmissing : request.finds root w = false := by simpa using hfinds
      obtain ⟨hfresh, hnotices, hcalls, haudit, hundated⟩ := h.perform_of_not_finds hmissing
      have hothers := ih hfresh
      rw [if_neg hfinds]
      rw [hnotices, hcalls] at hothers
      rw [Scan.audits, haudit, List.nil_append]
      split at hothers
      · exact hothers
      · obtain ⟨hready, hnotices, hprobes, hrest⟩ := hothers
        exact ⟨hready, hnotices, hprobes, fun hknown =>
          ⟨(hrest hknown).1, List.forall_mem_cons.mpr ⟨hundated, (hrest hknown).2⟩⟩⟩

/-- As long as nothing was asked, a request tells the user something when it finds the workspace and
is answered that there is no history. -/
theorem Fresh.notices_perform (h : Fresh w) (root : Text) (request : Request) :
    (request.perform root w).2.notices = w.notices ++
      if request.finds root w ∧ (History.ask History.probe w).1.isOk = false then [noHistoryNotice]
      else [] := by
  by_cases hfinds : request.finds root w
  · rw [(h.perform_of_finds hfinds).2.1]
    cases (History.ask History.probe w).1.isOk <;> simp [hfinds]
  · rw [(h.perform_of_not_finds (by simpa using hfinds)).2.1]
    simp [hfinds]

/-- Whether a workspace has a history is asked once in a session at most: by the first request that
finds the workspace, and else that command line is run by audits only. If the answer is no, then
nothing is run apart from that question and from audits, no blame is remembered, and nothing that
the session gives has anything from history; the user is told once. Otherwise the user is told
nothing.

It is the request that asks which tells the user, before anything else can happen: a further request
tells something only if none before it has found the workspace, and it finds it and is answered that
there is none. -/
theorem session_history (root : Text) (requests : List Request) (h : Fresh w) :
    let outcomes := (session root requests w).1
    let after := (session root requests w).2
    (match firstAnswer? root requests w with
      | none => after.host.calls = w.host.calls ∧ after.notices = w.notices
      | some true =>
        after.host.calls.count probeLine =
          w.host.calls.count probeLine + 1 + (audits root requests w).count probeLine ∧
        after.notices = w.notices
      | some false =>
        after.host.calls = w.host.calls ++ probeLine :: audits root requests w ∧
        after.notices = w.notices ++ [noHistoryNotice] ∧
        History.size after = 0 ∧
        ∀ outcome ∈ outcomes, outcome.IsUndated) ∧
      ∀ request : Request, (request.perform root after).2.notices = after.notices ++
        if firstAnswer? root requests w = none ∧ request.finds root after ∧
            (History.ask History.probe after).1.isOk = false then
          [noHistoryNotice]
        else [] := by
  have hsession := h.session root requests
  cases hanswer : firstAnswer? root requests w with
  | none =>
    rw [hanswer] at hsession
    obtain ⟨hfresh, hnotices, hcalls⟩ := hsession
    refine ⟨⟨hcalls, hnotices⟩, fun request => ?_⟩
    rw [hfresh.notices_perform root request]
    simp only [true_and]
  | some known =>
    rw [hanswer] at hsession
    obtain ⟨hready, hnotices, hprobes, hidle⟩ := hsession
    refine ⟨?_, fun request => ?_⟩
    · cases known with
      | true => exact ⟨hprobes, hnotices.trans (List.append_nil _)⟩
      | false =>
        have hsize : History.size (session root requests w).2 = 0 :=
          congrArg List.length (hready.blames rfl)
        exact ⟨(hidle rfl).1, hnotices, hsize, (hidle rfl).2⟩
    · -- from here on every request knows, and the user does too
      rw [(hready.perform root request).1.notices, if_neg fun hnone => nomatch hnone.1]
      exact (List.append_nil _).symm

end Fresh

/-- A file system with one workspace, which has one file with a marker. -/
def oneMarker : Node := .dir [("w", .dir [("a.py", .file (Text.Utf8.encode "# TODO\n"))])]

/-- A session in which the workspace comes into being, and its history after it was asked for. -/
def lateHistory : List Request :=
  [.scan {} {}, .refile oneMarker, .scanFile "a.py" {},
    .rescript [("git rev-parse --git-dir", [.exited 0 ".git" []])], .clear, .scan ⟨[0], []⟩ {}]

/-- A history that comes into being too late is not noticed. -/
theorem session_history_late :
    Fresh { files := .dir [] } ∧
      let outcomes := (session "/w" lateHistory { files := .dir [] }).1
      let after := (session "/w" lateHistory { files := .dir [] }).2
      after.host.calls = [probeLine] ∧ after.notices = [noHistoryNotice] ∧
        History.size after = 0 ∧ ∀ outcome ∈ outcomes, outcome.IsUndated := by
  have hfresh : Fresh { files := .dir [] } := ⟨rfl, rfl⟩
  have hanswer : firstAnswer? "/w" lateHistory { files := .dir [] } = some false := by
    decide +kernel
  have haudits : audits "/w" lateHistory { files := .dir [] } = [] := by decide +kernel
  have hsession := (session_history "/w" lateHistory hfresh).1
  rw [hanswer, haudits] at hsession
  exact ⟨hfresh, hsession⟩

end Scan

end DebtSurvey
