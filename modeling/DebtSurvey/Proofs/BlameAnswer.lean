import DebtSurvey.Proofs.BlameHeader
import DebtSurvey.Proofs.BlameMemory

/-!
# When a blame is answered

Asking for the blame of a file is answered with rows, be they none: what is remembered is answered as
it is, and neither a missing history nor a command that fails, in whatever way, is more than a reason
for no rows. What a command prints is read, however, and there is one thing that cannot be read: a
header with a line number of too many digits. Then the question is not answered at all. No blame is
remembered or forgotten by that.

## Main results

* `History.fst_run_blame`: the answer, from what is remembered and what the command prints.
* `History.blame_ok_iff`: there is an answer if and only if every header that is printed can be read.
-/

namespace DebtSurvey.History

/-- What the command for the blame of a file prints, if it is run and succeeds. It is run where the
blame is not remembered and there is a history. -/
def printed? (root file commit : Text) (w : World) : Option Text :=
  match remembered? file commit w, isRepository root w with
  | none, (true, w) => (ask (blameArguments file) w).1.toOption
  | _, _ => none

/-- Asking for a blame is answered with what is printed, if it can be read. Without that it is
answered with what is remembered, or with no rows. -/
theorem fst_run_blame (root file commit : Text) (w : World) :
    ((blame root file commit).run w).1 =
      match printed? root file commit w with
      | some output => Porcelain.parse output
      | none => .ok ((remembered? file commit w).getD []) := by
  rw [run_blame]
  unfold printed?
  cases remembered? file commit w with
  | some rows => rfl
  | none =>
    rcases isRepository root w with ⟨_ | _, v⟩
    · rfl
    · -- there is a history, so the command is run
      unfold askBlame
      rcases hask : ask (blameArguments file) v with ⟨cause | output, u⟩
      · simp only [hask]
        rfl
      · cases hparse : Porcelain.parse output <;> simp [hask, hparse, Except.toOption]

/-- Asking for a blame is answered with rows if and only if the line number of every header can be
read that the command prints, if it is run and succeeds. In particular it is answered where the blame
is remembered, and with no rows where there is no history or the command fails. Where it is not
answered no blame is remembered or forgotten. -/
theorem blame_ok_iff (root file commit : Text) (w : World) :
    let asked := (blame root file commit).run w
    ((∃ rows, asked.1 = .ok rows) ↔
      ∀ output, printed? root file commit w = some output →
        ∀ line ∈ Text.breakLines output, ∀ h : Porcelain.Header line, h.IsReadable) ∧
    (printed? root file commit w = none →
      asked.1 = .ok ((remembered? file commit w).getD [])) ∧
    ∀ e, asked.1 = .error e → asked.2.memory.blames = w.memory.blames := by
  refine ⟨?_, fun hnone => ?_, fun e herror => ?_⟩
  · rw [fst_run_blame]
    cases printed? root file commit w with
    | none => simp
    | some output => simp [Porcelain.exists_rows_iff]
  · rw [fst_run_blame, hnone]
  · cases hknown : remembered? file commit w with
    | some rows =>
      rw [run_blame_of_remembered hknown] at herror
      cases herror
    | none =>
      have hnew := (run_blame_of_new root hknown).2
      cases hbrings : brings? root file w with
      | none =>
        rw [hbrings] at hnew
        exact hnew
      | some rows =>
        -- rows that the command brings are an answer
        rw [hbrings] at hnew
        rw [hnew.1] at herror
        cases herror

/-- A header with a line number of one digit more than can be read. -/
def longHeader : Text :=
  List.replicate 40 'a' ++ ' ' :: ("1" ++ ' ' :: (List.replicate (Text.digitLimit + 1) '1' ++ []))

/-- A world whose version control program prints that header. -/
def longBlame : World where
  files := .dir []
  host.script :=
    [(Host.key ("git" :: probe), [.exited 0 [] []]),
      (Host.key ("git" :: blameArguments ['a']), [.exited 0 longHeader []])]

/-- Asking for the blame is not answered then. -/
theorem blame_ok_iff_longHeader :
    (∃ h : Porcelain.Header longHeader, ¬h.IsReadable) ∧
      printed? [] ['a'] ['c'] longBlame = some longHeader ∧
      ((blame [] ['a'] ['c']).run longBlame).1 = .error .lineNumberTooLong ∧
      ((blame [] ['a'] ['c']).run longBlame).2.memory.blames = [] := by
  have hdigits : Porcelain.IsNumeral (List.replicate (Text.digitLimit + 1) '1') := by
    refine ⟨by simp, fun c hc => ?_⟩
    rw [List.eq_of_mem_replicate hc]
    decide
  obtain ⟨h, hlong⟩ : ∃ h : Porcelain.Header longHeader, ¬h.IsReadable := by
    refine ⟨⟨List.replicate 40 'a', "1", List.replicate (Text.digitLimit + 1) '1', [], rfl,
      by decide, Porcelain.isNumeral_ofNat 1, hdigits, nofun⟩, ?_⟩
    show ¬(List.replicate (Text.digitLimit + 1) '1').length ≤ Text.digitLimit
    rw [List.length_replicate]
    exact Nat.not_succ_le_self Text.digitLimit
  have hprinted : printed? [] ['a'] ['c'] longBlame = some longHeader := rfl
  have hline : longHeader ∈ Text.breakLines longHeader := by decide +kernel
  obtain ⟨hok, -, hkeeps⟩ := blame_ok_iff [] ['a'] ['c'] longBlame
  rcases hasked : ((blame [] ['a'] ['c']).run longBlame).1 with ⟨⟨⟩⟩ | rows
  · exact ⟨⟨h, hlong⟩, hprinted, rfl, hkeeps _ hasked⟩
  · exact absurd (hok.mp ⟨rows, hasked⟩ _ hprinted _ hline h) hlong

end DebtSurvey.History
