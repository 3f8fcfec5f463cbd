import DebtSurvey.Proofs.FileRun
import DebtSurvey.Proofs.SourceLines
import DebtSurvey.Proofs.SourceText

/-!
# Whose line a finding is on

A finding of a marker or a function has the author, age and commit of the blame row for its line.
Version control ends lines at newlines only, but the line of a finding is counted in the source text,
where a bare carriage return is a line end too. So a finding is attributed to the line that it stands
on if and only if there is no bare carriage return in front of it; otherwise it is given the history
of a line further down.

## Main results

* `Scan.putAt_of_work`: the line of every finding in a file, from the bytes in front of its place,
  and the blame row that it is attributed to.
-/

namespace DebtSurvey

/-- What a finding takes from a row of blame. Without a row there is no author and no commit; what
counts as its age then depends on the kind of finding. -/
structure Finding.IsCredited (f : Finding) (row : Option BlameRow) (clock : Int) : Prop where
  author : f.author = row.map (·.author)
  lastCommit : f.lastCommit = row.map (·.commit)
  age : ∀ r ∈ row, f.ageInDays = some (Age.days r.timestamp clock)

/-- A finding at a place of a file: its line is that of the place, counted as version control does,
and one more for each bare carriage return in front of it. Its history is that of the blame row for
this line. -/
structure Finding.IsPutAt (f : Finding) (bytes : List UInt8) (above below : Text)
    (rows : List BlameRow) (clock : Int) : Prop where
  exists_place : Nonempty (Source.Place bytes above below)
  line : ∀ p : Source.Place bytes above below, f.line = some ((p.line + p.bareReturns : Nat) : Int)
  line_iff : ∀ p : Source.Place bytes above below,
    f.line = some (p.line : Int) ↔ p.bareReturns = 0
  credited : ∀ n, f.line = some n → f.IsCredited (Porcelain.rowOf? rows n) clock

/-- A finding is put at a place if its line is counted in the source text. -/
theorem Finding.isPutAt {f : Finding} {bytes : List UInt8} {above below : Text}
    {rows : List BlameRow} {clock : Int} (hsource : Source.ofBytes bytes = above ++ below)
    (hline : f.line = some ((above.count '\n' + 1 : Nat) : Int))
    (hcredited : f.IsCredited (Porcelain.rowOf? rows (above.count '\n' + 1 : Nat)) clock) :
    f.IsPutAt bytes above below rows clock where
  exists_place := Source.nonempty_place hsource
  line p := by rw [hline, p.count_above]
  line_iff p := by
    rw [hline, p.count_above, Option.some_inj]
    omega
  credited n hn := by
    obtain rfl := Option.some.inj (hline.symm.trans hn)
    exact hcredited

/-- The line of a finding is one more than the newlines of the source text above its place. -/
theorem Finding.IsPutAt.line_eq {f : Finding} {bytes : List UInt8} {above below : Text}
    {rows : List BlameRow} {clock : Int} (h : f.IsPutAt bytes above below rows clock) :
    f.line = some ((above.count '\n' + 1 : Nat) : Int) := by
  obtain ⟨p⟩ := h.exists_place
  rw [h.line p, p.count_above]

namespace Marker

/-- The finding of a marked line has the history of its number. -/
theorem finding_isCredited (file : Text) (rows : List BlameRow) (clock : Int) (number : Nat)
    (line : Text) :
    (finding file rows clock number line).IsCredited (Porcelain.rowOf? rows number) clock where
  author := rfl
  lastCommit := rfl
  age r hr := by
    rw [Option.mem_def] at hr
    rw [finding, hr]
    rfl

/-- Every finding of a marker is put at the start of a line that is marked. -/
theorem isPutAt_of_mem_findings {words : List Text} {file : Text} {bytes : List UInt8}
    {rows : List BlameRow} {clock : Int} {f : Finding}
    (hf : f ∈ findings words file (Source.ofBytes bytes) rows clock) :
    ∃ n line, (Text.lines (Source.ofBytes bytes))[n]? = some line ∧ (search words line).isSome ∧
      f.message = Text.trim line ∧
      f.IsPutAt bytes (Text.terminated ((Text.lines (Source.ofBytes bytes)).take n))
        (Text.join ['\n'] ((Text.lines (Source.ofBytes bytes)).drop n)) rows clock := by
  obtain ⟨n, line, hline, hsearch, rfl⟩ := mem_findings.mp hf
  have hn : n < (Text.lines (Source.ofBytes bytes)).length :=
    (List.getElem?_eq_some_iff.mp hline).1
  refine ⟨n, line, hline, hsearch, rfl, Finding.isPutAt ?_ ?_ ?_⟩
  · rw [Text.terminated_append_join hn, Text.join_lines]
  · rw [Text.count_terminated_lines hn]
    rfl
  · rw [Text.count_terminated_lines hn]
    exact finding_isCredited file rows clock (n + 1) line

end Marker

namespace Code

/-- The finding of a function has the history of the line of its head. -/
theorem complexityFinding_isCredited (bands : Bands Int) (file : Text) (rows : List BlameRow)
    (clock : Int) (function : Function) (score : Nat) :
    (complexityFinding bands file rows clock function score).IsCredited
      (Porcelain.rowOf? rows function.line) clock where
  author := rfl
  lastCommit := rfl
  age r hr := by
    rw [Option.mem_def] at hr
    rw [complexityFinding, hr]
    rfl

/-- Every finding of a function is put at the head of that function. -/
theorem isPutAt_of_mem_complexityFindings {bands : Bands Int} {file : Text} {bytes : List UInt8}
    {rows : List BlameRow} {clock : Int} {f : Finding}
    (hf : f ∈ complexityFindings bands file (functions (Source.ofBytes bytes)) rows clock) :
    ∃ function ∈ functions (Source.ofBytes bytes),
      (∃ after, takeHead? ((Source.ofBytes bytes).drop function.headStart) =
        some (function.name, after)) ∧
      f.message = complexityMessage function.name (complexity function.body) ∧
      f.IsPutAt bytes ((Source.ofBytes bytes).take function.headStart)
        ((Source.ofBytes bytes).drop function.headStart) rows clock := by
  obtain ⟨function, hfunction, -, rfl⟩ := mem_complexityFindings.mp hf
  obtain ⟨hline, hhead⟩ := head_of_mem hfunction
  refine ⟨function, hfunction, hhead, rfl,
    Finding.isPutAt (List.take_append_drop _ _).symm ?_ ?_⟩
  · rw [← hline]
    rfl
  · rw [← hline]
    exact complexityFinding_isCredited bands file rows clock function _

end Code

namespace Scan

variable {directory file commit : Text} {clock : Int} {w : World}

/-- What the search for markers finds comes of a source that can be read and of the rows that are
answered. -/
theorem mem_findings_of_markerWork {words : List Text} {found : List Finding} {f : Finding}
    (h : ((markerWork directory file commit words clock).run w).1 = .ok found) (hf : f ∈ found) :
    ∃ source rows, sourceOf? w.files directory file = some source ∧
      ((History.blame directory file commit).run w).1 = .ok rows ∧
      f ∈ Marker.findings words file source rows clock := by
  rw [fst_run_markerWork] at h
  exact mem_findings_of_markerResult h hf

/-- What the search for functions finds comes of functions of the file and of the rows that are
answered. -/
theorem mem_findings_of_functionWork {bands : Code.Bands Int} {found : List Finding} {f : Finding}
    (h : ((functionWork directory file commit bands clock).run w).1 = .ok found) (hf : f ∈ found) :
    ∃ source rows, sourceOf? w.files directory file = some source ∧
      ((History.blame directory file commit).run w).1 = .ok rows ∧
      f ∈ Code.complexityFindings bands file (Code.functions source) rows clock := by
  rw [fst_run_functionWork] at h
  obtain ⟨rows, hrows, hmem⟩ := mem_complexityFindings_of_functionResult h hf
  -- there is something to find, so there are functions, and they are those of a source
  have hsome : functionsOf w.files directory file ≠ [] := by
    intro hnone
    rw [hnone] at hmem
    cases hmem
  obtain ⟨-, source, hsource, hfunctions⟩ := exists_sourceOf?_of_functionsOf hsome
  rw [hfunctions] at hmem
  exact ⟨source, rows, hsource, hrows, hmem⟩

/-- The source of a file comes of its bytes. -/
theorem eq_of_sourceOf? {files : Node} {bytes : List UInt8} {source : Text}
    (hbytes : files.read (Path.append directory file) = .ok bytes)
    (h : sourceOf? files directory file = some source) : source = Source.ofBytes bytes := by
  rw [sourceOf?, Source.read, hbytes] at h
  dsimp only at h
  split at h
  · exact (Option.some.inj h).symm
  · cases h

/-- Every finding of a marker is put at the start of its line, and every finding of a function at
its head, with the history of the blame row for the line that it is given. That is the line of the
place as version control counts lines if and only if no bare carriage return is in front of it. -/
theorem putAt_of_work {bytes : List UInt8}
    (hbytes : w.files.read (Path.append directory file) = .ok bytes) :
    (∀ {words found}, ((markerWork directory file commit words clock).run w).1 = .ok found →
      ∀ f ∈ found, ∃ rows, ((History.blame directory file commit).run w).1 = .ok rows ∧
        ∃ n line, (Text.lines (Source.ofBytes bytes))[n]? = some line ∧
          (Marker.search words line).isSome ∧ f.message = Text.trim line ∧
          f.IsPutAt bytes (Text.terminated ((Text.lines (Source.ofBytes bytes)).take n))
            (Text.join ['\n'] ((Text.lines (Source.ofBytes bytes)).drop n)) rows clock) ∧
    (∀ {bands found}, ((functionWork directory file commit bands clock).run w).1 = .ok found →
      ∀ f ∈ found, ∃ rows, ((History.blame directory file commit).run w).1 = .ok rows ∧
        ∃ function ∈ Code.functions (Source.ofBytes bytes),
          (∃ after, Code.takeHead? ((Source.ofBytes bytes).drop function.headStart) =
            some (function.name, after)) ∧
          f.message = Code.complexityMessage function.name (Code.complexity function.body) ∧
          f.IsPutAt bytes ((Source.ofBytes bytes).take function.headStart)
            ((Source.ofBytes bytes).drop function.headStart) rows clock) := by
  constructor
  · intro words found h f hf
    obtain ⟨source, rows, hsource, hrows, hfound⟩ := mem_findings_of_markerWork h hf
    obtain rfl := eq_of_sourceOf? hbytes hsource
    exact ⟨rows, hrows, Marker.isPutAt_of_mem_findings hfound⟩
  · intro bands found h f hf
    obtain ⟨source, rows, hsource, hrows, hfound⟩ := mem_findings_of_functionWork h hf
    obtain rfl := eq_of_sourceOf? hbytes hsource
    exact ⟨rows, hrows, Code.isPutAt_of_mem_complexityFindings hfound⟩

/-- The first line of a file, for version control: it holds a bare carriage return. -/
def returnLine : List UInt8 := Text.Utf8.encode "a\rb\n"

/-- A file with a marker on its second line and a function on its third, for version control. -/
def returnBytes : List UInt8 := returnLine ++ Text.Utf8.encode "// TODO\nfunction f() \x7b\x7d\n"

/-- A workspace with that file, and a history with an author for each of its lines. -/
def returned : World where
  files := .dir [("w", .dir [("a.ts", .file returnBytes)])]
  memory.repository := some true
  host.script := [("git blame --porcelain -- a.ts",
    [.exited 0 (List.replicate 40 'a' ++ " 1 1 1\nauthor Ann\nauthor-time 1\n\ta\rb\n" ++
      List.replicate 40 'b' ++ " 2 2 1\nauthor Bob\nauthor-time 2\n\t// TODO\n" ++
      List.replicate 40 'c' ++ " 3 3 1\nauthor Cid\nauthor-time 3\n\tfunction f() \x7b\x7d\n") []])]

/-- The place of the marker in that file. -/
def markerPlace : Source.Place returnBytes
    (Text.terminated ((Text.lines (Source.ofBytes returnBytes)).take 2))
    (Text.join ['\n'] ((Text.lines (Source.ofBytes returnBytes)).drop 2)) where
  before := returnLine
  after := returnBytes.drop 4
  bytes_eq := by decide
  above_eq := by decide +kernel
  below_eq := by decide +kernel

/-- The place of the function in that file. -/
def functionPlace : Source.Place returnBytes ((Source.ofBytes returnBytes).take 12)
    ((Source.ofBytes returnBytes).drop 12) where
  before := returnBytes.take 12
  after := returnBytes.drop 12
  bytes_eq := by decide
  above_eq := by decide +kernel
  below_eq := by decide +kernel

/-- The marker on the second line is reported on the third, as the work of the author of that line;
and the function on the third line is reported on the fourth, which has no author. -/
theorem putAt_of_work_return :
    ∃ f g, ((markerWork "/w" "a.ts" [] ["TODO"] 0).run returned).1 = .ok [f] ∧
      ((functionWork "/w" "a.ts" [] ⟨1, 2, 3, 4⟩ 0).run returned).1 = .ok [g] ∧
      (f.line = some 3 ∧ f.author = some ("Cid" : Text) ∧ g.line = some 4 ∧ g.author = none) ∧
      (markerPlace.line = 2 ∧ functionPlace.line = 3) ∧
      (∃ rows, f.IsPutAt returnBytes
        (Text.terminated ((Text.lines (Source.ofBytes returnBytes)).take 2))
        (Text.join ['\n'] ((Text.lines (Source.ofBytes returnBytes)).drop 2)) rows 0) ∧
      ∃ rows, g.IsPutAt returnBytes ((Source.ofBytes returnBytes).take 12)
        ((Source.ofBytes returnBytes).drop 12) rows 0 := by
  have hmarkers : ((markerWork "/w" "a.ts" [] ["TODO"] 0).run returned).1.toOption.map
      (·.map fun f => (f.line, f.author)) = some [(some 3, some ("Cid" : Text))] := by
    decide +kernel
  have hcomplex : ((functionWork "/w" "a.ts" [] ⟨1, 2, 3, 4⟩ 0).run returned).1.toOption.map
      (·.map fun g => (g.line, g.author)) = some [(some 4, none)] := by decide +kernel
  have hfunctions : Code.functions (Source.ofBytes returnBytes) =
      [⟨"f", 4, 12, 25, "\x7b\x7d"⟩] := by decide +kernel
  have hbytes : returned.files.read (Path.append "/w" "a.ts") = .ok returnBytes := by decide
  rcases hfound : ((markerWork "/w" "a.ts" [] ["TODO"] 0).run returned).1 with _ | found <;>
    rw [hfound] at hmarkers
  · cases hmarkers
  rcases hothers : ((functionWork "/w" "a.ts" [] ⟨1, 2, 3, 4⟩ 0).run returned).1 with _ | others <;>
    rw [hothers] at hcomplex
  · cases hcomplex
  obtain ⟨f, rfl, hf⟩ := List.map_eq_singleton_iff.mp (Option.some.inj hmarkers)
  obtain ⟨g, rfl, hg⟩ := List.map_eq_singleton_iff.mp (Option.some.inj hcomplex)
  obtain ⟨hline, hauthor⟩ := Prod.mk.inj hf
  obtain ⟨hline', hauthor'⟩ := Prod.mk.inj hg
  obtain ⟨hmarked, hheaded⟩ := putAt_of_work hbytes
  refine ⟨f, g, rfl, rfl, ⟨hline, hauthor, hline', hauthor'⟩, by decide, ?_, ?_⟩
  · obtain ⟨rows, -, n, line, hn, -, -, hput⟩ := hmarked hfound f (List.mem_singleton_self f)
    obtain rfl : n = 2 := by
      have hcount := hput.line_eq
      rw [hline, Text.count_terminated_lines (List.getElem?_eq_some_iff.mp hn).1] at hcount
      have := Option.some.inj hcount
      omega
    exact ⟨rows, hput⟩
  · obtain ⟨rows, -, function, hfunction, -, -, hput⟩ :=
      hheaded hothers g (List.mem_singleton_self g)
    rw [hfunctions, List.mem_singleton] at hfunction
    subst hfunction
    exact ⟨rows, hput⟩

end Scan

end DebtSurvey
