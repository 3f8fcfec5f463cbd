import DebtSurvey.Proofs.Spelling
import DebtSurvey.Workspace.Discovery
import DebtSurvey.Workspace.Links
import Mathlib.Data.List.DropRight
import Mathlib.Logic.Function.Iterate

/-!
# The root of a repository

The search for the root of a repository starts at a path in normal form and climbs: a directory in
which version control data are found is the root, any other one sends the search to its parent, and
the search ends at the top, which is its own parent and is not asked. Then the start itself is
taken.

A path in normal form is its lead and its names, and its parent is the same without the last name.
So the search ends after as many steps as there are names, at the nearest of the start and the
directories above it in which version control data are found, provided none are found at the top.
Searching again from there leads nowhere else.

All that is asked of the file system is whether a path exists. In a tree without links it does if
the directory has an entry of that name. With links it may not: a link that leads nowhere is an
entry, but its path does not exist.

## Main results

* `Path.parent_ofNames`, `Path.parent_lead`: parents of paths in normal form.
* `Workspace.climbs_iff`: the search ends with one result, the one that is computed.
* `Workspace.repositoryRoot_nearest`: that is the nearest directory in which version control data
  are found, and it is the root of its own repository.
* `Workspace.repositoryRoot_nearest_dangling`: it may lie above a directory with an entry for them.
* `Workspace.repositoryRoot_nearest_entry`: not so in a tree without links.
-/

namespace DebtSurvey

namespace Path

/-! ### Paths in normal form -/

/-- The slashes that paths in normal form start with. -/
def IsLead (start : Text) : Prop := start = ['/'] ∨ start = ['/', '/']

theorem isLead_lead (path : Text) : IsLead (lead path) := by
  unfold lead
  split
  · exact .inl rfl
  · exact .inr rfl
  · exact .inl rfl

/-- Names that a path in normal form may lead through. -/
def AreNames (names : List Text) : Prop := ∀ name ∈ names, Names name ∧ '/' ∉ name

/-- The names of a path are what a walk over its segments leaves. -/
theorem names_eq_walk (path : Text) : names path = Imports.walk (segments path) := by
  have hstep : (fun (above : List Text) segment =>
      if isIdle segment then above else if isUp segment then above.tail else segment :: above) =
      Imports.walkSegment := by
    funext above segment
    by_cases hup : segment = ['.', '.']
    · rw [hup]
      rfl
    · simp [isIdle, isUp, Imports.walkSegment, hup, or_comm]
  rw [names, hstep, Imports.walk]

theorem Names.isIdle_eq_false {name : Text} (h : Names name) : isIdle name = false := by
  simp [isIdle, h.1, h.2.1]

theorem Names.isUp_eq_false {name : Text} (h : Names name) : isUp name = false := by
  simp [isUp, h.2.2]

theorem areNames_reverse {ns : List Text} : AreNames ns.reverse ↔ AreNames ns := by
  simp only [AreNames, List.mem_reverse]

theorem areNames_names (path : Text) : AreNames (names path) := by
  rw [names_eq_walk]
  exact Imports.forall_mem_walk fun s hs => Text.notMem_of_mem_splitOn hs

variable {start : Text} {ns : List Text}

theorem isAbsolute_ofNames (hstart : IsLead start) (ns : List Text) :
    isAbsolute (ofNames start ns) := by
  rcases hstart with rfl | rfl <;> rfl

/-- The segments of a path in normal form are its names, behind some that name nothing. -/
theorem segments_ofNames (hstart : IsLead start) (hnames : AreNames ns) :
    ∃ idle, idle ≠ [] ∧ (∀ s ∈ idle, s = []) ∧ segments (ofNames start ns) = idle ++ ns := by
  by_cases hnone : ns = []
  · subst hnone
    rcases hstart with rfl | rfl
    · exact ⟨[[], []], by simp, by simp, rfl⟩
    · exact ⟨[[], [], []], by simp, by simp, rfl⟩
  have hjoin : Text.splitOn '/' (Text.join ['/'] ns) = ns :=
    Text.splitOn_join '/' hnone fun name hname => (hnames name hname).2
  rcases hstart with rfl | rfl
  · exact ⟨[[]], by simp, by simp, by simp [segments, ofNames, Text.splitOn, hjoin]⟩
  · exact ⟨[[], []], by simp, by simp, by simp [segments, ofNames, Text.splitOn, hjoin]⟩

/-- A path in normal form leads through the names that it is made of. -/
theorem names_ofNames (hstart : IsLead start) (hnames : AreNames ns) :
    names (ofNames start ns) = ns := by
  obtain ⟨idle, -, hidle, hsegments⟩ := segments_ofNames hstart hnames
  have hstay : idle.foldl Imports.walkSegment [] = [] := by
    clear hsegments
    induction idle with
    | nil => rfl
    | cons s rest ih =>
      obtain ⟨rfl, hrest⟩ := List.forall_mem_cons.mp hidle
      exact ih hrest
  rw [names_eq_walk, hsegments, Imports.walk, List.foldl_append, hstay,
    Imports.foldl_walkSegment_names fun s hs => (hnames s hs).1, List.append_nil,
    List.reverse_reverse]

/-- A path in normal form starts with the slashes that it is made with. -/
theorem lead_ofNames (hstart : IsLead start) (hnames : AreNames ns) :
    lead (ofNames start ns) = start := by
  -- no name starts with a slash, so there are no more slashes at the start
  have hhead : (Text.join ['/'] ns).head? ≠ some '/' := by
    cases ns with
    | nil => exact nofun
    | cons name rest =>
      obtain ⟨⟨hne, -, -⟩, hslash⟩ := hnames name List.mem_cons_self
      cases name with
      | nil => exact absurd rfl hne
      | cons c name =>
        have hc : c ≠ '/' := fun h => hslash (by rw [h]; exact List.mem_cons_self)
        cases rest <;> simpa [Text.join] using hc
  unfold ofNames
  rcases hjoin : Text.join ['/'] ns with _ | ⟨c, rest⟩
  · rcases hstart with rfl | rfl <;> rfl
  · rw [hjoin, List.head?_cons] at hhead
    have hc : c ≠ '/' := fun h => hhead (congrArg some h)
    rcases hstart with rfl | rfl <;> simp [lead, hc]

/-- A further name stands behind a slash, unless it is the first. -/
theorem ofNames_concat (start : Text) (ns : List Text) (name : Text) :
    ofNames start (ns ++ [name]) = ofNames start ns ++ if ns = [] then name else '/' :: name := by
  by_cases hnone : ns = []
  · subst hnone
    simp [ofNames, Text.join]
  · rw [if_neg hnone, ofNames, Text.join_append _ hnone (by simp), ofNames, List.append_assoc,
      List.append_assoc]
    rfl

/-! ### Parents -/

/-- The directory above a path: the path without its last segment and the slashes before it, but not
without the slashes that it starts with. -/
def parent (path : Text) : Text :=
  let directory := path.rdropWhile (· ≠ '/')
  if directory.all (· = '/') then directory else directory.rdropWhile (· = '/')

/-- The top is its own parent. -/
theorem parent_lead (hstart : IsLead start) : parent (ofNames start []) = ofNames start [] := by
  rcases hstart with rfl | rfl <;> decide

/-- A name at the end of a path ends with it. -/
theorem rdropWhile_name (path : Text) {name : Text} (hname : '/' ∉ name) :
    (path ++ '/' :: name).rdropWhile (· ≠ '/') = path ++ ['/'] := by
  have hdrop : ∀ c ∈ name.reverse, decide (c ≠ '/') = true := by
    intro c hc
    rw [List.mem_reverse] at hc
    exact decide_eq_true fun h => hname (h ▸ hc)
  rw [List.rdropWhile, List.reverse_append, List.reverse_cons, List.append_assoc,
    List.dropWhile_append_of_pos hdrop, List.singleton_append, List.dropWhile_cons_of_neg (by simp),
    List.reverse_cons, List.reverse_reverse]

/-- Names end in something else than a slash. -/
theorem exists_join_concat (hne : ns ≠ []) (hnames : AreNames ns) :
    ∃ t c, Text.join ['/'] ns = t ++ [c] ∧ c ≠ '/' := by
  obtain ⟨before, last, rfl⟩ := List.eq_nil_or_concat' ns |>.resolve_left hne
  obtain ⟨⟨hlast, -, -⟩, hslash⟩ := hnames last List.mem_concat_self
  obtain ⟨front, c, rfl⟩ := List.eq_nil_or_concat' last |>.resolve_left hlast
  refine ⟨_, c, Text.join_concat_append ['/'] before front [c], ?_⟩
  rintro rfl
  exact hslash List.mem_concat_self

/-- The parent of a path in normal form lacks its last name. -/
theorem parent_ofNames (hstart : IsLead start) {name : Text} (hnames : AreNames (ns ++ [name])) :
    parent (ofNames start (ns ++ [name])) = ofNames start ns := by
  have hname : '/' ∉ name := (hnames name List.mem_concat_self).2
  rw [ofNames_concat]
  by_cases hnone : ns = []
  · -- the slashes that are left are those that the path starts with
    subst hnone
    rw [if_pos rfl]
    rcases hstart with rfl | rfl
    · have hdirectory : (ofNames ['/'] [] ++ name).rdropWhile (· ≠ '/') = ['/'] :=
        rdropWhile_name [] hname
      rw [parent, hdirectory]
      rfl
    · have hdirectory : (ofNames ['/', '/'] [] ++ name).rdropWhile (· ≠ '/') = ['/', '/'] :=
        rdropWhile_name ['/'] hname
      rw [parent, hdirectory]
      rfl
  · obtain ⟨t, c, hjoin, hc⟩ :=
      exists_join_concat hnone fun s hs => hnames s (List.mem_append_left _ hs)
    have hend : ofNames start ns = start ++ t ++ [c] := by
      rw [ofNames, hjoin, List.append_assoc]
    rw [if_neg hnone, parent, rdropWhile_name _ hname, if_neg]
    · rw [List.rdropWhile_concat_pos _ _ _ (by simp), hend,
        List.rdropWhile_concat_neg _ _ _ (by simpa using hc)]
    · rw [hend]
      simp [hc]

/-- Only the top is its own parent. -/
theorem parent_ofNames_ne (hstart : IsLead start) {name : Text} (hnames : AreNames (ns ++ [name])) :
    parent (ofNames start (ns ++ [name])) ≠ ofNames start (ns ++ [name]) := by
  have hname : name ≠ [] := (hnames name List.mem_concat_self).1.1
  rw [parent_ofNames hstart hnames, ofNames_concat, Ne, List.self_eq_append_right]
  split
  · exact hname
  · exact List.cons_ne_nil _ _

/-- So the directories above a path in normal form have ever fewer of its names. -/
theorem iterate_parent_ofNames (hstart : IsLead start) {above : List Text} (hnames : AreNames above)
    (n : Nat) :
    parent^[n] (ofNames start above.reverse) = ofNames start (above.drop n).reverse := by
  induction n generalizing above with
  | zero => rfl
  | succ n ih =>
    rw [Function.iterate_succ_apply]
    cases above with
    | nil =>
      have htop := ih hnames
      rw [List.reverse_nil] at htop ⊢
      rw [parent_lead hstart, htop, List.drop_nil, List.drop_nil]
    | cons name above =>
      have hrest : AreNames above := fun s hs => hnames s (List.mem_cons_of_mem _ hs)
      have hreverse := areNames_reverse.mpr hnames
      rw [List.reverse_cons] at hreverse ⊢
      rw [parent_ofNames hstart hreverse, ih hrest, List.drop_succ_cons]

end Path

namespace Node

variable {above : List Node} {here : Node} {segments : List Text} {entries : List (Text × Node)}
  {name : Text}

theorem isSome_lookup?_iff : (lookup? entries name).isSome ↔ name ∈ entries.map (·.1) := by
  simp [lookup?, List.find?_isSome]

/-- A name leads from a directory to its entry, and from a file nowhere. -/
theorem isOk_follow_concat (hname : Path.Names name) :
    (∃ node, follow above here (segments ++ [name]) = .ok node) ↔
      ∃ entries, follow above here segments = .ok (.dir entries) ∧
        (lookup? entries name).isSome := by
  have hidle := hname.isIdle_eq_false
  have hnotUp := hname.isUp_eq_false
  fun_induction follow above here segments with
  | case1 above here =>
    cases here with
    | file bytes => simp [follow]
    | dir entries =>
      cases hlookup : lookup? entries name <;> simp [follow, hidle, hnotUp, hlookup]
  | case2 => simp [follow]
  | case3 _ _ _ _ hsegment ih => simpa [follow, hsegment] using ih
  | case4 _ _ _ hsegment hsegmentUp ih => simpa [follow, hsegment, hsegmentUp] using ih
  | case5 _ _ _ hsegment hsegmentUp _ _ ih => simpa [follow, hsegment, hsegmentUp] using ih
  | case6 _ _ _ _ hsegment hsegmentUp hlookup => simp [follow, hsegment, hsegmentUp, hlookup]
  | case7 _ _ _ _ hsegment hsegmentUp _ hlookup ih =>
    simpa [follow, hsegment, hsegmentUp, hlookup] using ih

/-- Segments that name nothing lead from a directory to itself. -/
theorem follow_idle {idle : List Text} (hidle : ∀ s ∈ idle, s = []) :
    follow above (.dir entries) (idle ++ segments) = follow above (.dir entries) segments := by
  induction idle with
  | nil => rfl
  | cons s rest ih =>
    obtain ⟨rfl, hrest⟩ := List.forall_mem_cons.mp hidle
    exact ih hrest

/-- A path in normal form leads through its names from the top, which has to be a directory. -/
theorem at?_ofNames (root : Node) {start : Text} {ns : List Text} (hstart : Path.IsLead start)
    (hnames : Path.AreNames ns) :
    root.at? (Path.ofNames start ns) =
      if (Path.ofNames start ns).contains '\x00' then .error .nullCharacter
      else match root with
        | .file _ => .error .notADirectory
        | .dir entries => follow [] (.dir entries) ns := by
  have habsolute := Path.isAbsolute_ofNames hstart ns
  obtain ⟨idle, hne, hidle, hsegments⟩ := Path.segments_ofNames hstart hnames
  rw [at?, if_pos habsolute, hsegments]
  cases root with
  | dir entries => rw [follow_idle hidle]
  | file bytes =>
    obtain ⟨s, rest, rfl⟩ := List.exists_cons_of_ne_nil hne
    rfl

/-- A path leads to a directory that has an entry of a name. -/
def HasEntry (root : Node) (path name : Text) : Prop :=
  ∃ entries, root.at? path = .ok (.dir entries) ∧ name ∈ entries.map (·.1)

end Node

open DebtSurvey.Path (IsLead AreNames ofNames parent)

namespace Workspace

variable {hasPath : Text → Bool} {start : Text} {ns : List Text}

/-! ### The search -/

/-- A search that climbs from one path and started at another: it ends where version control data
are found, goes on to the parent where there are none, and comes back to its start from the top. -/
inductive Climbs (hasPath : Text → Bool) (origin : Text) : Text → Text → Prop
  | found {here : Text} (below : parent here ≠ here) (holds : holdsGit hasPath here) :
    Climbs hasPath origin here here
  | up {here result : Text} (below : parent here ≠ here) (lacks : ¬holdsGit hasPath here)
    (rest : Climbs hasPath origin (parent here) result) : Climbs hasPath origin here result
  | top {here : Text} (top : parent here = here) : Climbs hasPath origin here origin

/-- The search ends, and it ends with one result only. -/
theorem climbs_iff (hasPath : Text → Bool) (origin : Text) (hstart : IsLead start)
    {above : List Text} (hnames : AreNames above) {result : Text} :
    Climbs hasPath origin (ofNames start above.reverse) result ↔
      result = (climb? hasPath start above).getD origin := by
  induction above with
  | nil =>
    have htop : parent (ofNames start [].reverse) = ofNames start [].reverse :=
      Path.parent_lead hstart
    constructor
    · intro h
      cases h with
      | found below => exact absurd htop below
      | up below => exact absurd htop below
      | top => rfl
    · rintro rfl
      exact .top htop
  | cons name above ih =>
    have hrest : AreNames above := fun s hs => hnames s (List.mem_cons_of_mem _ hs)
    have hreverse := Path.areNames_reverse.mpr hnames
    rw [List.reverse_cons] at hreverse ⊢
    have hparent := Path.parent_ofNames hstart hreverse
    have hbelow := Path.parent_ofNames_ne hstart hreverse
    rw [climb?, List.reverse_cons]
    constructor
    · intro h
      cases h with
      | found _ holds => rw [if_pos holds, Option.getD_some]
      | up _ lacks rest =>
        rw [hparent] at rest
        rw [if_neg lacks]
        exact (ih hrest).mp rest
      | top top => exact absurd top hbelow
    · intro hresult
      split at hresult
      · rename_i holds
        rw [hresult]
        exact .found hbelow holds
      · rename_i lacks
        refine .up hbelow lacks ?_
        rw [hparent]
        exact (ih hrest).mpr hresult

/-- The computed climb ends at the nearest directory in which version control data are found, and it
would have ended there had it started there. -/
theorem climb?_eq_some {above : List Text} {result : Text}
    (h : climb? hasPath start above = some result) :
    ∃ n, result = ofNames start (above.drop n).reverse ∧
      climb? hasPath start (above.drop n) = some result ∧ holdsGit hasPath result ∧
      ∀ m < n, ¬holdsGit hasPath (ofNames start (above.drop m).reverse) := by
  induction above with
  | nil => cases h
  | cons name above ih =>
    have hclimb := h
    rw [climb?] at h
    split at h
    · rename_i holds
      obtain rfl := Option.some.inj h
      exact ⟨0, rfl, hclimb, holds, fun m hm => absurd hm (Nat.not_lt_zero m)⟩
    · rename_i lacks
      obtain ⟨n, hresult, hagain, hholds, hbelow⟩ := ih h
      refine ⟨n + 1, hresult, hagain, hholds, fun m hm => ?_⟩
      cases m with
      | zero => exact lacks
      | succ m => exact hbelow m (Nat.lt_of_succ_lt_succ hm)

/-- Where it finds none, there are none in any directory but perhaps the top. -/
theorem climb?_eq_none {above : List Text} (h : climb? hasPath start above = none)
    (htop : ¬holdsGit hasPath (ofNames start [])) (n : Nat) :
    ¬holdsGit hasPath (ofNames start (above.drop n).reverse) := by
  induction above generalizing n with
  | nil => rwa [List.drop_nil]
  | cons name above ih =>
    rw [climb?] at h
    split at h
    · cases h
    · rename_i lacks
      cases n with
      | zero => exact lacks
      | succ n => exact ih h n

/-- The root of the repository around a path is what the climb from its normal form comes to. -/
theorem exists_climb (path : Text) :
    ∃ start above, IsLead start ∧ AreNames above ∧
      Path.normalise path = ofNames start above.reverse ∧
      ∀ hasPath, repositoryRoot hasPath path =
        (climb? hasPath start above).getD (ofNames start above.reverse) := by
  refine ⟨Path.lead path, (Path.names path).reverse, Path.isLead_lead path,
    Path.areNames_reverse.mpr (Path.areNames_names path), ?_, fun hasPath => ?_⟩
  · rw [List.reverse_reverse, Path.normalise]
  · rw [List.reverse_reverse, repositoryRoot, Path.normalise]

/-- A path in normal form is its own, wherever it is asked for. -/
theorem repositoryRoot_ofNames (hasPath : Text → Bool) (hstart : IsLead start) {above : List Text}
    (hnames : AreNames above) (directory : Text) :
    repositoryRoot hasPath (Path.append directory (ofNames start above.reverse)) =
      (climb? hasPath start above).getD (ofNames start above.reverse) := by
  have hreverse := Path.areNames_reverse.mpr hnames
  rw [Path.append, if_pos (.inl (Path.isAbsolute_ofNames hstart _)), repositoryRoot,
    Path.normalise, Path.lead_ofNames hstart hreverse, Path.names_ofNames hstart hreverse,
    List.reverse_reverse]

/-- What the climb comes to is the root of its own repository. -/
theorem repositoryRoot_climb (hasPath : Text → Bool) (hstart : IsLead start) {above : List Text}
    (hnames : AreNames above) (directory : Text) :
    repositoryRoot hasPath (Path.append directory
      ((climb? hasPath start above).getD (ofNames start above.reverse))) =
        (climb? hasPath start above).getD (ofNames start above.reverse) := by
  cases hclimb : climb? hasPath start above with
  | none =>
    have hagain := repositoryRoot_ofNames hasPath hstart hnames directory
    rwa [hclimb] at hagain
  | some result =>
    obtain ⟨n, hresult, hclimbAgain, -, -⟩ := climb?_eq_some hclimb
    have hdrop : AreNames (above.drop n) := fun s hs => hnames s (List.mem_of_mem_drop hs)
    have hagain := repositoryRoot_ofNames hasPath hstart hdrop directory
    rwa [hclimbAgain, ← hresult] at hagain

/-- The climb comes to the nearest directory in which version control data are found, or to its
start where they are found in none. -/
theorem repositoryRoot_eq_or (hasPath : Text → Bool) (path : Text)
    (htop : ∀ top, IsLead top → ¬holdsGit hasPath top) :
    (∃ n, repositoryRoot hasPath path = parent^[n] (Path.normalise path) ∧
        holdsGit hasPath (repositoryRoot hasPath path) ∧
        ∀ m < n, ¬holdsGit hasPath (parent^[m] (Path.normalise path))) ∨
      repositoryRoot hasPath path = Path.normalise path ∧
        ∀ n, ¬holdsGit hasPath (parent^[n] (Path.normalise path)) := by
  obtain ⟨lead, above, hlead, hnames, hstart, hfound⟩ := exists_climb path
  simp only [hfound, hstart, Path.iterate_parent_ofNames hlead hnames]
  cases hclimb : climb? hasPath lead above with
  | none =>
    have hlacks : ¬holdsGit hasPath (ofNames lead []) := by
      rw [ofNames, Text.join, List.append_nil]
      exact htop lead hlead
    exact .inr ⟨rfl, climb?_eq_none hclimb hlacks⟩
  | some result =>
    obtain ⟨n, hresult, -, hholds, hbelow⟩ := climb?_eq_some hclimb
    exact .inl ⟨n, hresult, hholds, hbelow⟩

/-- Whatever exists in a file system: the root of the repository around a path is the nearest of the
path in normal form and the directories above it in which version control data are found; where they
are found in none of them, it is the path itself. It is what the search from there ends with, and
the root of its own repository. -/
theorem repositoryRoot_nearest (hasPath : Text → Bool) (directory path : Text)
    (htop : ∀ top, IsLead top → ¬holdsGit hasPath top) :
    let start := Path.normalise (Path.append directory path)
    let found := repositoryRoot hasPath (Path.append directory path)
    (∀ result, Climbs hasPath start start result ↔ result = found) ∧
      ((∃ n, found = parent^[n] start ∧ holdsGit hasPath found ∧
          ∀ m < n, ¬holdsGit hasPath (parent^[m] start)) ∨
        found = start ∧ ∀ n, ¬holdsGit hasPath (parent^[n] start)) ∧
      ∀ elsewhere, repositoryRoot hasPath (Path.append elsewhere found) = found := by
  intro start found
  obtain ⟨lead, above, hlead, hnames, hstart, hfound⟩ := exists_climb (Path.append directory path)
  replace hstart : start = ofNames lead above.reverse := hstart
  replace hfound : found = (climb? hasPath lead above).getD (ofNames lead above.reverse) :=
    hfound hasPath
  refine ⟨fun result => ?_, repositoryRoot_eq_or hasPath _ htop, fun elsewhere => ?_⟩
  · rw [hstart, hfound]
    exact climbs_iff hasPath _ hlead hnames
  · rw [hfound]
    exact repositoryRoot_climb hasPath hlead hnames elsewhere

/-- A repository inside another one. -/
def nested : Node :=
  .dir [("a", .dir [(".git", .dir []), ("b", .dir [(".git", .file []), ("c", .dir [])])])]

/-- From a missing directory next to `c` the inner repository is found, and again from its root. -/
theorem repositoryRoot_nearest_nested :
    (∀ top, IsLead top → ¬holdsGit nested.hasPath top) ∧
      repositoryRoot nested.hasPath (Path.append "/a/b/c" "./x/../../d") = ("/a/b" : String) ∧
      (∀ result, Climbs nested.hasPath "/a/b/d" "/a/b/d" result ↔ result = ("/a/b" : String)) ∧
      repositoryRoot nested.hasPath (Path.append "/" "/a/b") = ("/a/b" : String) := by
  have htop : ∀ top, IsLead top → ¬holdsGit nested.hasPath top := by
    rintro top (rfl | rfl) <;> decide
  have hroot : repositoryRoot nested.hasPath (Path.append "/a/b/c" "./x/../../d") =
      ("/a/b" : String) := by
    decide
  obtain ⟨hclimbs, -, hagain⟩ :=
    repositoryRoot_nearest nested.hasPath "/a/b/c" "./x/../../d" htop
  rw [hroot] at hclimbs hagain
  exact ⟨htop, hroot, hclimbs, hagain "/"⟩

/-- A directory inside a repository, with a link that leads nowhere in place of version control
data. -/
def dangling : LinkTree :=
  .dir [("a", .dir [(".git", .dir []), ("b", .dir [(".git", .link "c")])])]

/-- The directory has an entry for version control data and is where the search starts, and still
the root that is found is the one around it, which is not the nearest with such an entry. -/
theorem repositoryRoot_nearest_dangling :
    let start := Path.normalise "/a/b"
    let found := repositoryRoot dangling.hasPath "/a/b"
    dangling.hasEntry ['/'] gitName = false ∧ dangling.hasEntry start gitName ∧
      found = ("/a" : String) ∧
      ¬((∃ n, found = parent^[n] start ∧ dangling.hasEntry found gitName ∧
          ∀ m < n, ¬dangling.hasEntry (parent^[m] start) gitName) ∨
        found = start ∧ ∀ n, ¬dangling.hasEntry (parent^[n] start) gitName) := by
  intro start found
  have hentry : dangling.hasEntry start gitName := by decide
  have hother : found ≠ start := by decide
  refine ⟨by decide, hentry, by decide, ?_⟩
  rintro (⟨n, hfound, -, hbelow⟩ | ⟨hfound, -⟩)
  · cases n with
    | zero => exact hother hfound
    | succ n => exact hbelow 0 n.succ_pos hentry
  · exact hother hfound

/-! ### Trees without links -/

variable {files : Node}

theorem names_gitName : Path.Names gitName ∧ '/' ∉ gitName := by decide

theorem append_gitName (hstart : IsLead start) (hnames : AreNames ns) :
    Path.append (ofNames start ns) gitName = ofNames start (ns ++ [gitName]) := by
  rw [Path.ofNames_concat]
  by_cases hnone : ns = []
  · subst hnone
    rcases hstart with rfl | rfl <;> rfl
  · obtain ⟨t, c, hjoin, hc⟩ := Path.exists_join_concat hnone hnames
    rw [if_neg hnone, Path.append, ofNames, hjoin, ← List.append_assoc, if_neg (by simp; decide),
      if_neg (by simpa using hc)]

/-- The name of version control data has no null character. -/
theorem contains_null_gitName (start : Text) (ns : List Text) :
    (ofNames start (ns ++ [gitName])).contains '\x00' = (ofNames start ns).contains '\x00' := by
  have hgit : '\x00' ∉ gitName := by decide
  rw [Path.ofNames_concat]
  split <;> simp [List.contains_eq_mem, hgit]

theorem areNames_gitName (hnames : AreNames ns) : AreNames (ns ++ [gitName]) :=
  List.forall_mem_append.mpr ⟨hnames, List.forall_mem_singleton.mpr names_gitName⟩

/-- In a tree without links, version control data are found where there is an entry for them. -/
theorem holdsGit_hasPath_iff (hstart : IsLead start) (hnames : AreNames ns) :
    holdsGit files.hasPath (ofNames start ns) ↔ files.HasEntry (ofNames start ns) gitName := by
  rw [holdsGit, append_gitName hstart hnames, Node.hasPath,
    Node.at?_ofNames files hstart (areNames_gitName hnames), contains_null_gitName,
    Node.HasEntry, Node.at?_ofNames files hstart hnames]
  split
  · simp [Except.toOption]
  · cases files with
    | file bytes => simp [Except.toOption]
    | dir entries =>
      simp only [← Node.isSome_lookup?_iff]
      rw [← Node.isOk_follow_concat names_gitName.1]
      cases Node.follow [] (Node.dir entries) (ns ++ [gitName]) <;> simp [Except.toOption]

theorem hasEntry_lead_iff {start' : Text} (hstart : IsLead start) (hstart' : IsLead start') :
    files.HasEntry (ofNames start []) gitName ↔ files.HasEntry (ofNames start' []) gitName := by
  have hnone : AreNames [] := List.forall_mem_nil _
  have hnull {start : Text} (h : IsLead start) : (ofNames start []).contains '\x00' = false := by
    rcases h with rfl | rfl <;> rfl
  rw [Node.HasEntry, Node.HasEntry, Node.at?_ofNames files hstart hnone,
    Node.at?_ofNames files hstart' hnone, hnull hstart, hnull hstart']

/-- In a tree without links the root of the repository around a path is the nearest directory that
has an entry for version control data. -/
theorem repositoryRoot_nearest_entry (files : Node) (path : Text)
    (htop : ¬files.HasEntry ['/'] gitName) :
    let start := Path.normalise path
    let found := repositoryRoot files.hasPath path
    (∃ n, found = parent^[n] start ∧ files.HasEntry found gitName ∧
        ∀ m < n, ¬files.HasEntry (parent^[m] start) gitName) ∨
      found = start ∧ ∀ n, ¬files.HasEntry (parent^[n] start) gitName := by
  intro start found
  obtain ⟨lead, above, hlead, hnames, hstart, -⟩ := exists_climb path
  replace hstart : start = ofNames lead above.reverse := hstart
  -- every directory above the start is one in normal form, so that its entry can be looked up
  have hentry (n : Nat) :
      holdsGit files.hasPath (parent^[n] start) ↔ files.HasEntry (parent^[n] start) gitName := by
    rw [hstart, Path.iterate_parent_ofNames hlead hnames]
    refine holdsGit_hasPath_iff hlead (Path.areNames_reverse.mpr fun s hs => ?_)
    exact hnames s (List.mem_of_mem_drop hs)
  have hnowhere (top : Text) (h : IsLead top) : ¬holdsGit files.hasPath top := by
    have hslash : IsLead ['/'] := .inl rfl
    have hlacks := mt (hasEntry_lead_iff hslash h).mpr htop
    rwa [← holdsGit_hasPath_iff h (List.forall_mem_nil _), ofNames, Text.join, List.append_nil]
      at hlacks
  rcases repositoryRoot_eq_or files.hasPath path hnowhere with ⟨n, hfound, hholds, hbelow⟩ | hnone
  · replace hfound : found = parent^[n] start := hfound
    replace hholds : holdsGit files.hasPath found := hholds
    refine .inl ⟨n, hfound, ?_, fun m hm => (hentry m).not.mp (hbelow m hm)⟩
    rw [hfound] at hholds ⊢
    exact (hentry n).mp hholds
  · exact .inr ⟨hnone.1, fun n => (hentry n).not.mp (hnone.2 n)⟩

end Workspace

end DebtSurvey
