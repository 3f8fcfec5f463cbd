import DebtSurvey.Proofs.RepositoryRoot

/-!
# What exists in a tree with links

Trees without links are a special case of trees with links, and the same paths exist in both. In a
tree with links, a name leads on from a directory only if the directory has an entry of that name,
whatever links are followed on the way. So the root of a repository, unless it is where the search
for it started, has an entry for version control data.

## Main results

* `LinkTree.hasPath_ofNode`: what exists in a tree without links.
* `LinkTree.hasEntry_of_hasPath`: what exists in a directory is an entry of it.
* `Workspace.repositoryRoot_hasEntry`: the root of a repository has an entry for version control
  data.
-/

namespace DebtSurvey

namespace LinkTree

/-! ### Trees without links -/

theorem lookup?_ofEntries (entries : List (Text × Node)) (name : Text) :
    lookup? (ofEntries entries) name = (Node.lookup? entries name).map ofNode := by
  induction entries with
  | nil => rfl
  | cons entry rest ih =>
    obtain ⟨n, node⟩ := entry
    unfold lookup? Node.lookup? at ih ⊢
    rw [ofEntries, List.find?_cons, List.find?_cons]
    by_cases hname : n = name
    · simp [hname]
    · simpa [hname] using ih

/-- Where there is no link, segments lead to the same node. -/
theorem walk_ofNode (jump : List LinkTree → LinkTree → Text → List Text → Option LinkTree)
    (above : List Node) (here : Node) (segments : List Text) :
    walk jump (above.map ofNode) (ofNode here) segments =
      (Node.follow above here segments).toOption.map ofNode := by
  fun_induction Node.follow above here segments with
  | case1 => simp [walk, Except.toOption]
  | case2 => simp [walk, ofNode, Except.toOption]
  | case3 _ _ _ _ hidle ih => simpa [walk, ofNode, hidle] using ih
  | case4 _ _ _ hidle hup ih => simpa [walk, ofNode, hidle, hup] using ih
  | case5 _ _ _ hidle hup _ _ ih => simpa [walk, ofNode, hidle, hup] using ih
  | case6 _ _ _ _ hidle hup hnone =>
    simp [walk, ofNode, hidle, hup, lookup?_ofEntries, hnone, Except.toOption]
  | case7 _ _ _ _ hidle hup next hnext ih =>
    -- the next node is a file or a directory, and so no link
    cases next <;> simpa [walk, ofNode, hidle, hup, lookup?_ofEntries, hnext] using ih

/-- The same paths exist in a tree without links as in the tree that it is made from. -/
theorem hasPath_ofNode (root : Node) (path : Text) :
    (ofNode root).hasPath path = root.hasPath path := by
  rw [hasPath, at?, Node.hasPath, Node.at?]
  split
  · rfl
  · split
    · have hwalk := fun jump => walk_ofNode jump [] root (Path.segments path)
      rw [show linkLimit = 39 + 1 from rfl, follow, ← List.map_nil, hwalk, Option.isSome_map]
    · rfl

/-! ### Entries -/

variable {top here : LinkTree} {above : List LinkTree} {segments : List Text} {name : Text}

/-- A node is a directory that has an entry of a name. -/
def Holds (name : Text) (node : Option LinkTree) : Prop :=
  ∃ entries, node = some (.dir entries) ∧ (lookup? entries name).isSome

/-- If a name leads on after a walk, it is that of an entry. -/
theorem holds_of_walk_concat
    {jump : List LinkTree → LinkTree → Text → List Text → Option LinkTree} (hname : Path.Names name)
    (hjump : ∀ above here target rest, (jump above here target (rest ++ [name])).isSome →
      Holds name (jump above here target rest))
    (h : (walk jump above here (segments ++ [name])).isSome) :
    Holds name (walk jump above here segments) := by
  have hidle := hname.isIdle_eq_false
  have hnotUp := hname.isUp_eq_false
  fun_induction walk jump above here segments with
  | case1 above here =>
    -- the name is the only segment, so here is the directory
    cases here with
    | file => simp [walk] at h
    | link target => simp [walk] at h
    | dir entries =>
      refine ⟨entries, rfl, ?_⟩
      cases hlookup : lookup? entries name with
      | none => simp [walk, hidle, hnotUp, hlookup] at h
      | some entry => rfl
  | case2 _ _ _ _ hsegment ih => exact ih (by simpa [walk, hsegment] using h)
  | case3 _ _ _ hsegment hsegmentUp ih => exact ih (by simpa [walk, hsegment, hsegmentUp] using h)
  | case4 _ _ _ hsegment hsegmentUp _ _ ih =>
    exact ih (by simpa [walk, hsegment, hsegmentUp] using h)
  | case5 _ _ _ _ hsegment hsegmentUp hlookup =>
    simp [walk, hsegment, hsegmentUp, hlookup] at h
  | case6 above segment rest entries hsegment hsegmentUp target hlookup =>
    exact hjump _ _ _ _ (by simpa [walk, hsegment, hsegmentUp, hlookup] using h)
  | case7 above segment rest entries hsegment hsegmentUp next hlink hlookup ih =>
    refine ih ?_
    cases next with
    | link target => exact absurd rfl (hlink target)
    | _ => simpa [walk, hsegment, hsegmentUp, hlookup] using h
  | case8 => simp_all [walk]

/-- The same if links are followed on the way. -/
theorem holds_of_follow_concat (hname : Path.Names name) (links : Nat)
    (h : (follow top links above here (segments ++ [name])).isSome) :
    Holds name (follow top links above here segments) := by
  induction links generalizing above here segments with
  | zero => exact holds_of_walk_concat hname (by simp) h
  | succ links ih =>
    refine holds_of_walk_concat hname (fun above here target rest hjump => ?_) h
    simp only [← List.append_assoc] at hjump ⊢
    split at hjump
    · rename_i habsolute
      rw [if_pos habsolute]
      exact ih hjump
    · rename_i hrelative
      rw [if_neg hrelative]
      exact ih hjump

/-- Segments that name nothing lead from a directory to itself. -/
theorem follow_idle {entries : List (Text × LinkTree)} {idle : List Text} (links : Nat)
    (hidle : ∀ s ∈ idle, s = []) :
    follow top links above (.dir entries) (idle ++ segments) =
      follow top links above (.dir entries) segments := by
  induction idle with
  | nil => rfl
  | cons s rest ih =>
    obtain ⟨rfl, hrest⟩ := List.forall_mem_cons.mp hidle
    rw [← ih hrest]
    cases links <;> rfl

open DebtSurvey.Path (IsLead AreNames ofNames)

/-- A path in normal form leads through its names from the top, if that is a directory. -/
theorem at?_ofNames {start : Text} {ns : List Text} (hstart : IsLead start) (hnames : AreNames ns) :
    top.at? (ofNames start ns) =
      if (ofNames start ns).contains '\x00' then none
      else match top with
        | .dir entries => follow top linkLimit [] (.dir entries) ns
        | _ => none := by
  have habsolute := Path.isAbsolute_ofNames hstart ns
  obtain ⟨idle, hne, hidle, hsegments⟩ := Path.segments_ofNames hstart hnames
  rw [at?, if_pos habsolute, hsegments]
  cases top with
  | dir entries => rw [follow_idle linkLimit hidle]
  | _ =>
    obtain ⟨s, rest, rfl⟩ := List.exists_cons_of_ne_nil hne
    rfl

end LinkTree

namespace Workspace

open DebtSurvey.Path (IsLead AreNames ofNames)

variable {files : LinkTree} {start : Text} {ns : List Text}

/-- Version control data are found in a directory only if it has an entry for them. -/
theorem hasEntry_of_holdsGit (hstart : IsLead start) (hnames : AreNames ns)
    (h : holdsGit files.hasPath (ofNames start ns)) :
    files.hasEntry (ofNames start ns) gitName := by
  rw [holdsGit, append_gitName hstart hnames, LinkTree.hasPath,
    LinkTree.at?_ofNames hstart (areNames_gitName hnames), contains_null_gitName] at h
  rw [LinkTree.hasEntry, LinkTree.at?_ofNames hstart hnames]
  split at h
  · simp at h
  · rename_i hnull
    rw [if_neg hnull]
    cases files with
    | dir entries =>
      obtain ⟨inner, hinner, hgit⟩ :=
        LinkTree.holds_of_follow_concat names_gitName.1 LinkTree.linkLimit h
      simpa only [hinner] using hgit
    | _ => simp at h

/-- The root of a repository has an entry for version control data, unless the search for it ended
where it started for want of any. -/
theorem repositoryRoot_hasEntry (files : LinkTree) (path : Text) :
    repositoryRoot files.hasPath path = Path.normalise path ∨
      files.hasEntry (repositoryRoot files.hasPath path) gitName := by
  obtain ⟨lead, above, hlead, hnames, hstart, hfound⟩ := exists_climb path
  rw [hfound, hstart]
  cases hclimb : climb? files.hasPath lead above with
  | none => exact .inl rfl
  | some result =>
    obtain ⟨n, hresult, -, hholds, -⟩ := climb?_eq_some hclimb
    have hdrop : AreNames (above.drop n) := fun s hs => hnames s (List.mem_of_mem_drop hs)
    rw [hresult] at hholds
    rw [Option.getD_some, hresult]
    exact .inr (hasEntry_of_holdsGit hlead (Path.areNames_reverse.mpr hdrop) hholds)

end Workspace

end DebtSurvey
