import DebtSurvey.Analysis.Audit
import DebtSurvey.Proofs.Numeral
import DebtSurvey.Proofs.Pieces

/-!
# Keys

The identity of a finding is the digest of its key, a text that joins the parts of its place by
colons. A numeral holds no colon, and neither does the name of a kind. So the parts of a key that
ends in them can be told apart from the back, whatever the name of the file is. The key of a package
is another matter: its name and title are joined without either being known to be free of colons.

## Main results

* `Key.eq_of_text_eq`: keys of places in files are told apart by their texts.
* `Key.name_eq_of_text_eq`: so are packages whose names hold no colon.
* `Key.text_ne_of_dep`: a package never has the key of a place in a file, unless the name of the file
  starts like one.
-/

namespace DebtSurvey

namespace Text

theorem ofNat_injective : Function.Injective ofNat := fun m n h => by
  rw [← digitsToNat_digitsOf m, digitsOf, h]
  exact digitsToNat_digitsOf n

theorem colon_notMem_ofNat (n : Nat) : ':' ∉ ofNat n := fun h =>
  absurd (isDigit_of_mem_ofNat h) (by decide)

end Text

/-- What the identity of a finding is made of. -/
inductive Key where
  /-- A line with a marker. -/
  | marker (file : Text) (line : Nat)
  /-- The line of a function. -/
  | function (file : Text) (line : Nat)
  /-- A package and the title of its vulnerability. -/
  | package (name title : Text)
  /-- A stale file. -/
  | stale (file : Text)
deriving DecidableEq, Repr

namespace Key

/-- The kind of the findings with a key. -/
def kind : Key → Kind
  | .marker .. => .todo
  | .function .. => .complexity
  | .package .. => .dep
  | .stale .. => .stale

/-- The file of the findings with a key. -/
def file : Key → Text
  | .marker file _ => file
  | .function file _ => file
  | .package .. => Audit.manifest
  | .stale file => file

/-- The parts that make the text of a key. -/
def parts : Key → List Text
  | .marker file line => [file, Text.ofNat line, Kind.todo.name]
  | .function file line => [file, Text.ofNat line, Kind.complexity.name]
  | .package name title => ["dep", name, title]
  | .stale file => [file, Kind.stale.name]

/-- The text of a key. -/
def text (k : Key) : Text := Text.join [':'] k.parts

variable {k l : Key}

/-- What stands before the name of the kind, where that is the last part. -/
def place : Key → Text
  | .marker file line => file ++ ':' :: Text.ofNat line
  | .function file line => file ++ ':' :: Text.ofNat line
  | .package .. => []
  | .stale file => file

theorem text_eq_place (h : k.kind ≠ .dep) : k.text = k.place ++ ':' :: k.kind.name := by
  cases k with
  | package => exact absurd rfl h
  | _ => simp [text, parts, place, kind, Text.join]

theorem text_package (name title : Text) :
    (package name title).text = "dep" ++ ':' :: (name ++ ':' :: title) := by
  simp [text, parts, Text.join]

theorem colon_notMem_name (kind : Kind) : ':' ∉ kind.name := by cases kind <;> decide

/-- Keys of places in files are told apart by their texts, whatever the names of the files are. -/
theorem eq_of_text_eq (hk : k.kind ≠ .dep) (hl : l.kind ≠ .dep) (h : k.text = l.text) : k = l := by
  rw [text_eq_place hk, text_eq_place hl] at h
  obtain ⟨hplace, hname⟩ :=
    Text.eq_of_append_cons_eq (colon_notMem_name _) (colon_notMem_name _) h
  have hkind : k.kind = l.kind := by
    have hof := Kind.ofName?_name k.kind
    rw [hname, Kind.ofName?_name] at hof
    exact (Option.some.inj hof).symm
  -- the line is behind the last colon of a place with a line
  have hline {file file' : Text} {line line' : Nat}
      (hplace : file ++ ':' :: Text.ofNat line = file' ++ ':' :: Text.ofNat line') :
      file = file' ∧ line = line' :=
    (Text.eq_of_append_cons_eq (Text.colon_notMem_ofNat _) (Text.colon_notMem_ofNat _) hplace).imp_right
      fun hnumeral => Text.ofNat_injective hnumeral
  cases k <;> cases l <;> cases hkind
  · obtain ⟨rfl, rfl⟩ := hline hplace
    rfl
  · obtain ⟨rfl, rfl⟩ := hline hplace
    rfl
  · exact absurd rfl hk
  · exact congrArg stale hplace

/-- Packages whose names hold no colon are told apart by their keys. -/
theorem name_eq_of_text_eq {name name' title title' : Text} (hname : ':' ∉ name)
    (hname' : ':' ∉ name') (h : (package name title).text = (package name' title').text) :
    name = name' := by
  rw [text_package, text_package, List.append_cancel_left_eq, List.cons_inj_right] at h
  have htake := congrArg (List.takeWhile (· ≠ ':')) h
  rwa [Text.takeWhile_append_cons, Text.takeWhile_append_cons, Text.takeWhile_of_notMem hname,
    Text.takeWhile_of_notMem hname'] at htake

-- With colons in names, different packages may have one key.
example : (package "p:q" "r").text = (package "p" "q:r").text := by decide

/-- The text of a key starts with the file that it is a place in. -/
theorem takeWhile_text (h : k.kind ≠ .dep) :
    k.text.takeWhile (· ≠ ':') = k.file.takeWhile (· ≠ ':') := by
  rw [text_eq_place h, Text.takeWhile_append_cons]
  cases k with
  | marker file line => exact Text.takeWhile_append_cons _ _ _
  | function file line => exact Text.takeWhile_append_cons _ _ _
  | package => exact absurd rfl h
  | stale file => rfl

/-- A key that reads in one way only: a package has no colon in its name, and a file does not start
like a package. -/
def IsOrdinary : Key → Prop
  | .package name _ => ':' ∉ name
  | k => k.file.takeWhile (· ≠ ':') ≠ "dep"

/-- A package has the key of no place in a file, unless the file is named like a package. -/
theorem text_ne_of_dep (hk : k.kind = .dep) (hl : l.kind ≠ .dep) (hordinary : l.IsOrdinary) :
    k.text ≠ l.text := by
  intro h
  have hfile : l.file.takeWhile (· ≠ ':') ≠ "dep" := by
    cases l with
    | package => exact absurd rfl hl
    | _ => exact hordinary
  cases k with
  | package name title =>
    refine hfile ?_
    rw [← takeWhile_text hl, ← h, text_package, Text.takeWhile_append_cons]
    rfl
  | _ => cases hk

end Key

end DebtSurvey
