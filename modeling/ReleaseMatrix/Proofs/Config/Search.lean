import ReleaseMatrix.Proofs.Config.Load
import ReleaseMatrix.Proofs.FileTree.Parent

/- Which configuration is found from a directory: the first that exists, over the levels from there
   outwards, over the names at a level, and for a name beside its directory for hosting. The project root
   is the level itself, unless the level is such a directory. -/
namespace ReleaseMatrix.Config

open ReleaseMatrix.Path

variable {t : FileTree} {start level file : Path} {name : String} {hosted : Bool}

def fileAt (level : Path) (name : String) (hosted : Bool) : Path :=
  if hosted then (level.join ⟨hostingDirectory⟩).join ⟨name⟩ else level.join ⟨name⟩

/-- Nothing in front of a configuration file exists, but the file does. -/
structure FirstMatch (t : FileTree) (start level : Path) (name : String) (hosted : Bool) : Prop where
  nearer : ∃ inner outer, start.ancestors = inner ++ level :: outer ∧
    ∀ l ∈ inner, ∀ n ∈ fileNames, ∀ h, t.exists? (fileAt l n h) = false
  earlier : ∃ before after, fileNames = before ++ name :: after ∧
    ∀ n ∈ before, ∀ h, t.exists? (fileAt level n h) = false
  beside : hosted = true → t.exists? (fileAt level name false) = false
  there : t.exists? (fileAt level name hosted) = true

theorem FirstMatch.is_level (first : FirstMatch t start level name hosted) : level ∈ start.ancestors := by
  obtain ⟨inner, outer, levels, _⟩ := first.nearer
  rw [levels]
  exact List.mem_append_right inner List.mem_cons_self

theorem FirstMatch.is_name (first : FirstMatch t start level name hosted) : name ∈ fileNames := by
  obtain ⟨before, after, names, _⟩ := first.earlier
  rw [names]
  exact List.mem_append_right before List.mem_cons_self

theorem candidatesAt_files (level : Path) : candidatesAt level =
    fileNames.flatMap fun name => [fileAt level name false, fileAt level name true] := rfl

theorem find_levels (t : FileTree) (start : Path) : find t start =
    start.ancestors.findSome? fun level => fileNames.findSome? fun name =>
      [fileAt level name false, fileAt level name true].find? t.exists? := by
  rw [find, candidates, List.find?_flatMap]
  congr
  funext level
  rw [candidatesAt_files, List.find?_flatMap]

theorem find_beside : [fileAt level name false, fileAt level name true].find? t.exists? = some file ↔
    ∃ hosted, (hosted = true → t.exists? (fileAt level name false) = false) ∧
      t.exists? (fileAt level name hosted) = true ∧ file = fileAt level name hosted := by
  cases beside : t.exists? (fileAt level name false) <;>
    cases within : t.exists? (fileAt level name true) <;>
      simp [List.find?, beside, within, Bool.exists_bool, eq_comm (a := file)]

theorem find_nowhere : [fileAt level name false, fileAt level name true].find? t.exists? = none ↔
    ∀ h, t.exists? (fileAt level name h) = false := by
  simp [List.find?_eq_none]

theorem find_some_iff : find t start = some file ↔
    ∃ level name hosted, FirstMatch t start level name hosted ∧ file = fileAt level name hosted := by
  simp only [find_levels, List.findSome?_eq_some_iff, List.findSome?_eq_none_iff, find_beside,
    find_nowhere]
  constructor
  · rintro ⟨inner, level, outer, levels, ⟨before, name, after, names, ⟨hosted, beside, there, rfl⟩,
      earlier⟩, nearer⟩
    exact ⟨level, name, hosted, ⟨⟨inner, outer, levels, nearer⟩, ⟨before, after, names, earlier⟩,
      beside, there⟩, rfl⟩
  · rintro ⟨level, name, hosted, ⟨⟨inner, outer, levels, nearer⟩, ⟨before, after, names, earlier⟩,
      beside, there⟩, rfl⟩
    exact ⟨inner, level, outer, levels, ⟨before, name, after, names, ⟨hosted, beside, there, rfl⟩,
      earlier⟩, nearer⟩

theorem find_none_iff : find t start = none ↔ ∀ level ∈ start.ancestors, ∀ name ∈ fileNames,
    ∀ h, t.exists? (fileAt level name h) = false := by
  simp only [find_levels, List.findSome?_eq_none_iff, find_nowhere]

theorem fileName_plain (mem : name ∈ fileNames) : Plain name.toList := by
  refine plain_of_fileName ?_
  revert name
  decide

theorem hosting_plain : Plain hostingDirectory.toList := plain_of_fileName (by decide)

theorem root_of_child (base : Path) (plain : Plain name.toList) :
    if base.fileName = some hostingDirectory then
      ∃ up, base.parent = some up ∧ (projectRoot (base.join ⟨name⟩)).components = up.components
    else (projectRoot (base.join ⟨name⟩)).components = base.components := by
  obtain ⟨dir, above, same⟩ := parent_of_child base plain
  simp only [projectRoot, above, Option.getD_some, fileName_congr same]
  split
  · rename_i hosting
    obtain ⟨up, outside, longer⟩ := named_parent hosting
    obtain ⟨up', outside', longer'⟩ := named_parent ((fileName_congr same).trans hosting)
    refine ⟨up, outside, ?_⟩
    rw [outside', Option.getD_some]
    exact List.append_cancel_right (longer'.symm.trans (same.trans longer))
  · exact same

def RootFor (level : Path) (hosted : Bool) (root : Path) : Prop :=
  if hosted = false ∧ level.fileName = some hostingDirectory then
    ∃ up, level.parent = some up ∧ root.same up = true
  else root.same level = true

theorem projectRoot_for (mem : name ∈ fileNames) (level : Path) (hosted : Bool) :
    RootFor level hosted (projectRoot (fileAt level name hosted)) := by
  have plain := fileName_plain mem
  unfold RootFor Path.same
  simp only [decide_eq_true_eq]
  cases hosted with
  | false =>
    simp only [true_and]
    exact root_of_child level plain
  | true =>
    have around := root_of_child (level.join ⟨hostingDirectory⟩) plain
    obtain ⟨up', outside', same⟩ := parent_of_child level hosting_plain
    rw [if_pos (child_fileName level hosting_plain)] at around
    obtain ⟨up, outside, root⟩ := around
    rw [outside] at outside'
    obtain rfl := Option.some.inj outside'
    rw [if_neg (by simp)]
    exact root.trans same

theorem load_found {e : ProjectError} (failed : load t file = .error e) (start : Path) :
    e ≠ .config (.notFound start) := by
  rintro rfl
  unfold load at failed
  split at failed
  · simp at failed
  · split at failed
    · rename_i unparsed
      obtain rfl := ProjectError.config.inj (Except.error.inj failed)
      unfold parse at unparsed
      split at unparsed <;> split at unparsed <;> cases unparsed
    · split at failed
      · rename_i invalid
        rw [Except.error.inj failed] at invalid
        rcases validate_error invalid with ⟨_, _, other⟩ | ⟨other, _⟩
        · simp at other
        · simp at other
      · simp at failed

theorem loadOrDefault_cases (t : FileTree) (start : Path) : loadOrDefault t start =
    match find t start with
    | none => .ok ({}, none)
    | some file => (load t file).map fun c => (c, some file) := by
  unfold loadOrDefault loadFrom
  cases find t start with
  | none => rfl
  | some file =>
    dsimp only
    cases loaded : load t file with
    | ok c => rfl
    | error e =>
      dsimp only
      split
      · rename_i done
        cases done
      · rename_i missing
        exact (load_found loaded _ (Except.error.inj missing)).elim
      · rename_i same
        cases same
        rfl

/-- What a search for a configuration comes to. -/
structure Search (t : FileTree) (start : Path) : Prop where
  levels_iff : ∀ levels, Levels start levels ↔ levels = start.ancestors
  found_iff : ∀ file, find t start = some file ↔
    ∃ level name hosted, FirstMatch t start level name hosted ∧ file = fileAt level name hosted
  none_iff : find t start = none ↔ ∀ level ∈ start.ancestors, ∀ name ∈ fileNames,
    ∀ h, t.exists? (fileAt level name h) = false
  root : ∀ level name hosted, FirstMatch t start level name hosted →
    RootFor level hosted (projectRoot (fileAt level name hosted))
  default_iff : ∀ c, loadOrDefault t start = .ok (c, none) ↔ find t start = none ∧ c = {}
  loaded : ∀ file, find t start = some file →
    loadOrDefault t start = (load t file).map fun c => (c, some file)

/-- A relative start is one of a process whose current directory is the top, since paths in a tree start
    there. -/
theorem search_outwards (t : FileTree) (start : Path) : Search t start where
  levels_iff levels :=
    ⟨fun found => found.unique (ancestors_levels start), fun same => same ▸ ancestors_levels start⟩
  found_iff file := find_some_iff
  none_iff := find_none_iff
  root level name hosted first := projectRoot_for first.is_name level hosted
  default_iff c := by
    rw [loadOrDefault_cases]
    cases find t start with
    | none => simp [eq_comm]
    | some file =>
      dsimp only
      cases load t file <;> simp [Except.map]
  loaded file found := by rw [loadOrDefault_cases, found]

end ReleaseMatrix.Config
