import ReleaseMatrix.Config.Load
import ReleaseMatrix.Proofs.Config.Validation

/- A configuration that is loaded keeps the rules. What the environment puts over it is not checked
   there, and can break two of them. -/
namespace ReleaseMatrix.Config

variable {c : Config} {t : FileTree} {file start : Path} {lookup : String → Option String}

theorem load_valid (loaded : load t file = .ok c) : c.validate = .ok () := by
  unfold load at loaded
  split at loaded
  · cases loaded
  · split at loaded
    · cases loaded
    · split at loaded
      · cases loaded
      · rename_i valid
        cases loaded
        exact valid

theorem loadOrDefault_valid {found : Option Path} (loaded : loadOrDefault t start = .ok (c, found)) :
    c.validate = .ok () := by
  unfold loadOrDefault at loaded
  split at loaded
  · rename_i c' file' nearest
    cases loaded
    unfold loadFrom at nearest
    split at nearest
    · cases nearest
    · split at nearest
      · cases nearest
      · rename_i read
        cases nearest
        exact load_valid read
  · cases loaded
    exact default_valid
  · cases loaded

def OfLoading (e : ProjectError) : Prop := (∃ fault, e = .config fault) ∨ e = .variant .emptyCatalog

theorem load_error {e : ProjectError} (failed : load t file = .error e) : OfLoading e := by
  unfold load at failed
  split at failed
  · exact .inl ⟨_, (Except.error.inj failed).symm⟩
  · split at failed
    · exact .inl ⟨_, (Except.error.inj failed).symm⟩
    · split at failed
      · rename_i invalid
        cases failed
        rcases validate_error invalid with ⟨field, detail, rfl⟩ | ⟨rfl, _⟩
        · exact .inl ⟨_, rfl⟩
        · exact .inr rfl
      · cases failed

theorem loadOrDefault_error {e : ProjectError} (failed : loadOrDefault t start = .error e) :
    OfLoading e := by
  unfold loadOrDefault at failed
  split at failed
  · cases failed
  · cases failed
  · rename_i nearest
    cases failed
    unfold loadFrom at nearest
    split at nearest
    · cases nearest
      exact .inl ⟨_, rfl⟩
    · split at nearest
      · rename_i unread
        cases nearest
        exact load_error unread
      · cases nearest

def told (lookup : String → Option String) (variable_ : String) : Option String :=
  (lookup variable_).filter (· != "")

theorem told_nonempty {name value : String} (given : told lookup name = some value) : value ≠ "" := by
  have visible := (Option.filter_eq_some_iff.mp given).2
  exact bne_iff_ne.mp visible

theorem checkProject_version {p : ProjectConfig} (kept : checkProject p = .ok ()) (version : String) :
    checkProject { p with version := version } =
      if Text.allBlank version then invalid "project.version" "version cannot be empty" else .ok () := by
  unfold checkProject at kept ⊢
  split at kept
  · cases kept
  · rename_i named
    split at kept
    · cases kept
    · rename_i whole
      simp only [named, whole]
      rfl

theorem checkBuild_output {b : BuildConfig} (kept : checkBuild b = .ok ()) {dir : Path}
    (some_text : dir.text ≠ "") :
    checkBuild { b with outputDir := dir } =
      if isProjectRoot dir then
        invalid "build.output_dir" "output directory must differ from the project root"
      else .ok () := by
  unfold checkBuild at kept ⊢
  split at kept
  · cases kept
  · split at kept
    · cases kept
    · rw [if_neg some_text]
      exact congrArg _ kept

def blankVersion (lookup : String → Option String) : Bool :=
  (told lookup versionVariable).any Text.allBlank

def outputAtRoot (lookup : String → Option String) : Bool :=
  (told lookup outputDirVariable).any fun dir => isProjectRoot ⟨dir⟩

theorem overridden_project (kept : checkProject c.project = .ok ()) :
    checkProject (c.override lookup).project =
      if blankVersion lookup then invalid "project.version" "version cannot be empty" else .ok () := by
  show checkProject { c.project with
    version := (told lookup versionVariable).getD c.project.version } = _
  unfold blankVersion
  cases told lookup versionVariable with
  | none => exact kept
  | some version => exact checkProject_version kept version

theorem overridden_build (kept : checkBuild c.build = .ok ()) :
    checkBuild (c.override lookup).build =
      if outputAtRoot lookup then
        invalid "build.output_dir" "output directory must differ from the project root"
      else .ok () := by
  show checkBuild { c.build with
    outputDir := ((told lookup outputDirVariable).map Path.mk).getD c.build.outputDir } = _
  unfold outputAtRoot
  cases given : told lookup outputDirVariable with
  | none => exact kept
  | some dir => exact checkBuild_output kept (told_nonempty given)

/-- Two rules can be broken by what is put over, and that of the version comes first. -/
theorem override_validate (valid : c.validate = .ok ()) (lookup : String → Option String) :
    (c.override lookup).validate =
      if blankVersion lookup then invalid "project.version" "version cannot be empty"
      else if outputAtRoot lookup then
        invalid "build.output_dir" "output directory must differ from the project root"
      else .ok () := by
  have rules := validate_ok_iff.mp valid
  have generator : checkGenerator (c.override lookup).generator = .ok () := rules.generator
  have package : checkPackage (c.override lookup).package = .ok () := rules.package
  have variants : checkVariants (c.override lookup).variants = .ok () := rules.variants
  simp only [validate, overridden_project rules.project, overridden_build rules.build, generator,
    package, variants]
  cases blankVersion lookup with
  | true => rfl
  | false => cases outputAtRoot lookup <;> rfl

end ReleaseMatrix.Config
