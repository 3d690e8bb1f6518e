import ReleaseMatrix.Proofs.Cli.Listing
import ReleaseMatrix.Proofs.Config.Load
import ReleaseMatrix.Proofs.Release.Scripted

/- How a project that passes its check is planned. The check takes the rules to be kept since the
   configuration was loaded, and does not ask again after the environment has been put over it. -/
namespace ReleaseMatrix.Cli

open Release Config

variable {s : Session} {g : GlobalOptions} {t : FileTree} {p : Project}

theorem loadFile_valid (loaded : loadFile s g t = .ok p) : p.config.validate = .ok () := by
  unfold loadFile at loaded
  split at loaded
  · obtain ⟨c, read, rfl⟩ := Result.mapped_ok loaded
    exact load_valid read
  · obtain ⟨⟨c, file⟩, found, rfl⟩ := Result.mapped_ok loaded
    exact loadOrDefault_valid found

theorem loadProject_config (loaded : loadProject s g t = .ok p) :
    ∃ c : Config, c.validate = .ok () ∧ p.config = c.override s.host.env.get? := by
  obtain ⟨q, read, rfl⟩ := Result.mapped_ok loaded
  exact ⟨q.config, loadFile_valid read, rfl⟩

structure CheckedPlan (s : Session) (p : Project) (ambient : List (String × String)) : Prop where
  planned : blankVersion s.host.env.get? = false → outputAtRoot s.host.env.get? = false →
    ∃ planned, plan p.config ambient none = .ok planned
  version : blankVersion s.host.env.get? = true → plan p.config ambient none =
    .error (.project (.config (.invalidValue "project.version" "version cannot be empty")))
  output : blankVersion s.host.env.get? = false → outputAtRoot s.host.env.get? = true →
    plan p.config ambient none = .error (.project (.config (.invalidValue "build.output_dir"
      "output directory must differ from the project root")))

theorem own_of_passed {h : Host} (valid : p.config.validate = .ok ())
    (passed : (checkProject h p t).errors = []) : ∀ d ∈ p.config.variants, d.contains Key.os = true := by
  refine (checked_iff (h := h) (t := t) valid).mp ?_
  intro i e mem
  rw [passed] at mem
  cases mem

theorem checked_project_planned (s : Session) (g : GlobalOptions) (t : FileTree) (p : Project)
    (ambient : List (String × String)) (loaded : loadProject s g t = .ok p)
    (passed : (checkProject s.host p t).errors = []) : CheckedPlan s p ambient := by
  obtain ⟨c, valid, overridden⟩ := loadProject_config loaded
  have checked := override_validate valid s.host.env.get?
  rw [← overridden] at checked
  refine ⟨?_, ?_, ?_⟩
  · intro version output
    simp only [version, output] at checked
    have own := whole_entries.mpr (own_of_passed checked passed)
    exact plan_of_os checked (fun i asked => by cases asked) fun entry mem => .inl (own entry mem)
  · intro version
    simp only [version] at checked
    exact plan_invalid checked
  · intro version output
    simp only [version, output] at checked
    exact plan_invalid checked

def smallSession (env : List (String × String)) : Session :=
  ⟨⟨.ofList env, ⟨"/"⟩, fun _ t => (t, .error .notFound)⟩, stillClock⟩

def configuredTree : FileTree := smallTree.put ["gantry.toml"]
  (.file (Utf8.encode "[project]\nname = \"demo\"\n") false)

theorem overridden_project_planned : ∃ (p : Project) (planned : List PlannedVariant),
    loadProject (smallSession [("GANTRY_VERSION", "v2"), ("GANTRY_OUTPUT_DIR", "dist")]) {}
      configuredTree = .ok p ∧ p.config.project.name = "demo" ∧ p.config.project.version = "v2" ∧
    plan p.config [("GOOS", "")] none = .ok planned := by
  have checked : ((loadProject (smallSession [("GANTRY_VERSION", "v2"), ("GANTRY_OUTPUT_DIR", "dist")])
      {} configuredTree).toOption.any fun p => p.config.project.name == "demo" &&
        p.config.project.version == "v2" && (checkProject (smallSession
          [("GANTRY_VERSION", "v2"), ("GANTRY_OUTPUT_DIR", "dist")]).host p configuredTree).errors
            == []) = true := by
    decide +kernel
  obtain ⟨p, loaded, checked⟩ := Result.ok_of_any checked
  simp only [Bool.and_eq_true, beq_iff_eq] at checked
  obtain ⟨⟨name, version⟩, passed⟩ := checked
  have plans := checked_project_planned _ {} configuredTree p [("GOOS", "")] loaded passed
  obtain ⟨planned, plan⟩ := plans.planned (by decide +kernel) (by decide +kernel)
  exact ⟨p, planned, loaded, name, version, plan⟩

/-- A version of a blank comes past the check, and the plan refuses it. -/
theorem checked_not_always_planned : ¬ ∀ (s : Session) (g : GlobalOptions) (t : FileTree) (p : Project)
    (ambient : List (String × String)), loadProject s g t = .ok p →
      (checkProject s.host p t).errors = [] → ∃ planned, plan p.config ambient none = .ok planned := by
  intro always
  have checked : ((loadProject (smallSession [("GANTRY_VERSION", " ")]) {} smallTree).toOption.any
      fun p => (checkProject (smallSession [("GANTRY_VERSION", " ")]).host p smallTree).errors == [] &&
        (plan p.config [] none).toOption.isNone) = true := by
    decide +kernel
  obtain ⟨p, loaded, checked⟩ := Result.ok_of_any checked
  simp only [Bool.and_eq_true, beq_iff_eq] at checked
  obtain ⟨passed, refused⟩ := checked
  obtain ⟨planned, accepted⟩ := always _ {} smallTree p [] loaded passed
  rw [accepted] at refused
  cases refused

end ReleaseMatrix.Cli
