import ReleaseMatrix.Config.Validation
import ReleaseMatrix.Proofs.Path
import ReleaseMatrix.Proofs.Result

/- What the rules of a configuration come to for the names that its files are made of: the project has
   a name without slashes, and the sample configuration a plain file name. A rule that is broken is an
   error about a value, or that there are no variants. -/
namespace ReleaseMatrix.Config

variable {c : Config} {name : String}

structure KeepsRules (c : Config) : Prop where
  project : checkProject c.project = .ok ()
  build : checkBuild c.build = .ok ()
  generator : checkGenerator c.generator = .ok ()
  package : checkPackage c.package = .ok ()
  variants : checkVariants c.variants = .ok ()

theorem validate_ok_iff : c.validate = .ok () ↔ KeepsRules c := by
  constructor
  · intro valid
    obtain ⟨_, project, valid⟩ := Result.bind_ok valid
    obtain ⟨_, build, valid⟩ := Result.bind_ok valid
    obtain ⟨_, generator, valid⟩ := Result.bind_ok valid
    obtain ⟨_, package, variants⟩ := Result.bind_ok valid
    exact ⟨project, build, generator, package, variants⟩
  · intro rules
    simp only [validate, rules.project, rules.build, rules.generator, rules.package]
    exact rules.variants

theorem default_valid : ({} : Config).validate = .ok () := rfl

structure ProjectName (name : String) : Prop where
  not_empty : name.toList ≠ []
  no_slash : '/' ∉ name.toList

theorem project_name (valid : c.validate = .ok ()) : ProjectName c.project.name := by
  have checked := (validate_ok_iff.mp valid).project
  unfold checkProject at checked
  split at checked
  · simp [invalid] at checked
  · rename_i visible
    split at checked
    · simp [invalid] at checked
    · rename_i whole
      refine ⟨?_, ?_⟩
      · intro empty
        exact visible (by simp [Text.allBlank, empty])
      · intro slash
        exact whole (by simp [Text.contains, slash])

theorem output_named (valid : c.validate = .ok ()) : isProjectRoot c.build.outputDir = false := by
  have checked := (validate_ok_iff.mp valid).build
  unfold checkBuild at checked
  split at checked
  · cases checked
  · split at checked
    · cases checked
    · rename_i apart
      exact Bool.eq_false_of_not_eq_true apart

theorem time_format_valid (valid : c.validate = .ok ()) :
    Time.Format.isValid c.build.buildTimeFormat = true := by
  have checked := (validate_ok_iff.mp valid).build
  by_contra broken
  rw [Bool.not_eq_true] at broken
  unfold checkBuild at checked
  simp only [broken, Bool.not_false, Bool.or_true, if_true] at checked
  split_ifs at checked
  all_goals cases checked

theorem sample_plain (valid : c.validate = .ok ()) :
    Path.fileName ⟨c.generator.output⟩ = some c.generator.output := by
  have checked := (validate_ok_iff.mp valid).generator
  unfold checkGenerator at checked
  split at checked
  · simp [invalid] at checked
  · split at checked
    · rename_i own
      exact own
    · simp [invalid] at checked

theorem variants_listed (valid : c.validate = .ok ()) : c.variants ≠ [] := by
  have checked := (validate_ok_iff.mp valid).variants
  intro none_
  simp [checkVariants, none_] at checked

section Broken

variable {e : ProjectError}

def NamesValue (e : ProjectError) : Prop := ∃ field detail, e = .config (.invalidValue field detail)

theorem invalid_names {field detail : String} (failed : invalid field detail = .error e) :
    NamesValue e := ⟨field, detail, (Except.error.inj failed).symm⟩

theorem checkProject_names {p : ProjectConfig} (failed : checkProject p = .error e) : NamesValue e := by
  unfold checkProject at failed
  split at failed
  · exact invalid_names failed
  · split at failed
    · exact invalid_names failed
    · split at failed
      · exact invalid_names failed
      · cases failed

theorem checkBuild_names {b : BuildConfig} (failed : checkBuild b = .error e) : NamesValue e := by
  unfold checkBuild at failed
  split_ifs at failed
  all_goals exact invalid_names failed

theorem checkGenerator_names {c : GeneratorConfig} (failed : checkGenerator c = .error e) :
    NamesValue e := by
  unfold checkGenerator at failed
  split at failed
  · exact invalid_names failed
  · split at failed
    · cases failed
    · exact invalid_names failed

theorem checkPackage_names {p : PackageConfig} (failed : checkPackage p = .error e) :
    NamesValue e := by
  unfold checkPackage at failed
  split at failed
  · exact invalid_names failed
  · cases failed

/-- Only the last rule, that there are variants, is not about a value. -/
theorem validate_error (failed : c.validate = .error e) :
    NamesValue e ∨ e = .variant .emptyCatalog ∧ c.variants = [] := by
  rcases Result.bind_error failed with fault | ⟨_, _, failed⟩
  · exact .inl (checkProject_names fault)
  rcases Result.bind_error failed with fault | ⟨_, _, failed⟩
  · exact .inl (checkBuild_names fault)
  rcases Result.bind_error failed with fault | ⟨_, _, failed⟩
  · exact .inl (checkGenerator_names fault)
  rcases Result.bind_error failed with fault | ⟨_, _, failed⟩
  · exact .inl (checkPackage_names fault)
  · unfold checkVariants at failed
    split at failed
    · rename_i none_
      exact .inr ⟨(Except.error.inj failed).symm, List.isEmpty_iff.mp none_⟩
    · cases failed

end Broken

end ReleaseMatrix.Config
