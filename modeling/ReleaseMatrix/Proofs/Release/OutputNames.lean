import ReleaseMatrix.Build.Layout
import ReleaseMatrix.Proofs.Release.Planning

/- The names of the files that a run writes for a variant, and when the files are three, each directly
   in the output directory. The rules of a configuration see to the sample configuration alone. -/
namespace ReleaseMatrix

open Config ReleaseMatrix.Path

variable {n : Normalizer} {d : VariantDescriptor} {os : String}

namespace Normalizer

theorem archiveName_letters (n : Normalizer) (d : VariantDescriptor) :
    ∃ back : List Char, (n.archiveName d).toList = n.project.toList ++ '-' :: back ++ ".zip".toList := by
  have values : ∃ value rest, d.values = value :: rest := by
    obtain ⟨o, rest, overrides⟩ := List.exists_cons_of_ne_nil d.nonempty
    exact ⟨o.value, rest.map EnvOverride.value, by rw [VariantDescriptor.values, overrides]; rfl⟩
  obtain ⟨value, rest, values⟩ := values
  refine ⟨(Text.joinWith "-" (value :: rest)).toList, ?_⟩
  simp only [archiveName, values, Text.joinWith, String.toList_append, List.append_assoc]
  rfl

theorem archiveName_plain_iff (name : ProjectName n.project) :
    Plain (n.archiveName d).toList ↔ ∀ value ∈ d.values, '/' ∉ value.toList := by
  have slash : '/' ∈ (n.archiveName d).toList ↔ ∃ value ∈ d.values, '/' ∈ value.toList := by
    have joined := Text.mem_joinWith (by decide : '/' ∉ "-".toList) (n.project :: d.values)
    rw [archiveName, String.toList_append, List.mem_append, joined]
    simp [name.no_slash]
  have free : '/' ∉ (n.archiveName d).toList ↔ ∀ value ∈ d.values, '/' ∉ value.toList := by
    rw [slash]
    simp
  rw [← free]
  constructor
  · intro plain
    exact plain.whole
  · intro whole
    obtain ⟨back, letters⟩ := archiveName_letters n d
    have long : 4 < (n.archiveName d).toList.length := by
      rw [letters]
      simp
      omega
    refine ⟨whole, ?_, ?_, ?_⟩
    all_goals
      intro short
      rw [short] at long
      simp at long

/-- A binary has a plain name unless the project is named like a step of a path. -/
theorem binaryName_plain_iff (name : ProjectName n.project) :
    Plain (n.binaryName os).toList ↔ os = "windows" ∨ n.project ≠ "." ∧ n.project ≠ ".." := by
  unfold binaryName
  by_cases windows : os = "windows"
  · have whole : '/' ∉ (n.project ++ ".exe").toList := by
      rw [String.toList_append, List.mem_append, not_or]
      exact ⟨name.no_slash, by decide⟩
    have long : 4 ≤ (n.project ++ ".exe").toList.length := by
      rw [String.toList_append, List.length_append]
      exact Nat.le_add_left _ _
    rw [if_pos windows]
    refine ⟨fun _ => .inl windows, fun _ => ⟨whole, ?_, ?_, ?_⟩⟩
    all_goals
      intro short
      rw [short] at long
      simp at long
  · rw [if_neg windows]
    have dot : n.project ≠ "." ↔ n.project.toList ≠ ['.'] :=
      (String.toList_inj : n.project.toList = ".".toList ↔ _).ne.symm
    have dots : n.project ≠ ".." ↔ n.project.toList ≠ ['.', '.'] :=
      (String.toList_inj : n.project.toList = "..".toList ↔ _).ne.symm
    rw [dot, dots]
    constructor
    · intro plain
      exact .inr ⟨plain.not_dot, plain.not_dots⟩
    · rintro (same | ⟨not_dot, not_dots⟩)
      · exact absurd same windows
      · exact ⟨name.no_slash, name.not_empty, not_dot, not_dots⟩

/-- The name of a binary goes on with an extension at most, that of an archive with a value. -/
theorem binaryName_ne_archiveName : n.binaryName os ≠ n.archiveName d := by
  intro same
  obtain ⟨back, letters⟩ := archiveName_letters n d
  rw [← same, binaryName, List.append_assoc] at letters
  split at letters
  · rw [String.toList_append] at letters
    have rest := List.append_cancel_left letters
    simp at rest
  · have lengths := congrArg List.length letters
    simp at lengths

end Normalizer

/-- The sample configuration, the binary and the archive of a variant are three files, each by a plain
    name in the output directory. -/
structure ThreeFiles (l : Layout) (sample : String) (target : BuildTarget) : Prop where
  sample_inside : IsChild l.outputDir (l.outputFile ⟨sample⟩)
  binary_inside : IsChild l.outputDir (l.outputFile ⟨target.binaryName⟩)
  archive_inside : IsChild l.outputDir (l.outputFile ⟨target.archiveName⟩)
  sample_binary : (l.outputFile ⟨sample⟩).components ≠ (l.outputFile ⟨target.binaryName⟩).components
  sample_archive : (l.outputFile ⟨sample⟩).components ≠ (l.outputFile ⟨target.archiveName⟩).components
  binary_archive : (l.outputFile ⟨target.binaryName⟩).components ≠
    (l.outputFile ⟨target.archiveName⟩).components

/-- What the names of a variant have to be besides what the rules ask for. -/
structure NamesApart (c : Config) (d : VariantDescriptor) (target : BuildTarget) : Prop where
  project : target.os = "windows" ∨ c.project.name ≠ "." ∧ c.project.name ≠ ".."
  values : ∀ value ∈ d.values, '/' ∉ value.toList
  sample_binary : c.generator.output ≠ target.binaryName
  sample_archive : c.generator.output ≠ target.archiveName

namespace Release

variable {c : Config} {ambient : List (String × String)} {index : Option Nat}
variable {planned : List PlannedVariant} {p : PlannedVariant}

theorem planned_names (plan : Release.plan c ambient index = .ok planned) (mem : p ∈ planned) :
    c.validate = .ok () ∧ ∃ d, c.variants[p.index]? = some d ∧
      p.variant.target.binaryName = c.normalizer.binaryName p.variant.target.os ∧
      p.variant.target.archiveName = c.normalizer.archiveName d := by
  obtain ⟨d, listed, normal⟩ := planned_entry plan mem
  exact ⟨(plan_ok_iff.mp plan).1, d, listed, Normalizer.normalized_names normal⟩

/-- Whether the files that a run writes for a variant are three files directly in the output directory
    shows in their names. -/
theorem three_files_iff (c : Config) (root : Path) (ambient : List (String × String))
    (index : Option Nat) (planned : List PlannedVariant) (p : PlannedVariant)
    (plan : Release.plan c ambient index = .ok planned) (mem : p ∈ planned) :
    ∃ d, c.variants[p.index]? = some d ∧
      (ThreeFiles (Layout.new root c.build.outputDir) c.generator.output p.variant.target ↔
        NamesApart c d p.variant.target) := by
  obtain ⟨valid, d, listed, binary, archive⟩ := planned_names plan mem
  have name : ProjectName c.normalizer.project := project_name valid
  have sample : Plain c.generator.output.toList := plain_of_fileName (sample_plain valid)
  have binary_relative : isAbsolute ⟨p.variant.target.binaryName⟩ = false := by
    rw [binary, Normalizer.binaryName]
    unfold isAbsolute
    split
    · rw [String.toList_append]
      exact front_relative name.not_empty name.no_slash
    · rw [← List.append_nil (String.toList _)]
      exact front_relative name.not_empty name.no_slash
  have archive_relative : isAbsolute ⟨p.variant.target.archiveName⟩ = false := by
    obtain ⟨back, letters⟩ := c.normalizer.archiveName_letters d
    unfold isAbsolute
    rw [archive, letters, List.append_assoc]
    exact front_relative name.not_empty name.no_slash
  have binary_plain : Plain p.variant.target.binaryName.toList ↔
      p.variant.target.os = "windows" ∨ c.project.name ≠ "." ∧ c.project.name ≠ ".." := by
    rw [binary]
    exact Normalizer.binaryName_plain_iff name
  have archive_plain : Plain p.variant.target.archiveName.toList ↔
      ∀ value ∈ d.values, '/' ∉ value.toList := by
    rw [archive]
    exact Normalizer.archiveName_plain_iff name
  refine ⟨d, listed, ?_, ?_⟩
  · intro files
    refine ⟨binary_plain.mp ((isChild_iff binary_relative).mp files.binary_inside),
      archive_plain.mp ((isChild_iff archive_relative).mp files.archive_inside), ?_, ?_⟩
    · intro same
      exact files.sample_binary (by rw [same])
    · intro same
      exact files.sample_archive (by rw [same])
  · intro names
    have binary_named := binary_plain.mpr names.project
    have archive_named := archive_plain.mpr names.values
    have apart : ∀ {a b : String}, Plain a.toList → Plain b.toList → a ≠ b →
        ((Layout.new root c.build.outputDir).outputFile ⟨a⟩).components ≠
          ((Layout.new root c.build.outputDir).outputFile ⟨b⟩).components := by
      intro a b first second other same
      simp only [Layout.outputFile] at same
      rw [components_join _ first, components_join _ second] at same
      have last := List.append_cancel_left same
      exact other (by simpa using last)
    refine ⟨⟨_, sample, rfl⟩, ⟨_, binary_named, rfl⟩, ⟨_, archive_named, rfl⟩,
      apart sample binary_named names.sample_binary, apart sample archive_named names.sample_archive,
      apart binary_named archive_named ?_⟩
    rw [binary, archive]
    exact Normalizer.binaryName_ne_archiveName

theorem fourth_builtin_three_files : ∃ (planned : List PlannedVariant) (p : PlannedVariant),
    Release.plan {} [] (some 3) = .ok planned ∧ p ∈ planned ∧
      ThreeFiles (Layout.new ⟨"/"⟩ ⟨"release"⟩) "config.yaml" p.variant.target := by
  have checked : ((Release.plan {} [] (some 3)).toOption.any fun planned => planned.any fun p =>
      p.index == 3 && p.variant.target.binaryName != "config.yaml" &&
        p.variant.target.archiveName != "config.yaml") = true := by decide +kernel
  obtain ⟨planned, plan, checked⟩ := Result.ok_of_any checked
  obtain ⟨p, mem, checked⟩ := List.any_eq_true.mp checked
  simp only [Bool.and_eq_true, beq_iff_eq, bne_iff_ne] at checked
  obtain ⟨⟨number, binary⟩, archive⟩ := checked
  obtain ⟨d, listed, files⟩ := three_files_iff {} ⟨"/"⟩ [] (some 3) planned p plan mem
  rw [number] at listed
  obtain rfl : builtinVariants[3] = d := Option.some.inj listed
  exact ⟨planned, p, plan, mem,
    files.mpr ⟨.inr (by decide), by decide +kernel, binary.symm, archive.symm⟩⟩

/-- A project may be named like the step up from a directory, which is then where its binary goes. -/
theorem not_always_three_files : ¬ ∀ (c : Config) (root : Path) (ambient : List (String × String))
    (index : Option Nat) (planned : List PlannedVariant) (p : PlannedVariant),
    Release.plan c ambient index = .ok planned → p ∈ planned →
      ThreeFiles (Layout.new root c.build.outputDir) c.generator.output p.variant.target := by
  intro always
  have checked : ((Release.plan { project := { name := ".." } } [] (some 0)).toOption.any
      fun planned => planned.any fun p => p.variant.target.binaryName == "..") = true := by
    decide +kernel
  obtain ⟨planned, plan, checked⟩ := Result.ok_of_any checked
  obtain ⟨p, mem, climbs⟩ := List.any_eq_true.mp checked
  have inside := (always _ ⟨"/"⟩ _ _ _ p plan mem).binary_inside
  rw [beq_iff_eq.mp climbs] at inside
  exact ((isChild_iff (by decide)).mp inside).not_dots (by decide)

end Release
end ReleaseMatrix
