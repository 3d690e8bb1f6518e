import ReleaseMatrix.Cli.Project
import ReleaseMatrix.Proofs.Build.OutputDirectory
import ReleaseMatrix.Proofs.Config.Search

/- Where the level of a found configuration lies. The search goes by the text of the start directory, so
   with steps up in it a level can be a directory that the start directory is not in. -/
namespace ReleaseMatrix

open FileTree ReleaseMatrix.Path

variable {t : FileTree} {start level file : Path} {comps : List Component}

namespace Course

def along (comps : List Component) : Course := (comps.map Component.hop).foldl go ⟨0, []⟩

theorem leads_along (comps : List Component) (loc : Location) :
    (along comps).leads loc = follow loc (comps.map Component.hop) :=
  leads_all ⟨0, []⟩ (comps.map Component.hop) loc

/-- A course stays inside where it goes down again by the names that it has gone up from. -/
theorem inside_iff (c : Course) (loc : Location) : loc <:+ c.leads loc ↔ loc.take c.ups <:+ c.down := by
  calc loc <:+ c.leads loc
      ↔ loc.take c.ups ++ loc.drop c.ups <:+ c.down ++ loc.drop c.ups := by
        rw [List.take_append_drop, leads]
    _ ↔ loc.take c.ups <:+ c.down := by
        rw [← List.reverse_prefix, List.reverse_append, List.reverse_append,
          List.prefix_append_right_inj, List.reverse_prefix]

end Course

namespace Path

theorem place_onward {p : Path} (onward : p.components = level.components ++ comps) :
    placeOf p = (Course.along comps).leads (placeOf level) := by
  rw [Course.leads_along, place_way, place_way, ← follow_components, ← follow_components,
    ← components, ← components, onward, List.map_append, follow, List.foldl_append]
  rfl

theorem absolute_iff (p : Path) : p.isAbsolute = true ↔ .root ∈ p.components := by
  constructor
  · intro absolute
    obtain ⟨rest, slash⟩ := List.head?_eq_some_iff.mp (by
      simpa [isAbsolute, absolute_head] using absolute)
    rw [components, slash, components_rooted]
    exact List.mem_cons_self
  · intro root
    rcases component_cases root with front | ⟨step, _⟩
    · rcases lead_cases front with ⟨_, absolute⟩ | ⟨other, _⟩
      · exact absolute
      · cases other
    · exact step.elim

end Path

namespace Config

/-- How the directories from a level on to the start lie to the level. -/
structure Onward (start level : Path) (beyond : List Component) : Prop where
  components : start.components = level.components ++ beyond
  absolute : level.isAbsolute = start.isAbsolute
  inside_iff : placeOf level <:+ placeOf start ↔
    (placeOf level).take (Course.along beyond).ups <:+ (Course.along beyond).down
  inside : .parent ∉ beyond → placeOf level <:+ placeOf start

theorem level_onward (mem : level ∈ start.ancestors) : ∃ beyond, Onward start level beyond := by
  obtain ⟨beyond, no_root, components⟩ := (ancestors_levels start).beyond mem
  have inside_iff := (Course.along beyond).inside_iff (placeOf level)
  rw [← place_onward components] at inside_iff
  refine ⟨beyond, components, ?_, inside_iff, fun straight => inside_iff.mpr ?_⟩
  · rw [Bool.eq_iff_iff, absolute_iff, absolute_iff, components, List.mem_append, or_iff_left no_root]
  · obtain ⟨names, course, _⟩ := level_course straight []
    rw [Course.along, course, List.take_zero]
    exact List.nil_suffix

/-- A found configuration, the level that it is at, and the projects that it is used for. -/
structure Found (t : FileTree) (start file : Path) : Prop where
  level : ∃ level name hosted beyond, FirstMatch t start level name hosted ∧
    file = fileAt level name hosted ∧ Onward start level beyond
  project : ∀ s g p, Cli.workingDirectory s g = start → g.config = none →
    Cli.loadProject s g t = .ok p → p.file = some file ∧
      ∃ c, load t file = .ok c ∧ p.config = c.override s.host.env.get?

theorem found_level (found : find t start = some file) : Found t start file where
  level := by
    obtain ⟨level, name, hosted, first, rfl⟩ := find_some_iff.mp found
    obtain ⟨beyond, onward⟩ := level_onward first.is_level
    exact ⟨level, name, hosted, beyond, first, rfl, onward⟩
  project s g p directory unnamed loaded := by
    obtain ⟨q, read, rfl⟩ := Result.mapped_ok loaded
    rw [Cli.loadFile, unnamed, directory] at read
    obtain ⟨⟨c, place⟩, nearest, rfl⟩ := Result.mapped_ok read
    rw [loadOrDefault_cases, found] at nearest
    obtain ⟨c', parsed, same⟩ := Result.mapped_ok nearest
    cases same
    exact ⟨rfl, c, parsed, rfl⟩

def neighbours : FileTree :=
  let projects := ((∅ : FileTree).put ["b"] .directory).put ["a"] .directory
  projects.put ["gantry.toml", "a"] (.file [] false)

theorem detour_found : find neighbours ⟨"/b/../a/."⟩ = some ⟨"/b/../a/./gantry.toml"⟩ ∧
    Found neighbours ⟨"/b/../a/."⟩ ⟨"/b/../a/./gantry.toml"⟩ := by
  have found : find neighbours ⟨"/b/../a/."⟩ = some ⟨"/b/../a/./gantry.toml"⟩ := by decide +kernel
  exact ⟨found, found_level found⟩

/-- A project takes the configuration of the one beside it, through which it was named. -/
theorem neighbour_found : ¬ ∀ (t : FileTree) (start level : Path) (name : String) (hosted : Bool),
    start.isAbsolute = true → FirstMatch t start level name hosted →
    find t start = some (fileAt level name hosted) → placeOf level <:+ placeOf start := by
  intro encloses
  have first : FirstMatch neighbours ⟨"/a/../b"⟩ ⟨"/a"⟩ "gantry.toml" false :=
    ⟨⟨[⟨"/a/../b"⟩, ⟨"/a/.."⟩], [⟨"/"⟩], by decide +kernel, by decide +kernel⟩,
      ⟨[], _, rfl, by simp⟩, Bool.noConfusion, by decide +kernel⟩
  have found := find_some_iff.mpr ⟨_, _, _, first, rfl⟩
  exact absurd (encloses _ _ _ _ _ (by decide) first found) (by decide +kernel)

end Config
end ReleaseMatrix
