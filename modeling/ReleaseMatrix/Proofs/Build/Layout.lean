import ReleaseMatrix.Build.CommandGenerator
import ReleaseMatrix.Build.Go
import ReleaseMatrix.Cli.Validate
import ReleaseMatrix.Proofs.Config.Validation
import ReleaseMatrix.Proofs.FileTree.Join

/- Paths of the project as tools in the output directory get them: they lead to where the project means
   them to, and from an output directory that the rules allow they are no bare names. -/
namespace ReleaseMatrix

open FileTree ReleaseMatrix.Path

variable {root dir p : Path} {loc : Location}

namespace Path

variable {base : Path} {comps : List Component} {cs : List Char}

def Dotless (cs : List Char) : Prop := ['.'] ∉ Text.splitAll '/' cs

instance : Decidable (Dotless cs) := inferInstanceAs (Decidable (_ ∉ _))

def StartsUp (cs : List Char) : Prop := cs = ['.', '.'] ∨ ∃ rest, cs = '.' :: '.' :: '/' :: rest

theorem startsUp_join (up : StartsUp base.text.toList) (relative : p.isAbsolute = false) :
    StartsUp (base.join p).text.toList := by
  have joined := join_relative base relative
  generalize base.text.toList = front at up joined
  generalize (base.join p).text.toList = text at joined
  cases joined with
  | alone empty =>
    rcases up with rfl | ⟨rest, rfl⟩
    · cases empty
    · cases empty
  | own_slash before slashed =>
    rcases up with rfl | ⟨rest, rfl⟩
    · have last := congrArg List.getLast? slashed
      simp at last
    · refine .inr ⟨rest ++ p.text.toList, ?_⟩
      rw [List.append_cons, ← slashed]
      rfl
  | new_slash =>
    rcases up with rfl | ⟨rest, rfl⟩
    · exact .inr ⟨_, rfl⟩
    · exact .inr ⟨_, rfl⟩

theorem startsUp_joinAll (up : StartsUp base.text.toList) (steps : ∀ c ∈ comps, c.IsStep) :
    StartsUp (base.joinAll comps).text.toList := by
  refine joinAll_keeps (P := fun p => StartsUp p.text.toList) up ?_
  intro c mem p climbs
  exact startsUp_join climbs (step_relative (steps c mem))

theorem step_piece {c : Component} (step : c.IsStep) (other : c ≠ .current) :
    Text.splitAll '/' c.text.toList = [c.text.toList] ∧ c.text.toList ≠ ['.'] := by
  cases c with
  | root => exact step.elim
  | current => exact absurd rfl other
  | parent => exact ⟨rfl, by decide⟩
  | name s => exact ⟨Text.splitAll_whole step.whole, step.not_dot⟩

theorem dotless_join {c : Component} (clean : Dotless base.text.toList) (step : c.IsStep)
    (other : c ≠ .current) : Dotless (base.join ⟨c.text⟩).text.toList := by
  obtain ⟨alone, not_dot⟩ := step_piece step other
  have joined := join_relative base (step_relative step)
  unfold Dotless at clean ⊢
  generalize (base.join ⟨c.text⟩).text.toList = text at joined
  cases joined with
  | alone empty =>
    rw [alone, List.mem_singleton]
    exact Ne.symm not_dot
  | own_slash front slashed =>
    rw [slashed, Text.splitAll_append, List.mem_append, not_or] at clean
    rw [Text.splitAll_append, alone, List.mem_append, List.mem_singleton, not_or]
    exact ⟨clean.1, Ne.symm not_dot⟩
  | new_slash some_text =>
    rw [Text.splitAll_append, alone, List.mem_append, List.mem_singleton, not_or]
    exact ⟨clean, Ne.symm not_dot⟩

theorem dotless_joinAll (clean : Dotless base.text.toList) (steps : ∀ c ∈ comps, c.IsStep)
    (others : ∀ c ∈ comps, c ≠ .current) : Dotless (base.joinAll comps).text.toList := by
  refine joinAll_keeps (P := fun p => Dotless p.text.toList) clean ?_
  intro c mem p free
  exact dotless_join free (steps c mem) (others c mem)

theorem current_not_dotless (mem : .current ∈ p.components) : ¬ Dotless p.text.toList := by
  obtain ⟨rest, first⟩ := current_first mem
  intro clean
  exact clean (by rw [first]; exact List.mem_cons_self)

theorem absolute_pieces (absolute : isAbsoluteText cs = true) :
    ∃ rest, rest ≠ [] ∧ Text.splitAll '/' cs = [] :: rest := by
  rw [absolute_head, decide_eq_true_eq, List.head?_eq_some_iff] at absolute
  obtain ⟨rest, rfl⟩ := absolute
  exact ⟨Text.splitAll '/' rest, Text.splitAll_ne_nil '/' rest, Text.splitAll_append '/' [] rest⟩

theorem absolute_root (absolute : p.isAbsolute = true) : .root ∈ p.components := by
  obtain ⟨rest, more, pieces⟩ := absolute_pieces absolute
  rw [components, componentsOf_pieces, pieces, lead, if_pos ⟨rfl, more⟩]
  exact List.mem_append_left _ List.mem_cons_self

theorem absolute_no_current (absolute : p.isAbsolute = true) : .current ∉ p.components := by
  intro mem
  obtain ⟨_, first⟩ := current_first mem
  obtain ⟨_, _, pieces⟩ := absolute_pieces absolute
  cases first.symm.trans pieces

theorem follow_without_current (loc : Location) (comps : List Component) :
    follow loc ((comps.filter fun c => c != .current).map Component.hop) =
      follow loc (comps.map Component.hop) := by
  induction comps generalizing loc with
  | nil => rfl
  | cons c rest ih => cases c <;> simpa [follow, Component.hop, Hop.next] using ih _

end Path

namespace Layout

variable {base up up' : Path} {comps : List Component}

def kept (p : Path) : List Component := p.components.filter fun c => c != .current

theorem kept_steps (relative : p.isAbsolute = false) : ∀ c ∈ kept p, c.IsStep := by
  intro c mem
  exact components_steps relative c (List.mem_of_mem_filter mem)

theorem joinClean_cases (base p : Path) :
    joinClean base p = base.joinAll (kept p) ∧ (base.joinAll (kept p)).text ≠ "" ∨
      joinClean base p = ⟨"."⟩ ∧ (base.joinAll (kept p)).text = "" := by
  by_cases empty : (base.joinAll (kept p)).text = ""
  · exact .inr ⟨if_pos empty, empty⟩
  · exact .inl ⟨if_neg empty, empty⟩

theorem follow_joinClean (base : Path) (relative : p.isAbsolute = false) (loc : Location) :
    follow loc (way (joinClean base p).text.toList) =
      follow (follow loc (way base.text.toList)) (way p.text.toList) := by
  have joined : follow loc (way (base.joinAll (kept p)).text.toList) =
      follow (follow loc (way base.text.toList)) (way p.text.toList) := by
    rw [way_joinAll (kept_steps relative), follow, List.foldl_append, ← follow, ← follow, kept,
      follow_without_current, components, follow_components]
  rw [← joined]
  rcases joinClean_cases base p with ⟨same, _⟩ | ⟨dot, empty⟩
  · rw [same]
  · rw [dot, empty]
    rfl

theorem joinClean_isAbsolute (base : Path) (relative : p.isAbsolute = false) :
    (joinClean base p).isAbsolute = base.isAbsolute := by
  have kind : (base.joinAll (kept p)).isAbsolute = base.isAbsolute :=
    joinAll_isAbsolute (kept_steps relative)
  rw [← kind]
  rcases joinClean_cases base p with ⟨same, _⟩ | ⟨dot, empty⟩
  · rw [same]
  · rw [dot, isAbsolute, isAbsolute, empty]
    rfl

/-- A way back passes names and dots only, and goes up once for every name. -/
theorem back_returns {count : Nat} (ups : way up.text.toList = List.replicate count .up)
    (found : back comps up = some up') (loc : Location) :
    follow (follow loc (comps.map Component.hop)) (way up'.text.toList) =
      follow loc (List.replicate count .up) := by
  induction comps generalizing up loc count with
  | nil =>
    cases found
    rw [ups]
    rfl
  | cons c rest ih =>
    cases c with
    | root => cases found
    | parent => cases found
    | current => exact ih ups found loc
    | name s =>
      -- the step up that takes this name back stands behind those of the names before it
      have longer : way (up.join ⟨".."⟩).text.toList = List.replicate (count + 1) .up := by
        rw [way_join_relative up rfl, ups, List.replicate_succ']
        rfl
      exact ih longer found (s :: loc)

theorem back_keeps {P : Path → Prop} (start : P up) (climb : ∀ u, P u → P (u.join ⟨".."⟩))
    (found : back comps up = some up') : P up' := by
  induction comps generalizing up with
  | nil =>
    cases found
    exact start
  | cons c rest ih =>
    cases c with
    | root => cases found
    | parent => cases found
    | current => exact ih start found
    | name s => exact ih (climb up start) found

theorem back_relative (found : back comps ⟨""⟩ = some up) : up.isAbsolute = false :=
  back_keeps (P := fun u => u.isAbsolute = false) rfl (fun u relative => (join_isAbsolute u rfl).trans relative)
    found

theorem back_dotless (found : back comps ⟨""⟩ = some up) : Dotless up.text.toList :=
  back_keeps (P := fun u => Dotless u.text.toList) (by decide)
    (fun _ clean => dotless_join (c := .parent) clean trivial Component.noConfusion) found

theorem back_startsUp (found : back comps ⟨""⟩ = some up) (named : ∃ c ∈ comps, c ≠ .current) :
    StartsUp up.text.toList := by
  induction comps with
  | nil => simp at named
  | cons c rest ih =>
    cases c with
    | root => cases found
    | parent => cases found
    | current =>
      refine ih found ?_
      simpa using named
    | name s =>
      have first : StartsUp ((⟨""⟩ : Path).join ⟨".."⟩).text.toList := .inl (by decide)
      exact back_keeps (P := fun u => StartsUp u.text.toList) first (fun _ up => startsUp_join up rfl)
        found

theorem back_steps (found : back comps up = some up') : .root ∉ comps := by
  induction comps generalizing up with
  | nil => simp
  | cons c rest ih =>
    cases c with
    | root => cases found
    | parent => cases found
    | current => simpa using ih found
    | name s => simpa using ih found

theorem joinClean_dotless {base : Path} (clean : Dotless base.text.toList)
    (relative : p.isAbsolute = false) :
    (joinClean base p).text = "." ∨ Dotless (joinClean base p).text.toList := by
  rcases joinClean_cases base p with ⟨same, _⟩ | ⟨dot, _⟩
  · rw [same]
    refine .inr (dotless_joinAll clean (kept_steps relative) ?_)
    intro c mem
    simpa using List.of_mem_filter mem
  · exact .inl (congrArg text dot)

theorem joinClean_startsUp {base : Path} (up : StartsUp base.text.toList)
    (relative : p.isAbsolute = false) : StartsUp (joinClean base p).text.toList := by
  have joined := startsUp_joinAll up (kept_steps relative)
  rcases joinClean_cases base p with ⟨same, _⟩ | ⟨_, empty⟩
  · rw [same]
    exact joined
  · rw [empty] at joined
    rcases joined with impossible | ⟨_, impossible⟩
    · cases impossible
    · cases impossible

theorem joinClean_nonempty (base p : Path) : (joinClean base p).text ≠ "" := by
  rcases joinClean_cases base p with ⟨same, visible⟩ | ⟨dot, _⟩
  · rw [same]
    exact visible
  · rw [dot]
    decide

/-- What a path of a project is written as for a tool in the output directory. -/
inductive Seen (root dir p : Path) : Path → Prop where
  | whole (absolute : p.isAbsolute = true) : Seen root dir p p
  | rooted (relative : p.isAbsolute = false) (lost : back dir.components ⟨""⟩ = none) :
      Seen root dir p (joinClean root p)
  | climbing (up : Path) (relative : p.isAbsolute = false)
      (found : back dir.components ⟨""⟩ = some up) : Seen root dir p (joinClean up p)

theorem fromOutputDir_seen (root dir p : Path) : Seen root dir p ((new root dir).fromOutputDir p) := by
  by_cases absolute : p.isAbsolute = true
  · rw [fromOutputDir, if_pos absolute]
    exact .whole absolute
  · rw [fromOutputDir, if_neg absolute]
    rw [Bool.not_eq_true] at absolute
    simp only [new]
    cases found : back dir.components ⟨""⟩ with
    | none => exact .rooted absolute found
    | some up => exact .climbing up absolute found

/-- What a text stands for that a tool in the output directory reads as a path. -/
def Denotes (l : Layout) (seen : String) (p : Path) : Prop :=
  placeOf (l.outputDir.join ⟨seen⟩) = placeOf (l.root.join p)

def LeavesDirectory (q : Path) : Prop := q.isAbsolute = true ∨ StartsUp q.text.toList

section Absolute

variable {q : Path} (absolute : root.isAbsolute = true) (seen : Seen root dir p q)
include absolute seen

theorem seen_place : (new root dir).Denotes q.text p := by
  show placeOf ((root.join dir).join q) = placeOf (root.join p)
  cases seen with
  | whole whole => rw [join_absolute _ whole, join_absolute _ whole]
  | rooted relative lost =>
    have named := (joinClean_isAbsolute root relative).trans absolute
    rw [join_absolute _ named, place_way, follow_joinClean root relative, place_join root relative,
      ← place_way]
  | climbing up relative found =>
    have climbs := (joinClean_isAbsolute up relative).trans (back_relative found)
    -- there is no way back from a directory that is named from the top
    have below : dir.isAbsolute = false := by
      rw [← Bool.not_eq_true]
      intro rooted
      exact back_steps found (absolute_root rooted)
    have returns : follow (follow (placeOf root) (way dir.text.toList)) (way up.text.toList) =
        placeOf root := by
      have level : way (⟨""⟩ : Path).text.toList = List.replicate 0 .up := rfl
      rw [← follow_components (placeOf root)]
      exact back_returns level found (placeOf root)
    rw [place_join _ climbs, place_join root below, follow_joinClean up relative,
      place_join root relative, returns]

theorem seen_no_current : q.text = "." ∨ .current ∉ q.components := by
  cases seen with
  | whole whole => exact .inr (absolute_no_current whole)
  | rooted relative lost =>
    exact .inr (absolute_no_current ((joinClean_isAbsolute root relative).trans absolute))
  | climbing up relative found =>
    rcases joinClean_dotless (back_dotless found) relative with dot | clean
    · exact .inl dot
    · exact .inr fun mem => current_not_dotless mem clean

theorem seen_leaves (apart : Config.isProjectRoot dir = false) : LeavesDirectory q := by
  cases seen with
  | whole whole => exact .inl whole
  | rooted relative lost => exact .inl ((joinClean_isAbsolute root relative).trans absolute)
  | climbing up relative found =>
    have named : ∃ c ∈ dir.components, c ≠ .current := by simpa [Config.isProjectRoot] using apart
    exact .inr (joinClean_startsUp (back_startsUp found named) relative)

end Absolute

theorem seen_nonempty {q : Path} (seen : Seen root dir p q) : q.text ≠ "" := by
  cases seen with
  | whole whole =>
    intro empty
    rw [isAbsolute, empty] at whole
    cases whole
  | rooted relative lost => exact joinClean_nonempty root p
  | climbing up relative found => exact joinClean_nonempty up p

/-- A dot between slashes of a relative path does not come through, though one of the root may. -/
theorem seen_dotless {q : Path} (seen : Seen root dir p q) (relative : p.isAbsolute = false)
    (clean : Dotless root.text.toList) : q.text = "." ∨ Dotless q.text.toList := by
  cases seen with
  | whole whole =>
    rw [relative] at whole
    cases whole
  | rooted _ lost => exact joinClean_dotless clean relative
  | climbing up _ found => exact joinClean_dotless (back_dotless found) relative

theorem seen_profile {l : Layout} {seen : String} {project : Cli.Project} {t : FileTree} {e : Entry}
    (denotes : l.Denotes seen p) (here : project.root = l.root)
    (profile : project.config.build.pgoProfile = some p)
    (passed : Cli.profileFinding? project t = none) (opened : t.open? (l.outputDir.join ⟨seen⟩) = .ok e) :
    t.open? (l.root.join p) = .ok e ∧ t.isFile (l.root.join p) = true := by
  have file : t.isFile (l.root.join p) = true := by
    simpa [Cli.profileFinding?, profile, here] using passed
  refine ⟨?_, file⟩
  have standing := (located_of_open opened).2
  rw [show placeOf _ = placeOf _ from denotes] at standing
  unfold isFile at file
  split at file
  · rename_i there
    have same := (located_of_open there).2.symm.trans standing
    rw [there, Option.some.inj same]
  · cases file

/-- The project as the tools of a run see it, which work in the output directory. -/
structure SeesProject (l : Layout) : Prop where
  denotes : ∀ p, l.Denotes (l.fromOutputDir p).text p
  nonempty : ∀ p, (l.fromOutputDir p).text ≠ ""
  no_current : ∀ p, (l.fromOutputDir p).text = "." ∨ .current ∉ (l.fromOutputDir p).components
  dotless : ∀ p, p.isAbsolute = false → Dotless l.root.text.toList →
    (l.fromOutputDir p).text = "." ∨ Dotless (l.fromOutputDir p).text.toList
  compiler_source : ∀ (g : GoCompiler) (r : CompileRequest), r.layout = l →
    (g.invocation r).directory = l.outputDir ∧
      ∃ seen, (g.invocation r).args.getLast? = some seen ∧ l.Denotes seen g.source
  compiler_profile : ∀ (g : GoCompiler) (r : CompileRequest) (profile : Path), r.layout = l →
    g.pgoProfile = some profile →
      ∃ seen, "-pgo=" ++ seen ∈ (g.invocation r).args ∧ l.Denotes seen profile
  generator_source : ∀ g : CommandGenerator, (g.invocation l).directory = l.outputDir ∧
    ∃ seen, l.Denotes seen g.source ∧
      (g.invocation l).args = g.argTemplates.map fun arg => Text.replace arg sourcePlaceholder seen
  profile_checked : ∀ (project : Cli.Project) (t : FileTree) (seen : String) (profile : Path)
    (e : Entry), project.root = l.root → project.config.build.pgoProfile = some profile →
      l.Denotes seen profile → Cli.profileFinding? project t = none →
      t.open? (l.outputDir.join ⟨seen⟩) = .ok e →
        t.open? (l.root.join profile) = .ok e ∧ t.isFile (l.root.join profile) = true

theorem seesProject (absolute : root.isAbsolute = true) (dir : Path) :
    (new root dir).SeesProject where
  denotes p := seen_place absolute (fromOutputDir_seen root dir p)
  nonempty p := seen_nonempty (fromOutputDir_seen root dir p)
  no_current p := seen_no_current absolute (fromOutputDir_seen root dir p)
  dotless p := seen_dotless (fromOutputDir_seen root dir p)
  compiler_source := by
    intro g r here
    refine ⟨congrArg outputDir here, (r.layout.fromOutputDir g.source).text, ?_, ?_⟩
    · simp only [GoCompiler.invocation, GoCompiler.args, List.getLast?_append]
      rfl
    · rw [here]
      exact seen_place absolute (fromOutputDir_seen root dir g.source)
  compiler_profile := by
    intro g r profile here given
    refine ⟨(r.layout.fromOutputDir profile).text, ?_, ?_⟩
    · simp [GoCompiler.invocation, GoCompiler.args, given]
    · rw [here]
      exact seen_place absolute (fromOutputDir_seen root dir profile)
  generator_source g :=
    ⟨rfl, _, seen_place absolute (fromOutputDir_seen root dir g.source), rfl⟩
  profile_checked _ _ _ _ _ here profile denotes passed opened :=
    seen_profile denotes here profile passed opened

theorem tools_see_project (root dir : Path) (absolute : root.isAbsolute = true) :
    (new root dir).SeesProject ∧ ∀ c : Config, c.validate = .ok () → c.build.outputDir = dir →
      ∀ p, LeavesDirectory ((new root dir).fromOutputDir p) := by
  refine ⟨seesProject absolute dir, ?_⟩
  rintro c valid rfl p
  exact seen_leaves absolute (fromOutputDir_seen root _ p) (Config.output_named valid)

theorem nested_project_seen :
    ({ build := { outputDir := ⟨"target/.//release/"⟩ } } : Config).validate = .ok () ∧
      ((new ⟨"/work/./demo"⟩ ⟨"target/.//release/"⟩).fromOutputDir ⟨"./cmd/server"⟩).text =
        "../../cmd/server" ∧
      (new ⟨"/work/./demo"⟩ ⟨"target/.//release/"⟩).Denotes "../../cmd/server" ⟨"./cmd/server"⟩ ∧
      LeavesDirectory ⟨"../../cmd/server"⟩ := by
  have valid : ({ build := { outputDir := ⟨"target/.//release/"⟩ } } : Config).validate = .ok () := by
    decide +kernel
  have written : (new ⟨"/work/./demo"⟩ ⟨"target/.//release/"⟩).fromOutputDir ⟨"./cmd/server"⟩ =
      ⟨"../../cmd/server"⟩ := by
    decide +kernel
  obtain ⟨sees, leaves⟩ := tools_see_project ⟨"/work/./demo"⟩ ⟨"target/.//release/"⟩ (by decide)
  have place := sees.denotes ⟨"./cmd/server"⟩
  have outside := leaves _ valid rfl ⟨"./cmd/server"⟩
  rw [written] at place outside
  exact ⟨valid, congrArg text written, place, outside⟩

end Layout
end ReleaseMatrix
