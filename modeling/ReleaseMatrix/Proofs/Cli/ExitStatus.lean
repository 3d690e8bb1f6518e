import ReleaseMatrix.Cli.Run
import ReleaseMatrix.Proofs.Build.Commands
import ReleaseMatrix.Proofs.Cli.Checking
import ReleaseMatrix.Proofs.Release.Errors
import ReleaseMatrix.Proofs.Release.SameEffect

/- The exit status of a build, as what became of loading the project and of the run decides it. What
   the started programs end with has no part in it, nor has what is shown. -/
namespace ReleaseMatrix.Cli

open Release Config

/-- What ends a run without a summary, with the status that it leads to. -/
inductive Stopped (h : Host) (r : Release) (clock : Clock) (t : FileTree) : Nat → Prop where
  | configuration (e : ConfigError) (fault : r.config.validate = .error (.config e)) :
      Stopped h r clock t 2
  | index (i : Nat) (valid : r.config.validate = .ok ()) (asked : r.options.index = some i)
      (beyond : r.config.variants.length ≤ i) : Stopped h r clock t 5
  | targetOs (entry : Nat × VariantDescriptor) (valid : r.config.validate = .ok ())
      (within : Within r.config r.options.index)
      (mem : entry ∈ chosen r.config.variants r.options.index)
      (without : ¬ HasOs r.ambient entry.2) : Stopped h r clock t 5
  | timestamp (planned : List PlannedVariant) (detail : String) (plan : r.plan? = .ok planned)
      (fault : Stamp.ofConfig r.config r.epoch clock.now = .error (.error (.timestamp detail))) :
      Stopped h r clock t 5
  | missingTool (planned : List PlannedVariant) (stamp : Stamp) (program : String)
      (plan : r.plan? = .ok planned) (stamped : Stamp.ofConfig r.config r.epoch clock.now = .ok stamp)
      (asked : r.options.checkTools = true)
      (needed : program = r.config.build.compiler ∨ program = r.config.generator.program)
      (missing : h.installed? t program = none) : Stopped h r clock t 3
  | outputDirectory (planned : List PlannedVariant) (stamp : Stamp) (made : FileTree) (cause : IoError)
      (ready : r.prepare clock.now t = .ok (planned, stamp)) (wet : r.options.dryRun = false)
      (fault : t.makeDirectories r.layout.outputDir = (made, some cause)) : Stopped h r clock t 7
  | generation (planned : List PlannedVariant) (stamp : Stamp) (made after : FileTree) (e : BuildError)
      (ready : r.prepare clock.now t = .ok (planned, stamp)) (wet : r.options.dryRun = false)
      (directory : t.makeDirectories r.layout.outputDir = (made, none))
      (fault : r.generator.generate r.layout made = (after, .error e)) : Stopped h r clock t 10

/-- What a build ends with, from what loading the project and the run come to. -/
inductive ExitsWith (s : Session) (g : GlobalOptions) (o : BuildOptions) (t : FileTree) :
    Nat → Prop where
  | built (p : Project) (summary : Summary) (loaded : loadProject s g t = .ok p)
      (ran : ((release s o (o.apply p)).run s.clock t).result = .ok summary)
      (tolerated : summary.failedCount = 0 ∨ o.strict = false) : ExitsWith s g o t 0
  | variantsFailed (p : Project) (summary : Summary) (loaded : loadProject s g t = .ok p)
      (ran : ((release s o (o.apply p)).run s.clock t).result = .ok summary)
      (failed : 0 < summary.failedCount) (strict : o.strict = true) : ExitsWith s g o t 11
  | unreadable (e : ConfigError) (refused : loadProject s g t = .error (.config e)) :
      ExitsWith s g o t 2
  | emptyCatalog (refused : loadProject s g t = .error (.variant .emptyCatalog)) : ExitsWith s g o t 5
  | stopped (p : Project) (code : Nat) (loaded : loadProject s g t = .ok p)
      (stop : Stopped s.host (release s o (o.apply p)) s.clock t code) : ExitsWith s g o t code

variable {s : Session} {g g' : GlobalOptions} {o : BuildOptions} {t : FileTree} {p : Project}
variable {e : BuildError} {summary : Summary} {code : Nat}

section Loading

theorem loadProject_error {e : ProjectError} (failed : loadProject s g t = .error e) : OfLoading e := by
  have unread := Result.mapped_error failed
  unfold loadFile at unread
  split at unread
  · exact load_error (Result.mapped_error unread)
  · exact loadOrDefault_error (Result.mapped_error unread)

theorem loaded_variants (loaded : loadProject s g t = .ok p) :
    (o.apply p).config.variants ≠ [] := by
  show p.config.variants ≠ []
  obtain ⟨c, valid, overridden⟩ := loadProject_config loaded
  rw [overridden]
  exact (variants_listed valid : c.variants ≠ [])

theorem build_unloaded {e : ProjectError} (refused : loadProject s g t = .error e) :
    (build s g o t).ending = .fault (.ofProject e) := by
  simp only [build, refused, Reply.failed]

theorem build_ended {e : Failure} (loaded : loadProject s g t = .ok p)
    (ran : ((release s o (o.apply p)).run s.clock t).result = .error e) :
    (build s g o t).ending = .ofFailure e := by
  simp only [build, loaded, ran]

theorem build_finished (loaded : loadProject s g t = .ok p)
    (ran : ((release s o (o.apply p)).run s.clock t).result = .ok summary) :
    (build s g o t).ending = buildEnding o summary := by
  simp only [build, loaded, ran]

theorem build_presentation (directory : g.directory = g'.directory) (config : g.config = g'.config) :
    (build s g o t).ending = (build s g' o t).ending := by
  have same : loadProject s g t = loadProject s g' t := by
    simp only [loadProject, loadFile, workingDirectory, directory, config]
  cases loaded : loadProject s g t with
  | error e => rw [build_unloaded loaded, build_unloaded (same.symm.trans loaded)]
  | ok p =>
    have loaded' := same.symm.trans loaded
    cases ran : ((release s o (o.apply p)).run s.clock t).result with
    | error e => rw [build_ended loaded ran, build_ended loaded' ran]
    | ok summary => rw [build_finished loaded ran, build_finished loaded' ran]

end Loading

section Running

theorem buildEnding_code (o : BuildOptions) (summary : Summary) : (buildEnding o summary).code =
    if 0 < summary.failedCount ∧ o.strict = true then 11 else 0 := by
  unfold buildEnding Summary.isSuccess
  rcases summary.failedCount with _ | failed <;> cases o.strict <;> rfl

theorem stopped_of_error (listed : p.config.variants ≠ [])
    (ended : (release s o p).EndsWith s.clock t e) :
    Stopped s.host (release s o p) s.clock t (processCode e.exitCode) := by
  cases ended with
  | refused e refused =>
    cases refused with
    | plan e fault =>
      cases plan_error_iff.mp fault with
      | configuration e invalid =>
        rcases validate_error invalid with ⟨field, detail, rfl⟩ | ⟨_, none_⟩
        · exact .configuration _ invalid
        · exact absurd none_ listed
      | index i valid asked beyond => exact .index i valid asked beyond
      | targetOs entry valid within first =>
        have without := List.find?_some first
        exact .targetOs entry valid within (List.mem_of_find?_eq_some first) (of_decide_eq_true without)
    | stamp planned detail plan fault => exact .timestamp planned detail plan fault
    | compilerCheck planned stamp e plan stamped asked fault =>
      obtain ⟨rfl, missing⟩ := check_error fault
      exact .missingTool planned stamp _ plan stamped asked (.inl rfl) missing
    | generatorCheck planned stamp e plan stamped asked passed fault =>
      obtain ⟨rfl, missing⟩ := check_error fault
      exact .missingTool planned stamp _ plan stamped asked (.inr rfl) missing
  | directory planned stamp made cause ready wet fault =>
    exact .outputDirectory planned stamp made cause ready wet fault
  | generation planned stamp made after e ready wet directory fault =>
    rcases CommandGenerator.generate_error (congrArg Prod.snd fault) with
      ⟨detail, rfl⟩ | ⟨detail, cause, rfl⟩
    · exact .generation planned stamp made after _ ready wet directory fault
    · exact .generation planned stamp made after _ ready wet directory fault

theorem error_of_stopped (stop : Stopped s.host (release s o p) s.clock t code) :
    ∃ e, (release s o p).EndsWith s.clock t e ∧ processCode e.exitCode = code := by
  cases stop with
  | configuration e fault =>
    exact ⟨_, .refused _ (.plan _ (plan_error_iff.mpr (.configuration _ fault))), rfl⟩
  | index i valid asked beyond =>
    exact ⟨_, .refused _ (.plan _ (plan_error_iff.mpr (.index i valid asked beyond))), rfl⟩
  | targetOs entry valid within mem without =>
    have some_ : ((chosen (release s o p).config.variants (release s o p).options.index).find?
        fun entry => ¬ HasOs (release s o p).ambient entry.2).isSome = true :=
      List.find?_isSome.mpr ⟨entry, mem, decide_eq_true without⟩
    obtain ⟨first, found⟩ := Option.isSome_iff_exists.mp some_
    exact ⟨_, .refused _ (.plan _ (plan_error_iff.mpr (.targetOs first valid within found))), rfl⟩
  | timestamp planned detail plan fault => exact ⟨_, .refused _ (.stamp planned detail plan fault), rfl⟩
  | missingTool planned stamp program plan stamped asked needed missing =>
    -- A generator that is missing only shows where the compiler is there.
    cases compiler : (release s o p).compiler.check t with
    | error e =>
      have kind := (check_error compiler).1
      refine ⟨e, .refused _ (.compilerCheck planned stamp e plan stamped asked compiler), ?_⟩
      rw [kind]
      rfl
    | ok u =>
      rcases needed with rfl | rfl
      · have refused : (release s o p).compiler.check t = _ := check_missing missing
        rw [refused] at compiler
        cases compiler
      · exact ⟨_, .refused _ (.generatorCheck planned stamp _ plan stamped asked compiler
          (check_missing missing)), rfl⟩
  | outputDirectory planned stamp made cause ready wet fault =>
    exact ⟨_, .directory planned stamp made cause ready wet fault, rfl⟩
  | generation planned stamp made after e ready wet directory fault =>
    refine ⟨e, .generation planned stamp made after e ready wet directory fault, ?_⟩
    rcases CommandGenerator.generate_error (congrArg Prod.snd fault) with
      ⟨detail, rfl⟩ | ⟨detail, cause, rfl⟩ <;> rfl

end Running

/-- Every status has its cause, and no cause another status, except where a time cannot be written. -/
theorem build_code_iff (printed : (build s g o t).ending ≠ .unprintable) :
    (build s g o t).ending.code = code ↔ ExitsWith s g o t code := by
  constructor
  · rintro rfl
    cases loaded : loadProject s g t with
    | error e =>
      rw [build_unloaded loaded]
      rcases loadProject_error loaded with ⟨fault, rfl⟩ | rfl
      · exact .unreadable fault loaded
      · exact .emptyCatalog loaded
    | ok p =>
      cases ran : ((release s o (o.apply p)).run s.clock t).result with
      | error failure =>
        rw [build_ended loaded ran] at printed ⊢
        cases failure with
        | unprintableTime => exact absurd rfl printed
        | error e => exact .stopped p _ loaded (stopped_of_error (loaded_variants loaded)
            (run_error_iff.mp ran))
      | ok summary =>
        rw [build_finished loaded ran, buildEnding_code]
        split_ifs with failed
        · exact .variantsFailed p summary loaded ran failed.1 failed.2
        · refine .built p summary loaded ran ?_
          cases strict : o.strict with
          | false => exact .inr rfl
          | true => exact .inl (Nat.eq_zero_of_not_pos fun some_ => failed ⟨some_, strict⟩)
  · intro cause
    cases cause with
    | built p summary loaded ran tolerated =>
      rw [build_finished loaded ran, buildEnding_code, if_neg]
      rintro ⟨failed, strict⟩
      rcases tolerated with none_ | lax
      · exact Nat.ne_of_gt failed none_
      · rw [lax] at strict
        cases strict
    | variantsFailed p summary loaded ran failed strict =>
      rw [build_finished loaded ran, buildEnding_code, if_pos ⟨failed, strict⟩]
    | unreadable e refused =>
      rw [build_unloaded refused]
      rfl
    | emptyCatalog refused =>
      rw [build_unloaded refused]
      rfl
    | stopped p code loaded stop =>
      obtain ⟨e, ended, rfl⟩ := error_of_stopped stop
      rw [build_ended loaded (run_error_iff.mpr ended)]
      rfl

theorem build_unprintable_iff : (build s g o t).ending = .unprintable ↔
    ∃ p planned, loadProject s g t = .ok p ∧ (release s o (o.apply p)).plan? = .ok planned ∧
      Stamp.ofConfig (o.apply p).config (release s o (o.apply p)).epoch s.clock.now =
        .error .unprintableTime := by
  constructor
  · intro unprintable
    cases loaded : loadProject s g t with
    | error e =>
      rw [build_unloaded loaded] at unprintable
      cases unprintable
    | ok p =>
      cases ran : ((release s o (o.apply p)).run s.clock t).result with
      | error failure =>
        rw [build_ended loaded ran] at unprintable
        cases failure with
        | error e => cases unprintable
        | unprintableTime =>
          have unready := run_unprintable_iff.mp ran
          obtain ⟨planned, plan, fault⟩ := prepare_unprintable_iff.mp unready
          exact ⟨p, planned, rfl, plan, fault⟩
      | ok summary =>
        rw [build_finished loaded ran] at unprintable
        unfold buildEnding at unprintable
        split at unprintable <;> cases unprintable
  · rintro ⟨p, planned, loaded, plan, fault⟩
    have unready := (prepare_unprintable_iff (t := t)).mpr ⟨planned, plan, fault⟩
    rw [build_ended loaded (run_unprintable_iff.mpr unready)]
    rfl

def Session.recoded (s : Session) (f : Recoding) : Session := { s with host := f.host s.host }

theorem recoded_code (f : Recoding) :
    (build (s.recoded f) g o t).ending.code = (build s g o t).ending.code := by
  have same : loadProject (s.recoded f) g t = loadProject s g t := rfl
  cases loaded : loadProject s g t with
  | error e => rw [build_unloaded loaded, build_unloaded (same.trans loaded)]
  | ok p =>
    generalize project : o.apply p = q
    have other : release (s.recoded f) o q = (release s o q).withTools
      ((GoCompiler.ofConfig q.config).compile (f.host s.host))
      ((CommandGenerator.ofConfig q.config).generate (f.host s.host)) := rfl
    have ends := run_same_effect (r := release s o q)
      (fun request t => (GoCompiler.ofConfig q.config).compile_recoded f s.host request t)
      (fun layout t => (CommandGenerator.ofConfig q.config).generate_recoded f s.host layout t)
      s.clock t
    rw [← other] at ends
    subst project
    generalize ran' : ((release (s.recoded f) o (o.apply p)).run s.clock t).result = result' at ends
    generalize ran : ((release s o (o.apply p)).run s.clock t).result = result at ends
    cases ends with
    | error e => rw [build_ended loaded ran, build_ended (same.trans loaded) ran']
    | generation made e e' one two =>
      rw [build_ended loaded ran, build_ended (same.trans loaded) ran']
      rcases CommandGenerator.generate_error one with ⟨detail, rfl⟩ | ⟨detail, cause, rfl⟩ <;>
        rcases CommandGenerator.generate_error two with ⟨detail, rfl⟩ | ⟨detail, cause, rfl⟩ <;> rfl
    | summary a b alike =>
      rw [build_finished loaded ran, build_finished (same.trans loaded) ran', buildEnding_code,
        buildEnding_code, a.failedCount_eq, b.failedCount_eq, alike]

/-- What the exit status of a build says, and what it does not depend on. -/
structure ExitStatus (s : Session) (o : BuildOptions) (t : FileTree) : Prop where
  exit : ∀ args g, Request.ofArguments args = .run g (.build o) →
    (run s args t).exit = (build s g o t).ending.code
  code_iff : ∀ g code, (build s g o t).ending ≠ .unprintable →
    ((build s g o t).ending.code = code ↔ ExitsWith s g o t code)
  /-- A time that cannot be written is all that can break a build off. -/
  unprintable_iff : ∀ g, (build s g o t).ending = .unprintable ↔
    ∃ p planned, loadProject s g t = .ok p ∧ (release s o (o.apply p)).plan? = .ok planned ∧
      Stamp.ofConfig (o.apply p).config (release s o (o.apply p)).epoch s.clock.now =
        .error .unprintableTime
  /-- An error of the project has one status, before the run and in it. -/
  same_status : ∀ e : ProjectError,
    (Ending.fault (.ofProject e)).code = (Ending.ofFailure (.error (.project e))).code
  /-- Only whether a program succeeds can count, not what it ends with. -/
  programs : ∀ g (f : Recoding),
    (build (s.recoded f) g o t).ending.code = (build s g o t).ending.code
  presentation : ∀ g g' : GlobalOptions, g.directory = g'.directory → g.config = g'.config →
    (build s g o t).ending.code = (build s g' o t).ending.code

theorem build_exit_status (s : Session) (o : BuildOptions) (t : FileTree) : ExitStatus s o t where
  exit args g read := by simp only [run, read, Command.run, Reply.result]
  code_iff g code printed := build_code_iff printed
  unprintable_iff g := build_unprintable_iff
  same_status e := by cases e <;> rfl
  programs g f := recoded_code f
  presentation g g' directory config := congrArg Ending.code (build_presentation directory config)

end ReleaseMatrix.Cli
