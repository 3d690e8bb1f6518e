import ReleaseMatrix.Cli.Init
import ReleaseMatrix.Proofs.Cli.Checking
import ReleaseMatrix.Proofs.Config.Search
import ReleaseMatrix.Proofs.Config.Template
import ReleaseMatrix.Proofs.Text.Utf8

/- What a new configuration file is good for. It is written in the format that was asked for and is read
   in the format that its name says, so it is the default configuration where the two agree. -/
namespace ReleaseMatrix.Cli

open FileTree ReleaseMatrix.Path Config

variable {s : Session} {g : GlobalOptions} {o : InitOptions} {t u : FileTree} {file : Path}
variable {format : ConfigFormat}

def initFile (s : Session) (g : GlobalOptions) (o : InitOptions) : Path := o.file (workingDirectory s g)

/-- The two ways in which a configuration file is started: it is written, or nothing is. -/
inductive Started (s : Session) (g : GlobalOptions) (o : InitOptions) (t : FileTree) : Prop where
  | written (done : (init s g o t).ending = .success)
      (allowed : t.exists? (initFile s g o) = true → o.force = true)
      (wrote : t.write (initFile s g o) (Utf8.encode o.format.template) = .ok (init s g o t).tree)
  | refused (failed : (init s g o t).ending ≠ .success) (same : (init s g o t).tree = t)
      (cause : t.exists? (initFile s g o) = true ∧ o.force = false ∨
        ∃ e, t.write (initFile s g o) (Utf8.encode o.format.template) = .error e)

theorem started (s : Session) (g : GlobalOptions) (o : InitOptions) (t : FileTree) : Started s g o t := by
  cases guarded : t.exists? (initFile s g o) && !o.force with
  | true =>
    have reply : init s g o t = .failed t (.plain ("Configuration file already exists at " ++
        (initFile s g o).text ++ ". Use --force to overwrite.")) := if_pos guarded
    rw [Bool.and_eq_true, Bool.not_eq_true'] at guarded
    exact .refused (by simp [reply, Reply.failed]) (by rw [reply]; rfl) (.inl guarded)
  | false =>
    have allowed : t.exists? (initFile s g o) = true → o.force = true := by
      intro there
      rwa [there, Bool.true_and, Bool.not_eq_false'] at guarded
    unfold initFile at guarded allowed
    cases wrote : t.write (initFile s g o) (Utf8.encode o.format.template) with
    | error e =>
      have reply : init s g o t = .failed t (.ofIo e) := by
        unfold initFile at wrote
        simp only [init, guarded, wrote, Bool.false_eq_true, if_false]
      exact .refused (by simp [reply, Reply.failed]) (by rw [reply]; rfl) (.inr ⟨e, wrote⟩)
    | ok written =>
      obtain ⟨told, reply⟩ : ∃ told, init s g o t = ⟨written, told, .success⟩ := by
        unfold initFile at wrote
        simp only [init, guarded, wrote, Bool.false_eq_true, if_false]
        exact ⟨_, rfl⟩
      exact .written (by rw [reply]) allowed (by rw [reply]; exact wrote)

theorem load_template (wrote : t.write file (Utf8.encode format.template) = .ok u) :
    load u file = if formatOf file = format then .ok {} else .error (.config (misread (formatOf file))) := by
  have text : u.readText file = .ok format.template := by
    simp only [readText, read_written wrote, Utf8.decode_encode]
  simp only [load, text, parse_template]
  by_cases agree : formatOf file = format
  · simp only [if_pos agree, default_valid]
  · simp only [if_neg agree]

theorem formatOf_child (dir : Path) (format : ConfigFormat) :
    formatOf (dir.join ⟨format.fileName⟩) = format := by
  have own : fileName ⟨format.fileName⟩ = some format.fileName := by cases format <;> decide
  have same : (dir.join ⟨format.fileName⟩).fileName = fileName ⟨format.fileName⟩ :=
    (child_fileName dir (plain_of_fileName own)).trans own.symm
  unfold formatOf extension
  rw [same]
  cases format <;> decide

/-- What starting a configuration file comes to. -/
structure Initialized (s : Session) (g : GlobalOptions) (o : InitOptions) (t : FileTree) : Prop where
  done_iff : (init s g o t).ending = .success ↔
    (t.exists? (initFile s g o) = true → o.force = true) ∧
      ∃ u, t.write (initFile s g o) (Utf8.encode o.format.template) = .ok u
  failed : (init s g o t).ending ≠ .success → (init s g o t).tree = t
  elsewhere : ∀ loc, loc ≠ placeOf (initFile s g o) → (init s g o t).tree.entry? loc = t.entry? loc
  replaced : ∀ e, t.entry? (placeOf (initFile s g o)) = some e →
    (init s g o t).tree.entry? (placeOf (initFile s g o)) ≠ some e → o.force = true
  loaded : (init s g o t).ending = .success → load (init s g o t).tree (initFile s g o) =
    if formatOf (initFile s g o) = o.format then .ok {}
    else .error (.config (misread (formatOf (initFile s g o))))
  own_name : o.output = none → formatOf (initFile s g o) = o.format

theorem initialized (s : Session) (g : GlobalOptions) (o : InitOptions) (t : FileTree) :
    Initialized s g o t := by
  have own_name : o.output = none → formatOf (initFile s g o) = o.format := by
    intro unnamed
    rw [initFile, InitOptions.file, unnamed, Option.getD_none]
    exact formatOf_child _ _
  cases started s g o t with
  | written done allowed wrote =>
    refine ⟨?_, ?_, ?_, ?_, ?_, own_name⟩
    · exact ⟨fun _ => ⟨allowed, _, wrote⟩, fun _ => done⟩
    · exact fun failed => absurd done failed
    · exact fun loc apart => written_elsewhere wrote apart
    · exact fun e standing _ => allowed (exists_of_written wrote standing)
    · exact fun _ => load_template wrote
  | refused failed same cause =>
    refine ⟨?_, ?_, ?_, ?_, ?_, own_name⟩
    · refine ⟨fun done => absurd done failed, ?_⟩
      rintro ⟨allowed, u, wrote⟩
      rcases cause with ⟨there, unforced⟩ | ⟨e, refused⟩
      · rw [allowed there] at unforced
        cases unforced
      · rw [refused] at wrote
        cases wrote
    · exact fun _ => same
    · exact fun loc _ => by rw [same]
    · exact fun e standing changed => (changed (by rw [same]; exact standing)).elim
    · exact fun done => absurd done failed

/-- A file in the format of another name cannot be loaded. -/
theorem init_unreadable : ¬ ∀ (s : Session) (g : GlobalOptions) (o : InitOptions) (t : FileTree),
    (init s g o t).ending = .success →
      load (init s g o t).tree (o.file (workingDirectory s g)) = .ok {} := by
  intro loads
  have done : (init (smallSession []) {} { output := some ⟨"gantry.yaml"⟩ } ∅).ending = .success := by
    decide +kernel
  have loaded := loads (smallSession []) {} _ ∅ done
  cases started (smallSession []) {} { output := some ⟨"gantry.yaml"⟩ } ∅ with
  | refused failed => exact failed done
  | written _ _ wrote =>
    have other : formatOf (initFile (smallSession []) {} { output := some ⟨"gantry.yaml"⟩ }) = .yaml := by
      decide +kernel
    have unread := load_template wrote
    rw [other, if_neg (by decide)] at unread
    cases unread.symm.trans loaded

end ReleaseMatrix.Cli
