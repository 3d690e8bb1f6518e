import ReleaseMatrix.Build.CommandGenerator
import ReleaseMatrix.Build.Go
import ReleaseMatrix.Build.Packager
import ReleaseMatrix.Proofs.Result

/- What the commands of a build and packing fail with, and which of these errors are fatal. Of a command
   that compiles only the one that was not found is; one that generates is always. -/
namespace ReleaseMatrix

variable {h : Host} {e : BuildError} {t : FileTree}

theorem command_fatal_iff {i : Invocation} {line : String} {result : Except IoError Finished}
    (failed : commandResult i line result = .error e) :
    e.isFatal = true ↔ result = .error .notFound := by
  unfold commandResult at failed
  split at failed
  · cases failed
    simp [BuildError.isFatal]
  · rename_i cause other
    cases failed
    simpa [BuildError.isFatal] using other
  · split at failed
    · cases failed
    · cases failed
      simp [BuildError.isFatal]

theorem check_missing {program hint : String} (missing : h.installed? t program = none) :
    checkInstalled h program hint t = .error (.toolNotFound program hint) := by
  simp only [checkInstalled, missing]

theorem check_error {program hint : String} (failed : checkInstalled h program hint t = .error e) :
    e = .toolNotFound program hint ∧ h.installed? t program = none := by
  unfold checkInstalled at failed
  split at failed
  · cases failed
  · rename_i nowhere
    cases failed
    exact ⟨rfl, nowhere⟩

theorem GoCompiler.compile_missing {g : GoCompiler} {r : CompileRequest}
    (missing : (h.spawn (g.invocation r) t).2 = .error .notFound) :
    (g.compile h r t).2 = .error (.toolNotFound g.program (startHint (g.commandLine r) .notFound)) := by
  simp only [GoCompiler.compile, runCommand, missing, commandResult]
  rfl

theorem GoCompiler.compile_fatal_iff {g : GoCompiler} {r : CompileRequest}
    (failed : (g.compile h r t).2 = .error e) :
    e.isFatal = true ↔ (h.spawn (g.invocation r) t).2 = .error .notFound := by
  unfold GoCompiler.compile runCommand at failed
  split at failed
  · rename_i after fault command
    cases failed
    exact command_fatal_iff (congrArg Prod.snd command)
  · rename_i after command
    split at failed
    · cases failed
    · cases failed
      have ran := congrArg Prod.snd command
      constructor
      · intro fatal
        cases fatal
      · intro missing
        simp [missing, commandResult] at ran

theorem CommandGenerator.generate_error {c : CommandGenerator} {l : Layout}
    (failed : (c.generate h l t).2 = .error e) :
    (∃ detail, e = .generation detail) ∨ ∃ detail cause, e = .generationCaused detail cause := by
  unfold CommandGenerator.generate at failed
  simp only at failed
  split at failed
  · cases failed
    exact .inr ⟨_, _, rfl⟩
  · split at failed
    · cases failed
      exact .inr ⟨_, _, rfl⟩
    · split at failed
      · cases failed
      · cases failed
        exact .inl ⟨_, rfl⟩

inductive BuildError.OfPacking : BuildError → Prop where
  | companion (path : Path) (cause : IoError) : OfPacking (.companionFile path cause)
  | archive (cause : ArchiveError) : OfPacking (.archive cause)
  | io (cause : IoError) : OfPacking (.io cause)

theorem BuildError.OfPacking.not_fatal (packing : e.OfPacking) : e.isFatal = false := by
  cases packing <;> rfl

namespace Archive

variable {faults : Faults} {entry : ArchiveEntry} {entries : List ArchiveEntry}
variable {members : List Packed} {level : Nat} {temporary : Location} {destination : Path}

def Faults.Usual (faults : Faults) : Prop := ∀ step e, faults step = some e → e.OfPacking

theorem none_usual : noFaults.Usual := by
  intro step e injected
  cases injected

theorem attempt_error {α : Type} {fault : Option BuildError} {result : Except BuildError α}
    (failed : attempt fault result = .error e) : fault = some e ∨ result = .error e := by
  cases fault with
  | some e' => exact .inl (congrArg some (Except.error.inj failed))
  | none => exact .inr failed

theorem attempt_packing {α : Type} {step : Step} {result : Except BuildError α}
    (usual : faults.Usual) (allowed : ∀ e, result = .error e → e.OfPacking)
    (failed : attempt (faults step) result = .error e) : e.OfPacking := by
  rcases attempt_error failed with injected | own
  · exact usual step e injected
  · exact allowed e own

theorem openSource_packing (failed : openSource t entry = .error e) : e.OfPacking := by
  unfold openSource at failed
  split at failed <;> cases failed
  exact .companion _ _

theorem endMember_packing (failed : endMember members = .error e) : e.OfPacking := by
  unfold endMember at failed
  split at failed <;> cases failed
  exact .archive _

theorem nameMember_packing {name : String} (failed : nameMember members name = .error e) :
    e.OfPacking := by
  unfold nameMember at failed
  split at failed
  · cases failed
    exact .archive _
  · split at failed <;> cases failed
    exact .archive _

theorem startMember_packing (failed : startMember level members entry = .error e) : e.OfPacking := by
  unfold startMember at failed
  split at failed
  · cases failed
    exact .archive _
  · rcases Result.bind_error failed with fault | ⟨_, _, failed⟩
    · exact endMember_packing fault
    · exact nameMember_packing failed

theorem readSource_packing {source : Entry} (failed : readSource source = .error e) : e.OfPacking := by
  unfold readSource at failed
  split at failed
  · cases failed
    exact .io _
  · split at failed <;> cases failed
    exact .io _

theorem closeArchive_packing (failed : closeArchive members = .error e) : e.OfPacking := by
  unfold closeArchive at failed
  rcases Result.bind_error failed with fault | ⟨_, _, failed⟩
  · exact endMember_packing fault
  · split at failed <;> cases failed
    exact .archive _

section Usual

variable (usual : faults.Usual)
include usual

theorem addEntry_packing (failed : addEntry faults t level members entry = .error e) :
    e.OfPacking := by
  unfold addEntry at failed
  rcases Result.bind_error failed with fault | ⟨source, _, failed⟩
  · exact attempt_packing usual (fun _ => openSource_packing) fault
  · rcases Result.bind_error failed with fault | ⟨_, _, failed⟩
    · exact attempt_packing usual (fun _ => startMember_packing) fault
    · rcases Result.bind_error failed with fault | ⟨content, _, failed⟩
      · exact attempt_packing usual (fun _ => readSource_packing) fault
      · cases failed

theorem finish_packing (failed : (finish faults t temporary destination members).result = .error e) :
    e.OfPacking := by
  unfold finish at failed
  split at failed
  · rename_i fault
    cases failed
    exact attempt_packing usual (fun _ => closeArchive_packing) fault
  · simp only [Writing.prepend] at failed
    split at failed
    · cases failed
    · rename_i fault
      cases failed
      refine attempt_packing usual ?_ fault
      intro e failed
      unfold land at failed
      split at failed <;> cases failed
      exact .io _

theorem addEntries_packing
    (failed : (addEntries faults temporary destination level t members entries).result = .error e) :
    e.OfPacking := by
  induction entries generalizing t members with
  | nil => exact finish_packing usual failed
  | cons entry rest ih =>
    unfold addEntries at failed
    split at failed
    · rename_i fault
      cases failed
      exact addEntry_packing usual fault
    · exact ih failed

theorem write_packing (failed : (writeUnder faults t destination entries level).result = .error e) :
    e.OfPacking := by
  unfold writeUnder at failed
  split at failed
  · rename_i fault
    cases failed
    refine attempt_packing usual ?_ fault
    intro e failed
    unfold begin? at failed
    generalize makeTemporary t _ _ = made at failed
    cases made with
    | ok start => cases failed
    | error cause =>
      cases failed
      exact .io cause
  · exact addEntries_packing usual failed

end Usual

end Archive

theorem Packager.package_packing {p : Packager} {faults : Archive.Faults} {v : NormalizedVariant}
    {s : Stamp} (usual : faults.Usual) (failed : (p.package faults v s t).2 = .error e) :
    e.OfPacking := by
  unfold Packager.package at failed
  simp only at failed
  split at failed
  · rename_i fault
    cases failed
    exact Archive.write_packing usual fault
  · cases failed

end ReleaseMatrix
