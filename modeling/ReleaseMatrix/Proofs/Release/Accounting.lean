import ReleaseMatrix.Proofs.Release.DryRun
import ReleaseMatrix.Proofs.Release.Errors
import ReleaseMatrix.Proofs.Release.Scripted
import ReleaseMatrix.Release.Output

/- What is told of a run accounts for each of its reports once: as an artifact, as an error or as a planned
   command, in the order of the reports. A run plans all or none of its variants, so the counts in the
   message of its summary are those of the lists below it. -/
namespace ReleaseMatrix

open Output

/-- A failure, with the label and the error that it is told by. -/
inductive Outcome.Failed : Outcome → String → String → Prop where
  | compiling (error : String) : Failed (.compileFailed error) "compile failed" error
  | packaging (error : String) : Failed (.packageFailed error) "package failed" error

/-- Reports beside the artifacts, errors and planned commands that are listed for them. -/
inductive Accounted : List Report → List ListedArtifact → List String → List String → Prop where
  | nil : Accounted [] [] [] []
  | packaged {reports artifacts errors planned} (report : Report) (artifact : Artifact)
      (became : report.outcome = .packaged artifact)
      (later : Accounted reports artifacts errors planned) :
      Accounted (report :: reports)
        (⟨artifact.path.text, artifact.variant, artifact.size, artifact.sha256⟩ :: artifacts) errors planned
  | failed {reports artifacts errors planned} (report : Report) (label error : String)
      (became : report.outcome.Failed label error)
      (later : Accounted reports artifacts errors planned) :
      Accounted (report :: reports) artifacts
        ((report.archiveName ++ " (" ++ label ++ "): " ++ error) :: errors) planned
  | planned {reports artifacts errors planned} (report : Report) (command : String)
      (became : report.outcome = .planned command)
      (later : Accounted reports artifacts errors planned) :
      Accounted (report :: reports) artifacts errors
        (("[" ++ Decimal.ofNat report.index ++ "] " ++ command) :: planned)

variable {reports : List Report} {artifacts : List ListedArtifact} {errors planned : List String}
variable {s : Summary} {r : Release} {clock : Clock} {t : FileTree}

theorem failed_iff {o : Outcome} : o.isFailure = true ↔ ∃ label error, o.Failed label error := by
  constructor
  · intro failure
    cases o with
    | compileFailed error => exact ⟨_, _, .compiling error⟩
    | packageFailed error => exact ⟨_, _, .packaging error⟩
    | packaged artifact => cases failure
    | planned command => cases failure
  · rintro ⟨_, _, failed⟩
    cases failed <;> rfl

theorem reports_accounted (reports : List Report) :
    Accounted reports
      ((reports.filterMap fun report => report.outcome.artifact?).map ListedArtifact.ofArtifact)
      (reports.filterMap errorLine?) (reports.filterMap plannedLine?) := by
  induction reports with
  | nil => exact .nil
  | cons report reports ih =>
    simp only [List.filterMap_cons, errorLine?, plannedLine?]
    cases became : report.outcome with
    | packaged artifact => exact .packaged report artifact became ih
    | compileFailed error =>
      exact .failed report "compile failed" error (by rw [became]; exact .compiling error) ih
    | packageFailed error =>
      exact .failed report "package failed" error (by rw [became]; exact .packaging error) ih
    | planned command => exact .planned report command became ih

theorem Accounted.once (accounted : Accounted reports artifacts errors planned) :
    artifacts.length + errors.length + planned.length = reports.length := by
  induction accounted with
  | nil => rfl
  | packaged _ _ _ _ ih => simp only [List.length_cons]; omega
  | failed _ _ _ _ _ ih => simp only [List.length_cons]; omega
  | planned _ _ _ _ ih => simp only [List.length_cons]; omega

theorem Accounted.errors_length (accounted : Accounted reports artifacts errors planned) :
    errors.length = (reports.filter fun report => report.outcome.isFailure).length := by
  induction accounted with
  | nil => rfl
  | packaged report artifact became _ ih => simp [became, Outcome.isFailure, ih]
  | failed report label error became _ ih => simp [failed_iff.mpr ⟨label, error, became⟩, ih]
  | planned report command became _ ih => simp [became, Outcome.isFailure, ih]

theorem Accounted.planned_nil (accounted : Accounted reports artifacts errors planned)
    (done : ∀ report ∈ reports, ∀ command, report.outcome ≠ .planned command) : planned = [] := by
  induction accounted with
  | nil => rfl
  | packaged _ _ _ _ ih => exact ih (List.forall_mem_cons.mp done).2
  | failed _ _ _ _ _ ih => exact ih (List.forall_mem_cons.mp done).2
  | planned report command became => exact absurd became (done report List.mem_cons_self command)

theorem Accounted.all_planned (accounted : Accounted reports artifacts errors planned)
    (listed : ∀ report ∈ reports, ∃ command, report.outcome = .planned command) :
    artifacts = [] ∧ errors = [] := by
  induction accounted with
  | nil => exact ⟨rfl, rfl⟩
  | packaged report artifact became =>
    obtain ⟨command, told⟩ := listed report List.mem_cons_self
    cases became.symm.trans told
  | failed report label error became =>
    obtain ⟨command, told⟩ := listed report List.mem_cons_self
    rw [told] at became
    cases became
  | planned _ _ _ _ ih => exact ih (List.forall_mem_cons.mp listed).2

theorem summary_accounted (s : Summary) : Accounted s.reports (ofSummary s).artifacts
    (ofSummary s).errors (ofSummary s).planned := reports_accounted s.reports

theorem failedCount_told (s : Summary) : s.failedCount = (ofSummary s).errors.length :=
  (summary_accounted s).errors_length.symm

theorem packagedCount_told (s : Summary) : s.packagedCount = (ofSummary s).artifacts.length :=
  (List.length_map _).symm

/-- What is told of a summary, whatever its reports. -/
structure Accounting (s : Summary) (o : Output) : Prop where
  entries : Accounted s.reports o.artifacts o.errors o.planned
  once : o.artifacts.length + o.errors.length + o.planned.length = s.reports.length
  success_iff : o.success = true ↔ s.dryRun = true ∨
    ∀ report ∈ s.reports, ∀ label error, ¬ report.outcome.Failed label error

/-- The message of an output, of a dry run or not, with the counts of what it lists. -/
inductive Told (o : Output) : Bool → Prop where
  | planned (only : o.artifacts = [] ∧ o.errors = [])
      (message : o.message = "Planned " ++ variants o.planned.length) : Told o true
  | packaged (only : o.errors = [] ∧ o.planned = [])
      (message : o.message = "Packaged " ++ variants o.artifacts.length) : Told o false
  | failed (some_ : o.errors ≠ []) (only : o.planned = [])
      (message : o.message = "Packaged " ++ Decimal.ofNat o.artifacts.length ++ " of " ++
        variants (o.artifacts.length + o.errors.length) ++ ", " ++ Decimal.ofNat o.errors.length ++
        " failed") : Told o false

/-- What is told of a summary that a run ends with. -/
structure TrueCounts (s : Summary) (o : Output) : Prop where
  built : s.dryRun = false → s.packagedCount + s.failedCount = s.reports.length
  listed : s.dryRun = true → ∀ report ∈ s.reports, ∃ command, report.outcome = .planned command
  told : Told o s.dryRun

theorem success_iff (s : Summary) : (ofSummary s).success = true ↔ s.dryRun = true ∨
    ∀ report ∈ s.reports, ∀ label error, ¬ report.outcome.Failed label error := by
  have none_failed : s.isSuccess = true ↔
      ∀ report ∈ s.reports, ∀ label error, ¬ report.outcome.Failed label error := by
    simp only [Summary.isSuccess, beq_iff_eq, Summary.failedCount, Summary.failures,
      List.length_eq_zero_iff, List.filter_eq_nil_iff, failed_iff, not_exists]
  rw [← none_failed, ← Bool.or_eq_true]
  rfl

namespace Release

theorem summary_dry (summarized : r.Summarized clock t s) : s.dryRun = r.options.dryRun := by
  cases summarized <;> rfl

theorem dry_planned (summarized : r.Summarized clock t s) (dry : r.options.dryRun = true) :
    ∀ report ∈ s.reports, ∃ command, report.outcome = .planned command := by
  cases summarized with
  | listed planned stamp =>
    intro report mem
    obtain ⟨p, _, rfl⟩ := List.mem_map.mp mem
    exact ⟨_, rfl⟩
  | built planned stamp made after sample ready wet => simp [wet] at dry

theorem wet_not_planned (ended : (r.run clock t).result = .ok s) (wet : r.options.dryRun = false) :
    ∀ report ∈ s.reports, ∀ command, report.outcome ≠ .planned command := by
  intro report mem
  obtain ⟨stamp, p, left, _, _, _, _, _, _, _, _, _, _, _, rfl⟩ := run_reported ended wet mem
  exact (variant_handed r stamp p.variant left).not_planned

theorem dry_told (listed : ∀ report ∈ s.reports, ∃ command, report.outcome = .planned command)
    (dry : s.dryRun = true) : Told (ofSummary s) true := by
  have only := (summary_accounted s).all_planned listed
  refine .planned only ?_
  have once := (summary_accounted s).once
  simp only [only.1, only.2, List.length_nil, Nat.zero_add] at once
  rw [once]
  simp only [ofSummary, headline, dry, if_true]

theorem wet_told (done : ∀ report ∈ s.reports, ∀ command, report.outcome ≠ .planned command)
    (wet : s.dryRun = false) : Told (ofSummary s) false := by
  have unplanned := (summary_accounted s).planned_nil done
  have once := (summary_accounted s).once
  rw [unplanned, List.length_nil, Nat.add_zero] at once
  have failed := failedCount_told s
  by_cases clean : (ofSummary s).errors = []
  · refine .packaged ⟨clean, unplanned⟩ ?_
    rw [clean, List.length_nil] at once failed
    rw [← Nat.add_zero (ofSummary s).artifacts.length, once]
    simp [ofSummary, headline, wet, Summary.isSuccess, failed]
  · refine .failed clean unplanned ?_
    have some_ : s.failedCount ≠ 0 := by rwa [failed, Ne, List.length_eq_zero_iff]
    rw [once, ← failed, ← packagedCount_told]
    simp [ofSummary, headline, wet, Summary.isSuccess, some_]

theorem run_told (ended : (r.run clock t).result = .ok s) : TrueCounts s (ofSummary s) := by
  have same := summary_dry (summarized ended)
  cases dry : r.options.dryRun with
  | true =>
    rw [dry] at same
    have listed := dry_planned (summarized ended) dry
    exact ⟨fun wet => absurd (same.symm.trans wet) (by decide), fun _ => listed, same ▸ dry_told listed same⟩
  | false =>
    rw [dry] at same
    have done := wet_not_planned ended dry
    refine ⟨fun _ => ?_, fun dry => absurd (same.symm.trans dry) (by decide), same ▸ wet_told done same⟩
    have once := (summary_accounted s).once
    rwa [(summary_accounted s).planned_nil done, List.length_nil, Nat.add_zero,
      ← failedCount_told, ← packagedCount_told] at once

theorem reports_told : (∀ s, Accounting s (ofSummary s)) ∧
    ∀ r clock t s, (run r clock t).result = .ok s → TrueCounts s (ofSummary s) :=
  ⟨fun s => ⟨summary_accounted s, (summary_accounted s).once, success_iff s⟩, fun _ _ _ _ => run_told⟩

theorem small_run_told : ∃ summary, (smallRelease.run stillClock smallTree).result = .ok summary ∧
    TrueCounts summary (ofSummary summary) ∧ (ofSummary summary).success = false ∧
    (ofSummary summary).message = "Packaged 2 of 3 variant(s), 1 failed" := by
  have ended : ((smallRelease.run stillClock smallTree).result.toOption.any fun summary =>
      !(ofSummary summary).success &&
        (ofSummary summary).message == "Packaged 2 of 3 variant(s), 1 failed") = true := by
    decide +kernel
  obtain ⟨summary, done, told⟩ := Result.ok_of_any ended
  rw [Bool.and_eq_true, Bool.not_eq_true', beq_iff_eq] at told
  exact ⟨summary, done, reports_told.2 smallRelease stillClock smallTree summary done, told.1, told.2⟩

end Release
end ReleaseMatrix
