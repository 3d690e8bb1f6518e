import ReleaseMatrix.Proofs.Release.OutputNames
import ReleaseMatrix.Proofs.Release.Scripted

/- What a summary says of its archives, and when it is still so at the end of the run: a variant puts its
   archive in its place and clears the place of its binary, so an archive is safe from the variants after
   it unless one of them has either at the same place. -/
namespace ReleaseMatrix

open FileTree

/-- The file of an artifact is there, with the size and the digest that it is described with. -/
def Described (t : FileTree) (a : Artifact) : Prop :=
  ∃ content executable, t.open? a.path = .ok (.file content executable) ∧
    a.size = content.length ∧ a.sha256 = some (Sha256.text content)

/-- A compiler that leaves what stands where it is, but for a file at the place of its binary. -/
def Compiler.LeavesOthers (c : Compiler) : Prop :=
  ∀ (request : CompileRequest) (t : FileTree) (loc : Location) (e : Entry), t.entry? loc = some e →
    (loc = placeOf request.binary → e = .directory) →
      entry? (c.compile request t).1 loc = some e

theorem scripted_leaves_others (script : CompileRequest → Except BuildError Bytes) :
    (scriptedCompiler script).LeavesOthers := by
  intro request t loc e here own
  simp only [scriptedCompiler, writeScripted]
  split
  · exact here
  · rename_i content _
    split
    · exact here
    · rename_i written wrote
      obtain ⟨place, executable, slot, other, rfl⟩ := written_file wrote
      have named := slot_named slot
      have apart : loc ≠ place := by
        rintro rfl
        exact other (by rw [here, own named.place])
      exact (entry_put_other named.not_top apart).trans here

namespace Release

def Touched (r : Release) (place : Location) (report : Report) : Prop :=
  placeOf (r.layout.outputFile ⟨report.binaryName⟩) = place ∨
    ∃ artifact, report.outcome = .packaged artifact ∧ placeOf artifact.path = place

variable {r : Release} {s : Stamp} {v : NormalizedVariant} {t u : FileTree} {artifact : Artifact}
variable {path : Path} {content : Bytes} {executable : Bool} {planned : List PlannedVariant}
variable {clock : Clock} {summary : Summary}

theorem packed_path {after : FileTree} (done : r.packVariant s v t = (after, .packaged artifact)) :
    artifact.path = r.packager.destination v := by
  have packing := pack_step r s v t
  rw [done] at packing
  cases packing with
  | packed place members _ ended slot other complete landed there => exact Packager.describe_path _

theorem packed_described {after : FileTree} (done : r.packVariant s v t = (after, .packaged artifact)) :
    Described after artifact := by
  have packing := pack_step r s v t
  rw [done] at packing
  cases packing with
  | packed place members _ ended slot other complete landed there =>
    exact ⟨Archive.encode members, false, by rw [Packager.describe_path, there], Packager.describe_file there⟩

theorem built_described (done : (r.buildVariant s v t).outcome = .packaged artifact) :
    artifact.path = r.packager.destination v ∧ Described (r.buildVariant s v t).tree artifact := by
  have step := variant_step r s v t
  generalize r.buildVariant s v t = built at step done ⊢
  cases step with
  | stuck e fault => simp at done
  | uncompiled cleared run e clear call fault => simp at done
  | compiled cleared run path clear call success =>
    have packed : r.packVariant s v run.1 = ((r.packVariant s v run.1).1, .packaged artifact) :=
      Prod.ext rfl done
    exact ⟨packed_path packed, packed_described packed⟩

theorem file_kept (kept : KeepsDirectories t u) (there : t.open? path = .ok (.file content executable))
    (same : ∀ e, t.entry? (placeOf path) = some e → u.entry? (placeOf path) = some e) :
    u.open? path = .ok (.file content executable) :=
  open_kept kept there (same _ (located_of_open there).2)

section Kept

variable (leaves : r.compiler.LeavesOthers)
  (there : t.open? path = .ok (.file content executable))
  (apart : placeOf (r.request s v).binary ≠ placeOf path)

include there apart in
theorem cleared_keeps {cleared : FileTree}
    (clear : t.removeIfPresent (r.request s v).binary = .ok cleared) :
    cleared.open? path = .ok (.file content executable) := by
  rcases (cleared_path clear).2 with rfl | ⟨loc, bytes, mode, slot, file, rfl⟩
  · exact there
  · have named := slot_named slot
    rw [← named.place] at apart
    refine file_kept (.erase named.not_top (by simp [file])) there fun e here => ?_
    rw [entry_erase_other named.not_top apart.symm, here]

include leaves there apart in
theorem compiled_keeps : (r.compiler.compile (r.request s v) t).1.open? path =
    .ok (.file content executable) := by
  refine file_kept (fun loc standing => leaves _ t loc _ standing fun _ => rfl) there fun e here => ?_
  exact leaves _ t _ e here fun own => absurd own.symm apart

include there in
theorem packing_keeps (missed : ∀ artifact, (r.packVariant s v t).2 = .packaged artifact →
    placeOf artifact.path ≠ placeOf path) :
    (r.packVariant s v t).1.open? path = .ok (.file content executable) := by
  have packing := pack_step r s v t
  generalize r.packVariant s v t = packed at packing missed ⊢
  cases packing with
  | failed e fault => exact there
  | packed place members after ended slot other complete landed there_too =>
    have named := slot_named slot
    have elsewhere := missed _ rfl
    rw [Packager.describe_path, ← named.place] at elsewhere
    rw [landed]
    refine file_kept (.put named.not_top other) there fun e here => ?_
    rw [entry_put_other named.not_top elsewhere.symm, here]

include leaves there in
theorem variant_keeps (p : PlannedVariant) (ms : Nat)
    (missed : ¬ Touched r (placeOf path) (report p (r.buildVariant s p.variant t).outcome ms)) :
    (r.buildVariant s p.variant t).tree.open? path = .ok (.file content executable) := by
  obtain ⟨binary, archive⟩ := not_or.mp missed
  have step := variant_step r s p.variant t
  generalize r.buildVariant s p.variant t = built at step archive ⊢
  cases step with
  | stuck e fault => exact there
  | uncompiled cleared run e clear call fault =>
    rw [← call]
    exact compiled_keeps leaves (cleared_keeps there binary clear) binary
  | compiled cleared run _ clear call done =>
    have compiled := compiled_keeps (s := s) leaves (cleared_keeps there binary clear) binary
    rw [call] at compiled
    exact packing_keeps compiled fun artifact own same => archive ⟨artifact, own, same⟩

include leaves there in
theorem loop_keeps (clock : Clock) (total position : Nat)
    (missed : ∀ report ∈ (r.buildFrom s clock total position t planned).2.2,
      ¬ Touched r (placeOf path) report) :
    (r.buildFrom s clock total position t planned).1.open? path = .ok (.file content executable) := by
  induction planned generalizing position t with
  | nil => exact there
  | cons p rest ih =>
    simp only [loop_turn, List.forall_mem_cons] at missed ⊢
    exact ih (variant_keeps leaves there p _ missed.1) (position + 1) missed.2

end Kept

theorem reported_at {total position i : Nat} {report : Report}
    (reported : (r.buildFrom s clock total position t planned).2.2[i]? = some report) :
    ∃ p, planned[i]? = some p ∧
      let left := (r.buildFrom s clock total position t (planned.take i)).1
      let built := r.buildVariant s p.variant left
      report = Release.report p built.outcome (clock.variantMs (position + i)) ∧
        (r.buildFrom s clock total position t (planned.take (i + 1))).1 = built.tree := by
  have bound : i < planned.length := by
    rw [← loop_length r s clock total position t planned]
    exact (List.getElem?_eq_some_iff.mp reported).1
  have here : planned[i]? = some planned[i] := List.getElem?_eq_getElem bound
  obtain ⟨_, at_place, left⟩ := loop_at r s clock total position t here
  exact ⟨_, here, Option.some.inj (reported.symm.trans at_place), left⟩

theorem loop_described (leaves : r.compiler.LeavesOthers) (s : Stamp) (clock : Clock)
    (total position : Nat) {i : Nat} {report : Report}
    (reported : (r.buildFrom s clock total position t planned).2.2[i]? = some report)
    (done : report.outcome = .packaged artifact)
    (missed : ∀ j later, i < j → (r.buildFrom s clock total position t planned).2.2[j]? = some later →
      ¬ Touched r (placeOf artifact.path) later) :
    Described (r.buildFrom s clock total position t planned).1 artifact := by
  obtain ⟨p, here, rfl, left⟩ := reported_at reported
  have bound : i < planned.length := (List.getElem?_eq_some_iff.mp here).1
  obtain ⟨content, executable, there, size, digest⟩ := (built_described done).2
  rw [← left] at there
  -- What follows is the loop over the rest, and its reports are those after this one.
  have all := loop_append r s clock total position t (planned.take (i + 1)) (planned.drop (i + 1))
  have before := loop_length r s clock total position t (planned.take (i + 1))
  rw [List.length_take, Nat.min_eq_left bound] at before
  rw [List.take_append_drop] at all
  simp only [all] at missed ⊢
  refine ⟨content, executable, loop_keeps leaves there clock total _ ?_, size, digest⟩
  intro later mem
  obtain ⟨k, found⟩ := List.mem_iff_getElem?.mp mem
  refine missed (i + 1 + k) later (by omega) ?_
  rw [List.getElem?_append_right (by omega), before, Nat.add_sub_cancel_left, found]

theorem loop_report {s : Stamp} {total position i : Nat} {report : Report}
    (reported : (r.buildFrom s clock total position t planned).2.2[i]? = some report) :
    ∃ p ∈ planned, report.binaryName = p.variant.target.binaryName ∧
      report.archiveName = p.variant.target.archiveName ∧
      ∀ artifact, report.outcome = .packaged artifact →
        artifact.path = r.layout.outputFile ⟨report.archiveName⟩ := by
  obtain ⟨p, here, rfl, _⟩ := reported_at reported
  exact ⟨p, List.mem_of_getElem? here, rfl, rfl, fun artifact done => (built_described done).1⟩

theorem packaged_run {report : Report} (done : (r.run clock t).result = .ok summary)
    (mem : report ∈ summary.reports) (packaged : report.outcome = .packaged artifact) :
    ∃ planned stamp after, r.plan? = .ok planned ∧
      let built := r.buildFrom stamp clock planned.length 0 after planned
      (r.run clock t).tree = built.1 ∧ summary.reports = built.2.2 := by
  cases summarized done with
  | listed planned stamp =>
    obtain ⟨p, _, rfl⟩ := List.mem_map.mp mem
    simp [plannedReport, report] at packaged
  | built planned stamp made after sample ready wet directory generation =>
    rw [run_with_sample ready wet directory generation]
    exact ⟨planned, stamp, after, (prepare_ok_iff.mp ready).1, rfl, rfl⟩

/-- A place of plain names is only touched by an archive of the same name. -/
theorem touched_by_archive {report later : Report} {p q : PlannedVariant}
    (plan : r.plan? = .ok planned) (mem : p ∈ planned) (mem_too : q ∈ planned)
    (archive : report.archiveName = p.variant.target.archiveName)
    (binary : later.binaryName = q.variant.target.binaryName)
    (plain : Path.Plain report.archiveName.toList)
    (plain_binary : Path.Plain later.binaryName.toList)
    (plain_archive : Path.Plain later.archiveName.toList)
    (own_path : ∀ artifact, later.outcome = .packaged artifact →
      artifact.path = r.layout.outputFile ⟨later.archiveName⟩)
    (touched : Touched r (placeOf (r.layout.outputFile ⟨report.archiveName⟩)) later) :
    later.outcome.artifact?.isSome ∧ later.archiveName = report.archiveName := by
  have names : ∀ {name other : String}, Path.Plain name.toList → Path.Plain other.toList →
      placeOf (r.layout.outputFile ⟨name⟩) = placeOf (r.layout.outputFile ⟨other⟩) → name = other := by
    intro name other first second same
    simp only [Layout.outputFile, place_child _ first, place_child _ second] at same
    exact (List.cons.inj same).1
  rcases touched with cleared | ⟨artifact, done, put⟩
  · have same := names plain_binary plain cleared
    obtain ⟨_, d, _, _, archive_name⟩ := planned_names plan mem
    obtain ⟨_, _, _, binary_name, _⟩ := planned_names plan mem_too
    rw [binary, binary_name, archive, archive_name] at same
    exact absurd same Normalizer.binaryName_ne_archiveName
  · rw [own_path artifact done] at put
    exact ⟨by simp [done, Outcome.artifact?], names plain_archive plain put⟩

/-- At the end of a run an archive is as its report says, unless a later variant had its files at the
    same place; where all names are plain, that takes a later archive of the same name. -/
theorem summary_describes (r : Release) (clock : Clock) (t : FileTree) (summary : Summary) (i : Nat)
    (report : Report) (artifact : Artifact) (leaves : r.compiler.LeavesOthers)
    (done : (r.run clock t).result = .ok summary) (here : summary.reports[i]? = some report)
    (packaged : report.outcome = .packaged artifact) :
    ((∀ j later, i < j → summary.reports[j]? = some later →
        ¬ Touched r (placeOf artifact.path) later) → Described (r.run clock t).tree artifact) ∧
      ((∀ any ∈ summary.reports,
          Path.Plain any.binaryName.toList ∧ Path.Plain any.archiveName.toList) →
        (∀ j later, i < j → summary.reports[j]? = some later → later.outcome.artifact?.isSome →
          later.archiveName ≠ report.archiveName) → Described (r.run clock t).tree artifact) := by
  obtain ⟨planned, stamp, after, plan, left, reports⟩ :=
    packaged_run done (List.mem_of_getElem? here) packaged
  have untouched : (∀ j later, i < j → summary.reports[j]? = some later →
      ¬ Touched r (placeOf artifact.path) later) → Described (r.run clock t).tree artifact := by
    intro missed
    rw [reports] at here missed
    rw [left]
    exact loop_described leaves stamp clock _ _ here packaged missed
  refine ⟨untouched, fun plain apart => untouched fun j later after_i there touched => ?_⟩
  obtain ⟨p, mem, _, archive, path⟩ := loop_report (reports ▸ here)
  obtain ⟨q, mem_too, binary, _, own_path⟩ := loop_report (reports ▸ there)
  rw [path artifact packaged] at touched
  have plain_later := plain later (List.mem_of_getElem? there)
  obtain ⟨some_archive, same⟩ := touched_by_archive plan mem mem_too archive binary
    (plain report (List.mem_of_getElem? here)).2 plain_later.1 plain_later.2 own_path touched
  exact apart j later after_i there some_archive same

theorem first_variant_described : ∃ summary report artifact,
    (smallRelease.run stillClock smallTree).result = .ok summary ∧
      summary.reports[0]? = some report ∧ report.outcome = .packaged artifact ∧
      Described (smallRelease.run stillClock smallTree).tree artifact := by
  have ended : ((smallRelease.run stillClock smallTree).result.toOption.any fun summary =>
      (summary.reports.all fun any => Path.fileName ⟨any.binaryName⟩ == some any.binaryName &&
        Path.fileName ⟨any.archiveName⟩ == some any.archiveName) &&
      summary.reports[0]?.any fun report => report.outcome.artifact?.isSome &&
        summary.reports.tail.all fun later => later.archiveName != report.archiveName) = true := by
    decide +kernel
  obtain ⟨summary, done, ended⟩ := Result.ok_of_any ended
  simp only [Bool.and_eq_true, Option.any_eq_true, List.all_eq_true, beq_iff_eq, bne_iff_ne] at ended
  obtain ⟨plain, report, here, packaged, apart⟩ := ended
  obtain ⟨artifact, found⟩ := Option.isSome_iff_exists.mp packaged
  have packaged := Outcome.packaged_of_artifact found
  refine ⟨summary, report, artifact, done, here, packaged, ?_⟩
  refine (summary_describes smallRelease stillClock smallTree summary 0 report artifact
    (scripted_leaves_others _) done here packaged).2 ?_ ?_
  · intro any mem
    exact ⟨Path.plain_of_fileName (plain any mem).1, Path.plain_of_fileName (plain any mem).2⟩
  · intro j later after_first there _
    obtain ⟨k, rfl⟩ : ∃ k, j = k + 1 := ⟨j - 1, by omega⟩
    rw [← List.getElem?_tail] at there
    exact apart later (List.mem_of_getElem? there)

/-- Two variants that share the name of their archive, as they give the same values to different
    variables. The binary of the first is the longer one. -/
def twinRelease : Release where
  config :=
    { variants := [["GOOS=linux", "GOARCH=amd64"], ["GOOS=linux", "CC=amd64"]].filterMap
        fun items => (VariantDescriptor.parse items).toOption }
  root := ⟨"/"⟩
  options := {}
  ambient := []
  epoch := some "0"
  compiler := scriptedCompiler fun request =>
    .ok (if request.variant.target.arch = some "amd64" then [1, 2, 3] else [1])
  generator := scriptedGenerator (.ok [7]) "config.yaml"

/-- Nothing keeps two variants of a matrix from one archive name, and then the report of the first
    gives the size of a file that is no longer there. -/
theorem summary_outdated : ¬ ∀ (r : Release) (clock : Clock) (t : FileTree) (summary : Summary)
    (report : Report) (artifact : Artifact), r.compiler.LeavesOthers →
    (r.run clock t).result = .ok summary → report ∈ summary.reports →
    report.outcome = .packaged artifact → Described (r.run clock t).tree artifact := by
  intro always
  have differs : ((twinRelease.run stillClock smallTree).result.toOption.any fun summary =>
      summary.reports.any fun report => report.outcome.artifact?.any fun artifact =>
        ((twinRelease.run stillClock smallTree).tree.read artifact.path).toOption.any fun content =>
          content.length != artifact.size) = true := by decide +kernel
  obtain ⟨summary, done, differs⟩ := Result.ok_of_any differs
  obtain ⟨report, mem, differs⟩ := List.any_eq_true.mp differs
  obtain ⟨artifact, found, differs⟩ := (Option.any_eq_true _ _).mp differs
  obtain ⟨content, read, differs⟩ := Result.ok_of_any differs
  obtain ⟨own, executable, there, size, _⟩ := always twinRelease stillClock smallTree summary report
    artifact (scripted_leaves_others _) done mem (Outcome.packaged_of_artifact found)
  simp only [FileTree.read, there] at read
  have same : own = content := Except.ok.inj read
  simp [size, same] at differs

end Release
end ReleaseMatrix
