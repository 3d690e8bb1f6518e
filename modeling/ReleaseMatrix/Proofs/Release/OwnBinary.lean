import ReleaseMatrix.Proofs.Archive.AllOrNothing
import ReleaseMatrix.Proofs.Release.Scripted

/- A variant is packed with the binary of its own compilation: nothing is at the place of the binary
   when the compiler is called, so what is packed is what that call left there. -/
namespace ReleaseMatrix.Release

open Archive

variable {r : Release} {s : Stamp} {v : NormalizedVariant} {t : FileTree} {artifact : Artifact}

/-- The provenance of an archive: the compiler was called when nothing was at the place of the
    binary, it reported success, and what was at that place then is read back from the file at the
    path of the archive as its first member. -/
structure PackedOwn (r : Release) (s : Stamp) (v : NormalizedVariant) (before : FileTree)
    (run : ToolRun) (after : FileTree) (artifact : Artifact) : Prop where
  called : run = r.compiler.compile (r.request s v) before
  cleared : before.exists? (r.request s v).binary = false
  succeeded : ∃ path, run.2 = .ok path
  packed : ∃ binary bytes first others, run.1.read (r.request s v).binary = .ok binary ∧
    after.open? artifact.path = .ok (.file bytes false) ∧ decode? bytes = some (first :: others) ∧
    first.name = v.target.binaryName ∧ first.content = binary

theorem built_own (done : (r.buildVariant s v t).outcome = .packaged artifact) :
    ∃ before run, t.removeIfPresent (r.request s v).binary = .ok before ∧
      (r.buildVariant s v t).events = [.compiled (r.request s v) before run] ∧
      PackedOwn r s v before run (r.buildVariant s v t).tree artifact := by
  have step := variant_step r s v t
  generalize r.buildVariant s v t = built at step done ⊢
  cases step with
  | stuck e fault => simp at done
  | uncompiled cleared run e clear call fault => simp at done
  | compiled cleared run path clear call success =>
    have packing := pack_step r s v run.1
    generalize r.packVariant s v run.1 = packed at packing done
    cases packing with
    | failed e fault => simp at done
    | packed place members after ended slot other complete landed there =>
      obtain rfl := Outcome.packaged.inj done
      refine ⟨cleared, run, clear, rfl, call.symm, (FileTree.cleared_path clear).1,
        ⟨path, success⟩, ?_⟩
      rw [Packager.describe_path]
      have archive := complete.archive
      have decoded := archive.decoded
      rw [Packager.entries, List.map_cons] at decoded
      exact ⟨_, _, _, _, archive.readable _ List.mem_cons_self, there, decoded, rfl, rfl⟩

theorem read_exists {p : Path} {bytes : Bytes} (read : t.read p = .ok bytes) : t.exists? p = true := by
  unfold FileTree.read at read
  unfold FileTree.exists?
  cases found : t.open? p with
  | error e => simp [found] at read
  | ok e => rfl

/-- At every position of the loop, whatever the variants before it have left. -/
theorem binary_packed_is_own (r : Release) (s : Stamp) (clock : Clock) (total position : Nat)
    (t : FileTree) (planned : List PlannedVariant) (i : Nat) (p : PlannedVariant) (report : Report)
    (here : planned[i]? = some p)
    (reported : (r.buildFrom s clock total position t planned).2.2[i]? = some report) :
    let left := (r.buildFrom s clock total position t (planned.take i)).1
    let after := (r.buildFrom s clock total position t (planned.take (i + 1))).1
    let request := r.request s p.variant
    (∀ artifact, report.outcome = .packaged artifact → ∃ before run earlier later,
      left.removeIfPresent request.binary = .ok before ∧
      (r.buildFrom s clock total position t planned).2.1 = earlier ++
        [.started (position + i) total p.variant, .compiled request before run, .finished report] ++
        later ∧
      PackedOwn r s p.variant before run after artifact) ∧
    (∀ before, left.removeIfPresent request.binary = .ok before →
      (r.compiler.compile request before).1.exists? request.binary = false →
      ∀ artifact, report.outcome ≠ .packaged artifact) := by
  obtain ⟨⟨later, events⟩, at_place, left_after⟩ := loop_at r s clock total position t here
  rw [at_place] at reported
  obtain rfl := Option.some.inj reported
  refine ⟨?_, ?_⟩
  · intro artifact done
    obtain ⟨before, run, clear, called, own⟩ := built_own done
    rw [called] at events
    rw [← left_after] at own
    refine ⟨before, run, (r.buildFrom s clock total position t (planned.take i)).2.1, later, clear,
      ?_, own⟩
    rw [events, List.append_assoc]
    rfl
  · intro before clear silent artifact done
    obtain ⟨other, run, clear_other, _, own⟩ := built_own done
    obtain rfl : before = other := Except.ok.inj (clear.symm.trans clear_other)
    obtain ⟨binary, _, _, _, read, _⟩ := own.packed
    rw [own.called] at read
    exact Bool.false_ne_true (silent.symm.trans (read_exists read))

/-- The third variant, whose binary has the name of the first one's and of a stale one. -/
theorem third_variant_packed_own : ∃ (planned : List PlannedVariant) (p : PlannedVariant)
    (report : Report) (artifact : Artifact) (before : FileTree) (run : ToolRun),
    smallRelease.plan? = .ok planned ∧ planned[2]? = some p ∧
      report.outcome = .packaged artifact ∧
      PackedOwn smallRelease ⟨"4.6.0", "70.01.01"⟩ p.variant before run
        (smallRelease.buildFrom ⟨"4.6.0", "70.01.01"⟩ stillClock 3 0 generatedTree (planned.take 3)).1
        artifact := by
  have ended : (smallRelease.plan?.toOption.any fun planned =>
      (smallRelease.buildFrom ⟨"4.6.0", "70.01.01"⟩ stillClock 3 0 generatedTree planned).2.2[2]?.any
        fun report => planned[2]?.isSome && report.outcome.artifact?.isSome) = true := by
    decide +kernel
  obtain ⟨planned, plan, ended⟩ := Result.ok_of_any ended
  simp only [Option.any_eq_true, Bool.and_eq_true] at ended
  obtain ⟨report, reported, listed, packaged⟩ := ended
  obtain ⟨p, here⟩ := Option.isSome_iff_exists.mp listed
  obtain ⟨artifact, found⟩ := Option.isSome_iff_exists.mp packaged
  have done := Outcome.packaged_of_artifact found
  obtain ⟨before, run, _, _, _, _, own⟩ :=
    (binary_packed_is_own smallRelease _ stillClock 3 0 generatedTree planned 2 p report here
      reported).1 artifact done
  exact ⟨planned, p, report, artifact, before, run, plan, here, done, own⟩

end ReleaseMatrix.Release
