import ReleaseMatrix.Proofs.FileTree.Edits
import ReleaseMatrix.Proofs.Release.Isolation

/- What a variant changes in the output directory is the same from all trees that look alike to packing,
   so that building the variants once more from what they have left changes nothing. -/
namespace ReleaseMatrix

open FileTree

/-- A compiler whose result and binary only depend on the request, wherever the place of the binary is
    free, and that changes nothing else. -/
def Compiler.SetsBinary (c : Compiler) : Prop :=
  ∀ request : CompileRequest, ∃ (result : Except BuildError Path) (file : Option (Bytes × Bool)),
    ∀ (t : FileTree) (place : Location),
      t.slot request.binary = .ok (.named place false) → t.entry? place = none →
        c.compile request t = (match file with
          | none => t
          | some (content, executable) => t.put place (.file content executable), result)

theorem Compiler.SetsBinary.local {c : Compiler} (sets : c.SetsBinary) (inView : Location → Prop) :
    c.Local inView := by
  intro request
  obtain ⟨result, file, calls⟩ := sets request
  refine ⟨result, file.map Prod.fst, fun t place slot free => ?_⟩
  have below := (slot_named slot).not_top
  cases file with
  | none =>
    exact ⟨t, calls t place slot free, by rw [free]; rfl, fun _ _ _ => rfl⟩
  | some made =>
    refine ⟨_, calls t place slot free, ?_, fun loc _ apart => entry_put_other below apart⟩
    rw [entry_put_self below]
    rfl

theorem scripted_sets_binary (script : CompileRequest → Except BuildError Bytes) :
    (scriptedCompiler script).SetsBinary := by
  intro request
  cases content : script request with
  | error e =>
    refine ⟨.error e, none, fun t place slot free => ?_⟩
    simp only [scriptedCompiler, writeScripted, content]
  | ok bytes =>
    refine ⟨.ok request.binary, some (bytes, false), fun t place slot free => ?_⟩
    have wrote : t.write request.binary bytes = .ok (t.put place (.file bytes false)) := by
      simp [write, slot, free]
    simp only [scriptedCompiler, writeScripted, content, wrote]

def Report.timeless (report : Report) : Report := { report with durationMs := 0 }

namespace Release

open Archive Result

variable {r : Release} {planned : List PlannedVariant} {t u : FileTree} {p : PlannedVariant}
variable {s : Stamp}

theorem Shared.later {v : FileTree} (shared : Shared r planned t u) (undisturbed : Undisturbed r planned u v) :
    Shared r planned t v :=
  ⟨shared.names, shared.alike.trans undisturbed, shared.here, shared.clear, shared.faults⟩

/-- Packing makes the same edit to all trees that give it the same binary. -/
theorem packing_amends (t : FileTree) (mem : p ∈ planned) (s : Stamp) : ∃ edits,
    ∀ u, Shared r planned t u → SameRead t u (r.layout.outputFile ⟨p.variant.target.binaryName⟩) →
      (r.packVariant s p.variant u).1 = u.amend edits := by
  have left := pack_step r s p.variant t
  generalize r.packVariant s p.variant t = first at left
  have results : ∀ u, Shared r planned t u →
      SameRead t u (r.layout.outputFile ⟨p.variant.target.binaryName⟩) →
      (r.packager.writing (r.faults p.variant t) p.variant t).result =
        (r.packager.writing (r.faults p.variant u) p.variant u).result := by
    intro u alike binary
    rw [alike.faults p.variant t u]
    exact writing_same (alike.start_same mem) (alike.target_same mem) (alike.sources_same binary)
  cases left with
  | failed e fault =>
    refine ⟨[], fun u alike binary => ?_⟩
    have right := pack_step r s p.variant u
    generalize r.packVariant s p.variant u = second at right
    cases right with
    | failed e' fault' => rfl
    | packed place members after done slot other complete landed there =>
      have same := results u alike binary
      rw [fault, done] at same
      simp at same
  | packed place members after done slot other complete landed there =>
    refine ⟨[(place, some (.file (encode members) false))], fun u alike binary => ?_⟩
    have right := pack_step r s p.variant u
    generalize r.packVariant s p.variant u = second at right
    cases right with
    | failed e fault =>
      have same := results u alike binary
      rw [fault, done] at same
      simp at same
    | packed place' members' after' done' slot' other' complete' landed' there' =>
      obtain rfl : members = members' := complete_same (alike.sources_same binary) complete complete'
      have slots := (alike.target_same mem).slot
      rw [slot, slot'] at slots
      obtain ⟨rfl, _⟩ := Slot.named.inj (Except.ok.inj slots)
      exact landed'

def binaryEdits (place : Location) (file : Option (Bytes × Bool)) : Edits :=
  (place, none) :: (file.map fun made => (place, some (.file made.1 made.2))).toList

theorem variant_amends (t : FileTree) (mem : p ∈ planned) (sets : r.compiler.SetsBinary) (s : Stamp) :
    ∃ edits, ∀ u, Shared r planned t u → (r.buildVariant s p.variant u).tree = u.amend edits := by
  have only := sets.local (InView r planned)
  cases clear : t.removeIfPresent (r.request s p.variant).binary with
  | error e =>
    refine ⟨[], fun u alike => ?_⟩
    rcases alike.clearing_same mem s with ⟨e', _, stuck⟩ | ⟨a, b, ok, _⟩
    · simp only [buildVariant, stuck]
      rfl
    · rw [clear] at ok
      simp at ok
  | ok a =>
    obtain ⟨result, file, calls⟩ := sets (r.request s p.variant)
    generalize place_eq : p.variant.target.binaryName :: placeOf r.layout.outputDir = place
    -- In every tree alike the place of the binary is cleared, and then free for the compiler.
    have compiled : ∀ u, Shared r planned t u → ∃ b,
        u.removeIfPresent (r.request s p.variant).binary = .ok b ∧
          r.compiler.compile (r.request s p.variant) b = (u.amend (binaryEdits place file), result) := by
      intro u alike
      rcases alike.clearing_same mem s with ⟨e, stuck, _⟩ | ⟨_, b, _, clear_too⟩
      · rw [clear] at stuck
        simp at stuck
      · obtain ⟨_, slot, free⟩ := binary_cleared alike.names mem alike.there clear_too
        have erased : u.removeIfPresent (r.request s p.variant).binary = _ :=
          alike.there.child_remove (alike.names.binary mem)
        rw [clear_too] at erased
        obtain ⟨here, room, removed⟩ := mapped_ok erased.symm
        have here_eq : here = place := (roomFor_place room).1.trans place_eq
        rw [place_eq] at slot free
        refine ⟨b, clear_too, (calls b place slot free).trans ?_⟩
        rw [← removed, here_eq]
        cases file <;> rfl
    cases done : result with
    | error e =>
      refine ⟨binaryEdits place file, fun u alike => ?_⟩
      obtain ⟨b, clear_too, call⟩ := compiled u alike
      simp only [buildVariant, clear_too, call, done]
    | ok path =>
      obtain ⟨edits, packs⟩ := packing_amends (r := r) (r.compiler.compile (r.request s p.variant) a).1
        mem s
      refine ⟨binaryEdits place file ++ edits, fun u alike => ?_⟩
      obtain ⟨b, clear_too, call⟩ := compiled u alike
      obtain ⟨_, still, binary⟩ := alike.compiled_same mem only clear clear_too
      have packed := packs _ still binary
      rw [amend_append]
      simp only [call] at packed
      simp only [buildVariant, clear_too, call, done]
      exact packed

theorem loop_amends (t : FileTree) (sets : r.compiler.SetsBinary) (s : Stamp)
    {some_planned : List PlannedVariant} (within : ∀ p ∈ some_planned, p ∈ planned) :
    ∃ edits, ∀ u, Shared r planned t u → ∀ (clock : Clock) (total position : Nat),
      (r.buildFrom s clock total position u some_planned).1 = u.amend edits := by
  induction some_planned with
  | nil => exact ⟨[], fun u _ _ _ _ => rfl⟩
  | cons p rest ih =>
    have mem := within p List.mem_cons_self
    obtain ⟨first, builds⟩ := variant_amends t mem sets s
    obtain ⟨later, loops⟩ := ih fun q more => within q (List.mem_cons_of_mem _ more)
    refine ⟨first ++ later, fun u alike clock total position => ?_⟩
    have still := alike.later
      (variant_undisturbed alike.names mem alike.there (sets.local (InView r planned)) s)
    rw [loop_turn, amend_append, ← builds u alike]
    exact loops _ still clock total (position + 1)

theorem loop_reports_same (shared : Shared r planned t u) (sets : r.compiler.SetsBinary) (s : Stamp)
    (clock : Clock) (total position : Nat) {some_planned : List PlannedVariant}
    (within : ∀ p ∈ some_planned, p ∈ planned) :
    (r.buildFrom s clock total position u some_planned).2.2.map Report.timeless =
      some_planned.map fun p => report p (r.buildVariant s p.variant t).outcome 0 := by
  have only := sets.local (InView r planned)
  induction some_planned generalizing u position with
  | nil => rfl
  | cons p rest ih =>
    have mem := within p List.mem_cons_self
    have still := shared.later (variant_undisturbed shared.names mem shared.there only s)
    have others := ih still (position + 1) fun q more => within q (List.mem_cons_of_mem _ more)
    simp only [loop_turn, List.map_cons, others, ← shared.variant_same mem only s]
    rfl

/-- Variants that are built once more from what they have left leave it, with the same outcomes. -/
theorem loop_again (shared : Shared r planned t t) (sets : r.compiler.SetsBinary) (s : Stamp)
    (clock later : Clock) (total : Nat) :
    let first := r.buildFrom s clock total 0 t planned
    let second := r.buildFrom s later total 0 first.1 planned
    second.1 = first.1 ∧ second.2.2.map Report.timeless = first.2.2.map Report.timeless ∧
      Undisturbed r planned t first.1 := by
  have only := sets.local (InView r planned)
  have within : ∀ p ∈ planned, p ∈ planned := fun _ mem => mem
  obtain ⟨edits, loops⟩ := loop_amends t sets s within
  have undisturbed := loop_undisturbed shared.names only s clock total 0 within shared.here
  have alike := shared.later undisturbed
  refine ⟨?_, ?_, undisturbed⟩
  · rw [loops _ alike later total 0, loops t shared clock total 0, amend_again]
  · rw [loop_reports_same alike sets s later total 0 within,
      loop_reports_same shared sets s clock total 0 within]

end Release
end ReleaseMatrix
