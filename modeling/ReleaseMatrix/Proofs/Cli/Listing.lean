import ReleaseMatrix.Cli.Validate
import ReleaseMatrix.Proofs.Release.Planning

/- What is listed, what is checked and what is planned go by the same names. A listing and a check
   normalize with nothing ambient, a plan with what surrounds the call. -/
namespace ReleaseMatrix.Cli

open Release

variable {n : Normalizer} {c : Config} {d : VariantDescriptor} {ambient : List (String × String)}
variable {entries : List (Nat × VariantDescriptor)} {rows : List VariantRow}

structure SameNames (row : VariantRow) (p : PlannedVariant) : Prop where
  index : row.index = p.index
  label : row.variant = p.variant.label
  archive : row.archive = p.variant.target.archiveName
  binary : row.binary = p.variant.target.binaryName
  buildMode : row.buildMode = p.variant.target.buildMode

theorem own_of_rows (ok : rowsOf n entries = .ok rows) :
    ∀ entry ∈ entries, entry.2.contains Key.os = true := by
  induction entries generalizing rows with
  | nil => simp
  | cons entry rest ih =>
    simp only [rowsOf] at ok
    cases normal : n.normalize entry.2 [] with
    | error e => simp [normal] at ok
    | ok v =>
      cases later : rowsOf n rest with
      | error e => simp [normal, later] at ok
      | ok more =>
        have own := hasOs_alone.mp (Normalizer.normalize_ok_iff.mp ⟨v, normal⟩)
        exact List.forall_mem_cons.mpr ⟨own, ih later⟩

theorem rows_of_own (n : Normalizer) (ambient : List (String × String))
    (own : ∀ entry ∈ entries, entry.2.contains Key.os = true) :
    ∃ rows planned, rowsOf n entries = .ok rows ∧
      normalizeAll n ambient entries = .ok planned ∧ List.Forall₂ SameNames rows planned := by
  induction entries with
  | nil => exact ⟨[], [], rfl, rfl, .nil⟩
  | cons entry rest ih =>
    obtain ⟨first, others⟩ := List.forall_mem_cons.mp own
    obtain ⟨v, w, alone, here, names⟩ := n.normalize_own first [] ambient
    obtain ⟨rows, planned, listed, normal, same⟩ := ih others
    refine ⟨.new entry.1 entry.2 v :: rows, ⟨entry.1, w⟩ :: planned, ?_, ?_, .cons ?_ same⟩
    · simp only [rowsOf, alone, listed]
    · simp only [normalizeAll, here, normal]
    · exact ⟨rfl, names.label, names.archive, names.binary, names.buildMode⟩

theorem whole_entries : (∀ entry ∈ chosen c.variants none, entry.2.contains Key.os = true) ↔
    ∀ d ∈ c.variants, d.contains Key.os = true := by
  constructor
  · intro own d mem
    obtain ⟨k, bound, rfl⟩ := List.getElem_of_mem mem
    exact own (k, c.variants[k]) (List.mem_mapIdx.mpr ⟨k, bound, rfl⟩)
  · intro own entry mem
    obtain ⟨k, bound, rfl⟩ := List.mem_mapIdx.mp mem
    exact own _ (List.getElem_mem bound)

theorem variantRows_valid (valid : c.validate = .ok ()) :
    variantRows c = rowsOf c.normalizer (chosen c.variants none) := by
  obtain ⟨catalog, all, entries⟩ := whole_catalog valid
  simp only [variantRows, all, entries]

theorem variantRows_ok_iff (valid : c.validate = .ok ()) :
    (∃ rows, variantRows c = .ok rows) ↔ ∀ d ∈ c.variants, d.contains Key.os = true := by
  rw [variantRows_valid valid, ← whole_entries]
  constructor
  · rintro ⟨rows, ok⟩
    exact own_of_rows ok
  · intro own
    obtain ⟨rows, planned, listed, _, _⟩ := rows_of_own c.normalizer [] own
    exact ⟨rows, listed⟩

def AboutVariant (i : Nat) (e : String) : Prop :=
  ∃ detail, e = "Variant " ++ Decimal.ofNat i ++ ": " ++ detail

theorem variantFinding_own (i : Nat) (own : d.contains Key.os = true) :
    variantFinding? n (i, d) = none := by
  obtain ⟨v, normal⟩ := Normalizer.normalize_ok_iff (n := n).mpr (hasOs_alone.mpr own)
  simp only [variantFinding?, normal]

theorem variantFinding_missing (i : Nat) (missing : ¬ d.contains Key.os = true) :
    ∃ e, variantFinding? n (i, d) = some e ∧ AboutVariant i e := by
  have fault := Normalizer.normalize_without (n := n) (hasOs_alone.not.mpr missing)
  simp only [variantFinding?, fault]
  exact ⟨_, rfl, _, rfl⟩

theorem variantFindings_valid (valid : c.validate = .ok ()) : variantFindings c =
    (chosen c.variants none).filterMap (variantFinding? c.normalizer) := by
  obtain ⟨catalog, all, entries⟩ := whole_catalog valid
  simp only [variantFindings, all, entries]

theorem companion_aside {p : Project} {t : FileTree} {what e : String} {path : Path} (letter : Char)
    (first : what.toList.head? = some letter) (other : letter ≠ 'V')
    (found : e ∈ (companionFinding? p t what path).toList) (i : Nat) : ¬ AboutVariant i e := by
  -- What is wrong with a companion starts with another letter than what is wrong with a variant.
  obtain ⟨rest, front⟩ := List.head?_eq_some_iff.mp first
  rintro ⟨detail, about⟩
  simp only [companionFinding?, Option.mem_toList] at found
  split at found
  · cases found
  · obtain rfl := Option.some.inj found
    have letters := congrArg (fun text : String => text.toList.head?) about
    simp only [String.toList_append, front, List.cons_append, List.head?_cons] at letters
    exact other (Option.some.inj letters)

theorem checked_iff {h : Host} {p : Project} {t : FileTree} (valid : p.config.validate = .ok ()) :
    (∀ i, ∀ e ∈ (checkProject h p t).errors, ¬ AboutVariant i e) ↔
      ∀ d ∈ p.config.variants, d.contains Key.os = true := by
  simp only [checkProject, variantFindings_valid valid, List.mem_append, List.mem_filterMap]
  constructor
  · intro clean d mem
    by_cases own : d.contains Key.os = true
    · exact own
    · obtain ⟨k, bound, rfl⟩ := List.getElem_of_mem mem
      obtain ⟨e, found, about⟩ := variantFinding_missing k own
      have entry : (k, p.config.variants[k]) ∈ chosen p.config.variants none :=
        List.mem_mapIdx.mpr ⟨k, bound, rfl⟩
      exact absurd about (clean k e (.inl (.inl ⟨_, entry, found⟩)))
  · rintro own i e ((⟨entry, mem, found⟩ | readme) | license)
    · rw [variantFinding_own entry.1 (whole_entries.mpr own entry mem)] at found
      cases found
    · exact companion_aside 'R' rfl (by decide) readme i
    · exact companion_aside 'L' rfl (by decide) license i

/-- Where the commands agree about the variants of a project. -/
structure NamesAgree (h : Host) (p : Project) (t : FileTree) : Prop where
  listed_iff : (∃ rows, variantRows p.config = .ok rows) ↔
    ∀ d ∈ p.config.variants, d.contains Key.os = true
  checked_iff : (∃ rows, variantRows p.config = .ok rows) ↔
    ∀ i, ∀ e ∈ (checkProject h p t).errors, ¬ AboutVariant i e
  planned : ∀ rows, variantRows p.config = .ok rows → ∀ ambient,
    ∃ planned, plan p.config ambient none = .ok planned ∧ List.Forall₂ SameNames rows planned

theorem names_agree (h : Host) (p : Project) (t : FileTree) (valid : p.config.validate = .ok ()) :
    NamesAgree h p t where
  listed_iff := variantRows_ok_iff valid
  checked_iff := (variantRows_ok_iff valid).trans (checked_iff valid).symm
  planned := by
    intro rows listed ambient
    have own := whole_entries.mpr ((variantRows_ok_iff valid).mp ⟨rows, listed⟩)
    obtain ⟨rows', planned, listed', normal, same⟩ := rows_of_own p.config.normalizer ambient own
    obtain rfl : rows = rows' := by
      rw [variantRows_valid valid, listed'] at listed
      exact (Except.ok.inj listed).symm
    refine ⟨planned, ?_, same⟩
    have within : Within p.config none := fun i asked => by cases asked
    rw [plan_within valid within, normal]
    rfl

theorem builtin_names_agree : ∃ rows planned, variantRows {} = .ok rows ∧
    plan {} [("GOOS", "windows"), ("GOARCH", "arm64"), ("GOOS", "")] none = .ok planned ∧
    List.Forall₂ SameNames rows planned ∧ planned.length = 11 := by
  let host : Host := ⟨.empty, ⟨"/"⟩, fun _ t => (t, .error .notFound)⟩
  have agree := names_agree host ⟨{}, none, ⟨"/"⟩⟩ ∅ Config.default_valid
  obtain ⟨rows, listed⟩ := agree.listed_iff.mpr (by decide)
  obtain ⟨planned, plan, same⟩ := agree.planned rows listed
    [("GOOS", "windows"), ("GOARCH", "arm64"), ("GOOS", "")]
  exact ⟨rows, planned, listed, plan, same, whole_length plan⟩

end ReleaseMatrix.Cli
