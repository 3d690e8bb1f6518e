import ReleaseMatrix.Proofs.Archive.AllOrNothing

/- Two trees in which an archive is written with the same result: the sources have the same contents,
   and the destination is as free in one as in the other. What else the trees hold plays no part. -/
namespace ReleaseMatrix.Archive

open FileTree Result

variable {t u : FileTree} {temporary other : Location} {destination : Path}
variable {entries : List ArchiveEntry} {level : Nat} {faults : Faults} {members : List Packed}
variable {entry : ArchiveEntry}

def SameRead (t u : FileTree) (p : Path) : Prop :=
  (t.open? p).map Entry.read = (u.open? p).map Entry.read

theorem SameRead.of_same {p : Path} (same : t.open? p = u.open? p) : SameRead t u p :=
  congrArg (Except.map Entry.read) same

theorem read_of_open (p : Path) : t.read p = ((t.open? p).map Entry.read).bind id := by
  unfold FileTree.read
  cases t.open? p <;> rfl

theorem SameRead.read {p : Path} (same : SameRead t u p) : t.read p = u.read p := by
  rw [read_of_open, read_of_open, same]

theorem entry_same (same : SameRead t u entry.source) :
    addEntry faults t level members entry = addEntry faults u level members entry := by
  rcases alike_cases same with ⟨e, left, right⟩ | ⟨a, b, left, right, contents⟩
  · simp only [addEntry, openSource, left, right]
  · have content : readSource a = readSource b := by rw [readSource, readSource, contents]
    simp only [addEntry, openSource, left, right]
    cases faults (.source members.length) with
    | some e => rfl
    | none =>
      show (do
        attempt (faults (.start members.length)) (startMember level members entry)
        let content ← attempt (faults (.content members.length)) (readSource a)
        .ok (members ++ [pack level entry.name (regularMode entry.mode) content])) = _
      rw [content]
      rfl

theorem complete_same (sources : ∀ entry ∈ entries, SameRead t u entry.source)
    {ms ns : List Packed} (left : Complete t level entries ms) (right : Complete u level entries ns) :
    ms = ns := by
  have first := left.packed
  have second := right.packed
  clear left right
  induction first generalizing ns with
  | nil => cases second; rfl
  | cons packed more ih =>
    cases second with
    | cons packed_too more_too =>
      have read := packed.read
      rw [(sources _ List.mem_cons_self).read, packed_too.read] at read
      rw [packed.packed, packed_too.packed, packOf, packOf, Except.ok.inj read,
        ih (fun entry mem => sources entry (List.mem_cons_of_mem _ mem)) more_too]

structure SameTarget (t u : FileTree) (p : Path) : Prop where
  slot : t.slot p = u.slot p
  kind : ∀ place slash, t.slot p = .ok (.named place slash) →
    (t.entry? place = some .directory ↔ u.entry? place = some .directory)

section Beside

variable {paths : List Path} (aside : Aside t paths temporary) (beside : Aside u paths other)
variable (destined : destination ∈ paths) (target : SameTarget t u destination)
include aside beside destined target

theorem land_same (content : Bytes) :
    (land (fill t temporary content) temporary destination).map (fun _ => ()) =
      (land (fill u other content) other destination).map fun _ => () := by
  have whole : entry? (fill t temporary content) temporary = some (.file content false) :=
    entry_put_self aside.not_top
  have whole_too : entry? (fill u other content) other = some (.file content false) :=
    entry_put_self beside.not_top
  unfold land moveFrom
  rw [aside.slot content destined, beside.slot content destined, whole, whole_too, ← target.slot]
  cases slot : t.slot destination with
  | error e => rfl
  | ok s =>
    cases s with
    | reached => rfl
    | named place slash =>
      have on_trail := (slot_named slot).on_trail
      have apart : place ≠ temporary := by rintro rfl; exact aside.off_trail _ destined on_trail
      have apart_too : place ≠ other := by rintro rfl; exact beside.off_trail _ destined on_trail
      simp only [aside.entry_other content apart, beside.entry_other content apart_too]
      cases slash with
      | true => rfl
      | false =>
        have kind := target.kind place false slot
        by_cases directory : t.entry? place = some .directory
        · simp [directory, kind.mp directory]
        · have directory_too : u.entry? place ≠ some .directory := fun there =>
            directory (kind.mpr there)
          rcases left : t.entry? place with _ | ⟨_ | _⟩ <;>
            rcases right : u.entry? place with _ | ⟨_ | _⟩ <;> simp_all [Except.map]

omit aside beside destined target in
theorem abandon_result (t : FileTree) (temporary : Location) (e : BuildError) :
    (abandon t temporary e).result = .error e := rfl

theorem finish_same (content content_too : Bytes) (members : List Packed) :
    (finish faults (fill t temporary content) temporary destination members).result =
      (finish faults (fill u other content_too) other destination members).result := by
  unfold finish
  cases attempt (faults .finish) (closeArchive members) with
  | error e => simp only [abandon_result]
  | ok bytes =>
    have landing := land_same aside beside destined target bytes
    simp only [fill_fill, Writing.prepend]
    cases faults .rename with
    | some e => simp only [attempt, abandon_result]
    | none =>
      rcases alike_cases landing with ⟨e, left, right⟩ | ⟨_, _, left, right, _⟩
      · simp only [attempt, left, right, abandon_result]
      · simp only [attempt, left, right]

theorem entries_same (within : ∀ entry ∈ entries, entry.source ∈ paths)
    (sources : ∀ entry ∈ entries, SameRead t u entry.source) (content content_too : Bytes) :
    (addEntries faults temporary destination level (fill t temporary content) members entries).result =
      (addEntries faults other destination level (fill u other content_too) members
        entries).result := by
  induction entries generalizing members content content_too with
  | nil => exact finish_same aside beside destined target content content_too members
  | cons entry rest ih =>
    have first := within entry List.mem_cons_self
    rw [addEntries, addEntries, entry_beside aside content first, entry_beside beside content_too first,
      entry_same (sources entry List.mem_cons_self)]
    cases addEntry faults u level members entry with
    | error e => simp only [abandon_result]
    | ok grown =>
      simp only [Writing.prepend, fill_fill]
      exact ih (fun e later => within e (List.mem_cons_of_mem _ later))
        (fun e later => sources e (List.mem_cons_of_mem _ later)) _ _

end Beside

def SameStart (t u : FileTree) (destination : Path) : Prop :=
  t.slot ((destination.parent.getD ⟨"."⟩).join ⟨temporaryName 0⟩) =
    u.slot ((destination.parent.getD ⟨"."⟩).join ⟨temporaryName 0⟩)

theorem begin_same (start : SameStart t u destination) :
    (begin? t destination entries).map (fun _ => ()) =
      (begin? u destination entries).map fun _ => () := by
  simp only [begin?, makeTemporary]
  rw [start]
  cases u.slot ((destination.parent.getD ⟨"."⟩).join ⟨temporaryName 0⟩) with
  | error e => rfl
  | ok s => cases s <;> simp only [Except.map, Except.mapError]

theorem writing_same (start : SameStart t u destination) (target : SameTarget t u destination)
    (sources : ∀ entry ∈ entries, SameRead t u entry.source) :
    (writeUnder faults t destination entries level).result =
      (writeUnder faults u destination entries level).result := by
  have begins : (begin? t destination entries).map (fun _ => ()) =
      (begin? u destination entries).map fun _ => () := begin_same start
  unfold writeUnder
  cases faults .create with
  | some e => rfl
  | none =>
    rcases alike_cases begins with ⟨e, left, right⟩ | ⟨_, _, left, right, _⟩
    · simp only [attempt, left, right]
    · obtain ⟨aside, started⟩ := begun_aside left
      obtain ⟨beside, started_too⟩ := begun_aside right
      simp only [attempt, left, right, Writing.prepend, started, started_too]
      exact entries_same aside beside List.mem_cons_self target
        (fun entry mem => List.mem_cons_of_mem _ (List.mem_map_of_mem mem)) sources [] []

end ReleaseMatrix.Archive
