import ReleaseMatrix.Proofs.Archive.AllOrNothing
import ReleaseMatrix.Proofs.Deflate.Size
import ReleaseMatrix.Proofs.FileTree.Child
import ReleaseMatrix.Proofs.Release.Scripted

/- What is packed is read back: an archive is written wherever a file can be, and decodes to the files
   that were packed, as long as its level is one that members can be written with. -/
namespace ReleaseMatrix.Archive

open FileTree

variable {t : FileTree} {destination : Path} {entries : List ArchiveEntry} {entry : ArchiveEntry}
variable {level : Nat} {place temporary : Location} {members : List Packed} {paths : List Path}

def burden (t : FileTree) (entries : List ArchiveEntry) : Nat :=
  (entries.map fun entry => (Utf8.encode entry.name).length + (contentOf t entry).length).sum

/-- Names and contents are of a size that an archive has room for. -/
structure Small (t : FileTree) (entries : List ArchiveEntry) : Prop where
  few : entries.length < 65535
  names : ∀ entry ∈ entries, (Utf8.encode entry.name).length ≤ 65535
  burden : burden t entries < 2 ^ 31

/-- Files that can be packed together. -/
structure Packable (t : FileTree) (entries : List ArchiveEntry) : Prop where
  small : Small t entries
  distinct : (entries.map ArchiveEntry.name).Nodup
  readable : ∀ entry ∈ entries, ∃ content, t.read entry.source = .ok content

theorem burden_cons (t : FileTree) (entry : ArchiveEntry) (rest : List ArchiveEntry) :
    burden t (entry :: rest) =
      (Utf8.encode entry.name).length + (contentOf t entry).length + burden t rest := by
  rw [burden, List.map_cons, List.sum_cons]
  rfl

theorem packOf_length (t : FileTree) (level : Nat) (entry : ArchiveEntry) :
    8 * (packOf t level entry).data.length ≤ 9 * (contentOf t entry).length + 19 :=
  Deflate.deflated_length level (contentOf t entry)

theorem locals_length (t : FileTree) (level : Nat) (entries : List ArchiveEntry) :
    8 * (locals (entries.map (packOf t level))).length ≤ 9 * burden t entries + 259 * entries.length := by
  induction entries with
  | nil => simp [locals]
  | cons entry rest ih =>
    have data := packOf_length t level entry
    have own := (packOf t level entry).local_length
    have name : (packOf t level entry).name = entry.name := rfl
    rw [name] at own
    rw [List.map_cons, locals_cons, List.length_append, burden_cons, List.length_cons]
    omega

theorem content_most (mem : entry ∈ entries) : (contentOf t entry).length ≤ burden t entries := by
  induction entries with
  | nil => simp at mem
  | cons first rest ih =>
    rw [burden_cons]
    rcases List.mem_cons.mp mem with rfl | later
    · omega
    · have more := ih later
      omega

theorem Small.content (small : Small t entries) (mem : entry ∈ entries) :
    (contentOf t entry).length ≤ mark32 := by
  have most := content_most (t := t) mem
  have light := small.burden
  unfold mark32
  omega

theorem Small.closed (small : Small t entries) (level : Nat) : Closed (entries.map (packOf t level)) := by
  have few := small.few
  have light := small.burden
  refine ⟨List.forall_mem_map.mpr fun entry mem => ?_, ?_⟩
  · have data := packOf_length t level entry
    have content := content_most (t := t) mem
    unfold mark32
    omega
  · have whole := encode_length (entries.map (packOf t level))
    have body := locals_length t level entries
    have room : maxFileLength = 2 ^ 63 - 1 := rfl
    rw [List.length_map] at whole
    omega

section Beside

variable (aside : Aside t paths temporary) (destined : destination ∈ paths)
variable (slot : t.slot destination = .ok (.named place false))
variable (other : t.entry? place ≠ some .directory)
include aside destined slot other

theorem land_ok (content : Bytes) :
    ∃ landed, land (fill t temporary content) temporary destination = .ok landed := by
  have whole : entry? (fill t temporary content) temporary = some (.file content false) :=
    entry_put_self aside.not_top
  have apart : place ≠ temporary := by
    rintro rfl
    exact aside.off_trail destination destined (slot_named slot).on_trail
  unfold land moveFrom
  rw [aside.slot content destined, slot, whole]
  simp only [aside.entry_other content apart]
  cases standing : t.entry? place with
  | none => exact ⟨_, rfl⟩
  | some e =>
    cases e with
    | directory => exact absurd standing other
    | file bytes executable => exact ⟨_, rfl⟩

theorem finish_ok (content : Bytes) (closed : Closed members) :
    (finish noFaults (fill t temporary content) temporary destination members).result = .ok () := by
  obtain ⟨landed, ok⟩ := land_ok aside destined slot other (encode members)
  have complete : closeArchive members = .ok (encode members) := closeArchive_ok_iff.mpr ⟨closed, rfl⟩
  simp only [finish, noFaults, fill_fill, attempt, complete, ok, Writing.prepend]

omit aside destined slot other in
theorem addEntry_ok (supported : levelSupported level = true)
    (read : t.read entry.source = .ok (contentOf t entry)) (content : (contentOf t entry).length ≤ mark32)
    (name : (Utf8.encode entry.name).length ≤ mark16) (fresh : entry.name ∉ members.map Packed.name)
    (light : ∀ m ∈ members, m.data.length ≤ mark32) :
    addEntry noFaults t level members entry = .ok (members ++ [packOf t level entry]) := by
  have started : startMember level members entry = .ok () :=
    startMember_ok_iff.mpr ⟨supported, light, fresh, name⟩
  unfold FileTree.read at read
  split at read
  · simp at read
  · rename_i source there
    have copied : readSource source = .ok (contentOf t entry) := readSource_ok_iff.mpr ⟨read, content⟩
    simp only [addEntry, openSource, there, attempt, noFaults, started, Bind.bind, Except.bind,
      copied, packOf]

theorem entries_ok (supported : levelSupported level = true)
    (within : ∀ entry ∈ entries, entry.source ∈ paths)
    (readable : ∀ entry ∈ entries, t.read entry.source = .ok (contentOf t entry))
    (contents : ∀ entry ∈ entries, (contentOf t entry).length ≤ mark32)
    (short : ∀ entry ∈ entries, (Utf8.encode entry.name).length ≤ mark16)
    (distinct : (members.map Packed.name ++ entries.map ArchiveEntry.name).Nodup)
    (closed : Closed (members ++ entries.map (packOf t level))) (content : Bytes) :
    (addEntries noFaults temporary destination level (fill t temporary content) members
      entries).result = .ok () := by
  -- The names of the members so far and of the entries still to come are all different.
  induction entries generalizing members content with
  | nil =>
    rw [List.map_nil, List.append_nil] at closed
    exact finish_ok aside destined slot other content closed
  | cons entry rest ih =>
    obtain ⟨read, readable⟩ := List.forall_mem_cons.mp readable
    obtain ⟨first, contents⟩ := List.forall_mem_cons.mp contents
    obtain ⟨name, short⟩ := List.forall_mem_cons.mp short
    obtain ⟨here, within⟩ := List.forall_mem_cons.mp within
    have fresh : entry.name ∉ members.map Packed.name := by
      intro taken
      exact List.disjoint_of_nodup_append distinct taken (by simp)
    have light : ∀ m ∈ members, m.data.length ≤ mark32 := fun m mem =>
      closed.light m (List.mem_append_left _ mem)
    rw [addEntries, entry_beside aside content here, addEntry_ok supported read first name fresh light]
    simp only [Writing.prepend, fill_fill]
    refine ih within readable contents short ?_ ?_ _
    · rw [List.map_append, List.map_singleton, List.append_assoc]
      exact distinct
    · rw [List.append_assoc]
      exact closed

end Beside

theorem begin_ok (slot : t.slot destination = .ok (.named place false)) :
    ∃ start, begin? t destination entries = .ok start := by
  obtain ⟨base, name, plain, rfl, here⟩ := named_child slot
  obtain ⟨up, parent, _, there⟩ := here.child_parent plain
  have child := there.child_slot temporary_plain
  have short : childSlot up (temporaryName 0) = .ok (.named (temporaryName 0 :: placeOf up) false) := by
    have clean : Text.contains (temporaryName 0) '\x00' = false := by decide +kernel
    have small : ¬ maxNameBytes < (temporaryName 0).utf8ByteSize := by decide +kernel
    rw [childSlot, clean, if_neg Bool.false_ne_true, if_neg small]
  rw [short] at child
  simp only [begin?, makeTemporary, parent, Option.getD_some, child]
  exact ⟨_, rfl⟩

theorem Packable.read (packable : Packable t entries) :
    ∀ entry ∈ entries, t.read entry.source = .ok (contentOf t entry) := by
  intro entry mem
  obtain ⟨content, read⟩ := packable.readable entry mem
  rw [contentOf_read read, read]

theorem writing_ok (packable : Packable t entries) (supported : levelSupported level = true ∨ entries = [])
    (slot : t.slot destination = .ok (.named place false))
    (other : t.entry? place ≠ some .directory) :
    (writeTo t destination entries level).result = .ok () := by
  obtain ⟨⟨started, temporary⟩, begun⟩ : ∃ start, begin? t destination entries = .ok start :=
    begin_ok slot
  obtain ⟨aside, rfl⟩ := begun_aside begun
  simp only [writeTo, writeUnder, attempt, noFaults, begun, Writing.prepend]
  rcases supported with level_ok | rfl
  · have distinct : (([] : List Packed).map Packed.name ++ entries.map ArchiveEntry.name).Nodup :=
      packable.distinct
    exact entries_ok aside List.mem_cons_self slot other level_ok
      (fun entry mem => List.mem_cons_of_mem _ (List.mem_map_of_mem mem)) packable.read
      (fun entry mem => packable.small.content mem) packable.small.names distinct
      (packable.small.closed level) []
  · exact finish_ok aside List.mem_cons_self slot other [] (packable.small.closed level)

theorem writing_refused (packable : Packable t entries) (unsupported : levelSupported level = false)
    (some_entry : entries ≠ []) (slot : t.slot destination = .ok (.named place false)) :
    (writeTo t destination entries level).result = .error (.archive .unsupportedLevel) := by
  obtain ⟨⟨started, temporary⟩, begun⟩ : ∃ start, begin? t destination entries = .ok start :=
    begin_ok slot
  obtain ⟨aside, rfl⟩ := begun_aside begun
  obtain ⟨entry, rest, rfl⟩ := List.exists_cons_of_ne_nil some_entry
  obtain ⟨bytes, read⟩ := packable.readable entry List.mem_cons_self
  have first : addEntry noFaults (fill t temporary []) level [] entry =
      addEntry noFaults t level [] entry := entry_beside aside [] (by simp)
  have refused : addEntry noFaults t level [] entry = .error (.archive .unsupportedLevel) := by
    unfold FileTree.read at read
    split at read
    · simp at read
    · rename_i source there
      simp only [addEntry, openSource, there, attempt, noFaults, startMember, unsupported, Bind.bind,
        Except.bind, Bool.not_false, if_true]
  simp only [writeTo, writeUnder, attempt, noFaults, begun, Writing.prepend, addEntries]
  rw [first, refused]
  rfl

theorem package_ok {packer : Packager} {faults : Faults} {v : NormalizedVariant} {s : Stamp}
    {after : FileTree} {artifact : Artifact}
    (done : packer.package faults v s t = (after, .ok artifact)) :
    artifact = packer.describe v s after ∧ ∃ bytes, ArchiveOf t (packer.entries v) bytes ∧
      after.open? (packer.destination v) = .ok (.file bytes false) := by
  have settled : AllOrNothing t (packer.destination v) (packer.entries v)
      (packer.writing faults v t) := writing_all_or_nothing _ t _ _ _
  unfold Packager.package at done
  cases ended : (packer.writing faults v t).result with
  | error e => simp [ended] at done
  | ok u =>
    obtain ⟨place, bytes, _, _, _, there, archive⟩ := settled.written ended
    simp only [ended, Prod.mk.injEq, Except.ok.injEq] at done
    obtain ⟨rfl, rfl⟩ := done
    exact ⟨rfl, bytes, archive, there⟩

/-- The four files of a variant in the archive of an artifact, and what the artifact says of it. -/
structure HoldsVariant (packer : Packager) (v : NormalizedVariant) (t after : FileTree)
    (artifact : Artifact) (bytes binary readme sample license : Bytes) : Prop where
  binary_read : t.read (packer.layout.outputFile ⟨v.target.binaryName⟩) = .ok binary
  readme_read : t.read packer.readme = .ok readme
  sample_read : t.read (packer.layout.outputFile ⟨packer.generated⟩) = .ok sample
  license_read : t.read packer.license = .ok license
  there : after.open? artifact.path = .ok (.file bytes false)
  decoded : decode? bytes = some
    [⟨v.target.binaryName, 0o100755, true, ⟨1980, 1, 1, 0, 0, 0⟩, binary⟩,
      ⟨"README.md", 0o100644, true, ⟨1980, 1, 1, 0, 0, 0⟩, readme⟩,
      ⟨packer.generated, 0o100644, true, ⟨1980, 1, 1, 0, 0, 0⟩, sample⟩,
      ⟨"LICENSE", 0o100644, true, ⟨1980, 1, 1, 0, 0, 0⟩, license⟩]
  size : artifact.size = bytes.length
  digest : artifact.sha256 = some (Sha256.text bytes)
  names : artifact.metadata.entries = [v.target.binaryName, "README.md", packer.generated, "LICENSE"]

theorem describe_entries {packer : Packager} {v : NormalizedVariant} {s : Stamp} :
    (packer.describe v s t).metadata.entries = (packer.entries v).map ArchiveEntry.name := rfl

/-- Files of a size that an archive has room for are packed at any level but zero and are read back as
    they were; at level zero no file is packed. An artifact has the files of its variant. -/
theorem packing_round_trips (t : FileTree) :
    (∀ (destination : Path) (entries : List ArchiveEntry) (level : Nat) (place : Location),
      Packable t entries → level ≤ 9 →
      t.slot destination = .ok (.named place false) → t.entry? place ≠ some .directory →
      let w := writeTo t destination entries level
      (level ≠ 0 ∨ entries = [] → w.result = .ok () ∧ ∃ bytes,
        (w.tree t).open? destination = .ok (.file bytes false) ∧
          decode? bytes = some (entries.map (memberFrom t))) ∧
      (level = 0 → entries ≠ [] →
        w.result = .error (.archive .unsupportedLevel) ∧ w.tree t = t)) ∧
    ∀ (packer : Packager) (faults : Faults) (v : NormalizedVariant) (s : Stamp) (after : FileTree)
      (artifact : Artifact), packer.package faults v s t = (after, .ok artifact) →
      ∃ bytes binary readme sample license,
        HoldsVariant packer v t after artifact bytes binary readme sample license := by
  refine ⟨?_, ?_⟩
  · intro destination entries level place packable low slot other
    have settled : AllOrNothing t destination entries (writeTo t destination entries level) :=
      writing_all_or_nothing _ t _ _ _
    refine ⟨?_, ?_⟩
    · intro fine
      have supported : levelSupported level = true ∨ entries = [] := by
        refine fine.imp_left fun some_level => ?_
        unfold levelSupported maxLevel
        rw [Bool.and_eq_true, decide_eq_true_iff, decide_eq_true_iff]
        omega
      have done := writing_ok packable supported slot other
      obtain ⟨_, bytes, _, _, _, there, archive⟩ := settled.written done
      exact ⟨done, bytes, there, archive.decoded⟩
    · rintro rfl some_entry
      have refused := writing_refused packable (by decide : levelSupported 0 = false) some_entry slot
      exact ⟨refused, settled.failed _ refused⟩
  · intro packer faults v s after artifact done
    obtain ⟨rfl, bytes, archive, there⟩ := package_ok done
    obtain ⟨size, digest⟩ := Packager.describe_file (s := s) there
    have read := archive.readable
    simp only [Packager.entries, List.forall_mem_cons] at read
    obtain ⟨binary, readme, sample, license, _⟩ := read
    exact ⟨_, _, _, _, _, binary, readme, sample, license, by rw [Packager.describe_path, there],
      archive.decoded, size, digest, describe_entries⟩

def smallVariant : NormalizedVariant :=
  ⟨"linux/amd64", ∅, ⟨"linux", some "amd64", "mosdns", "mosdns-linux-amd64.zip", none⟩⟩

def smallEntries : List ArchiveEntry := smallRelease.packager.entries smallVariant

def smallDestination : Path := smallRelease.packager.destination smallVariant

theorem small_packable : Packable generatedTree smallEntries := by
  refine ⟨⟨by decide, by decide +kernel, by decide +kernel⟩, by decide +kernel, ?_⟩
  have readable : (smallEntries.all fun entry => (generatedTree.read entry.source).isOk) = true := by
    decide +kernel
  intro entry mem
  have ok := List.all_eq_true.mp readable entry mem
  cases read : generatedTree.read entry.source with
  | error e => simp [read, Except.isOk, Except.toBool] at ok
  | ok content => exact ⟨content, rfl⟩

def namesFreePlace (t : FileTree) (p : Path) : Bool :=
  match t.slot p with
  | .ok (.named place false) => t.entry? place == none
  | _ => false

theorem free_place {p : Path} (free : namesFreePlace t p = true) :
    ∃ place, t.slot p = .ok (.named place false) ∧ t.entry? place ≠ some .directory := by
  unfold namesFreePlace at free
  split at free
  · rename_i place slot
    exact ⟨place, slot, by simp [beq_iff_eq.mp free]⟩
  · simp at free

theorem small_destination_free : namesFreePlace generatedTree smallDestination = true := by
  decide +kernel

theorem small_variant_round_trips :
    (∃ bytes, ((writeTo generatedTree smallDestination smallEntries 5).tree generatedTree).open?
        smallDestination = .ok (.file bytes false) ∧
      decode? bytes = some (smallEntries.map (memberFrom generatedTree))) ∧
    ∃ after artifact bytes binary readme sample license,
      smallRelease.packager.package noFaults smallVariant ⟨"4.6.0", "70.01.01"⟩ generatedTree =
          (after, .ok artifact) ∧
        HoldsVariant smallRelease.packager smallVariant generatedTree after artifact bytes binary readme
          sample license := by
  obtain ⟨place, slot, other⟩ := free_place small_destination_free
  refine ⟨?_, ?_⟩
  · exact (((packing_round_trips generatedTree).1 smallDestination smallEntries 5 place small_packable
      (by decide) slot other).1 (.inl (by decide))).2
  · have packs : (smallRelease.packager.package noFaults smallVariant ⟨"4.6.0", "70.01.01"⟩
        generatedTree).2.isOk = true := by decide +kernel
    cases done : smallRelease.packager.package noFaults smallVariant ⟨"4.6.0", "70.01.01"⟩
        generatedTree with
    | mk after result =>
      cases result with
      | error e => simp [done, Except.isOk, Except.toBool] at packs
      | ok artifact =>
        obtain ⟨bytes, binary, readme, sample, license, holds⟩ := (packing_round_trips generatedTree).2
          smallRelease.packager noFaults smallVariant _ after artifact done
        exact ⟨after, artifact, bytes, binary, readme, sample, license, rfl, holds⟩

/-- Level zero is one that a configuration may ask for. -/
theorem level_zero_refused : ¬ ∀ (t : FileTree) (destination : Path) (entries : List ArchiveEntry)
    (level : Nat) (place : Location), Packable t entries → level ≤ 9 →
    t.slot destination = .ok (.named place false) → t.entry? place ≠ some .directory →
    (writeTo t destination entries level).result = .ok () := by
  intro always
  obtain ⟨place, slot, other⟩ := free_place small_destination_free
  have done := always generatedTree smallDestination smallEntries 0 place small_packable (by decide) slot
    other
  have refused := writing_refused small_packable (by decide : levelSupported 0 = false) (by decide) slot
  rw [done] at refused
  simp at refused

end ReleaseMatrix.Archive
