import ReleaseMatrix.Build.Packager
import ReleaseMatrix.Proofs.Archive.Complete
import ReleaseMatrix.Proofs.Archive.Temporary
import ReleaseMatrix.Proofs.Release.Steps
import ReleaseMatrix.Proofs.Result

/- Writing an archive, step by step: as long as it goes on, the tree is the old one with a temporary
   file in it, and it ends with the old tree or with the complete archive at the destination. -/
namespace ReleaseMatrix.Archive

open FileTree Result

variable {t : FileTree} {temporary : Location} {destination : Path} {entries : List ArchiveEntry}
variable {level : Nat} {faults : Faults} {members grown : List Packed} {entry : ArchiveEntry}
variable {w : Writing}

/-- How a writing that has begun goes: the tree is filled step by step, and in the end it is the old
   one again, or the archive of some members is at the destination. -/
inductive Settled (t : FileTree) (temporary : Location) (destination : Path)
    (good : List Packed → Prop) : Writing → Prop where
  | abandoned (contents : List Bytes) (e : BuildError) :
      Settled t temporary destination good ⟨contents.map (fill t temporary) ++ [t], .error e⟩
  | landed (contents : List Bytes) (place : Location) (members : List Packed)
      (slot : t.slot destination = .ok (.named place false))
      (other : t.entry? place ≠ some .directory) (all : good members) :
      Settled t temporary destination good
        ⟨contents.map (fill t temporary) ++ [t.put place (.file (encode members) false)], .ok ()⟩

theorem Settled.prepend {good : List Packed → Prop} (content : Bytes)
    (settled : Settled t temporary destination good w) :
    Settled t temporary destination good (w.prepend (fill t temporary content)) := by
  cases settled with
  | abandoned contents e => exact .abandoned (content :: contents) e
  | landed contents place members slot other all =>
    exact .landed (content :: contents) place members slot other all

theorem Settled.mono {good better : List Packed → Prop} (implied : ∀ ms, good ms → better ms)
    (settled : Settled t temporary destination good w) :
    Settled t temporary destination better w := by
  cases settled with
  | abandoned contents e => exact .abandoned contents e
  | landed contents place members slot other all =>
    exact .landed contents place members slot other (implied members all)

theorem attempt_ok {α : Type} {fault : Option BuildError} {result : Except BuildError α} {a : α}
    (ok : attempt fault result = .ok a) : result = .ok a := by
  cases fault with
  | some e => simp [attempt] at ok
  | none => exact ok

theorem source_opened {source : Entry} (ok : openSource t entry = .ok source) :
    t.open? entry.source = .ok source := by
  unfold openSource at ok
  split at ok
  · simp at ok
  · rename_i found
    rw [found, Except.ok.inj ok]

theorem endMember_ok_iff :
    endMember members = .ok () ↔ ∀ m ∈ members, m.data.length ≤ mark32 := by
  simp [endMember]

theorem nameMember_ok_iff {name : String} : nameMember members name = .ok () ↔
    name ∉ members.map Packed.name ∧ (Utf8.encode name).length ≤ mark16 := by
  have taken : (members.any fun m => m.name == name) = true ↔ name ∈ members.map Packed.name := by
    simp [List.mem_map]
  simp only [nameMember, taken, ← Nat.not_lt]
  split
  · rename_i here
    simp [here]
  · rename_i fresh
    split
    · rename_i long
      simp [long]
    · rename_i short
      exact ⟨fun _ => ⟨fresh, short⟩, fun _ => rfl⟩

theorem startMember_ok_iff : startMember level members entry = .ok () ↔
    levelSupported level = true ∧ (∀ m ∈ members, m.data.length ≤ mark32) ∧
      entry.name ∉ members.map Packed.name ∧ (Utf8.encode entry.name).length ≤ mark16 := by
  rw [← endMember_ok_iff, ← nameMember_ok_iff]
  unfold startMember
  cases levelSupported level with
  | false => simp
  | true => cases endMember members <;> simp [Bind.bind, Except.bind]

theorem readSource_ok_iff {source : Entry} {content : Bytes} :
    readSource source = .ok content ↔ source.read = .ok content ∧ content.length ≤ mark32 := by
  unfold readSource
  cases source.read with
  | error e => simp
  | ok bytes =>
    dsimp only
    constructor
    · intro ok
      split at ok
      · simp at ok
      · rename_i light
        obtain rfl := Except.ok.inj ok
        exact ⟨rfl, Nat.le_of_not_lt light⟩
    · rintro ⟨⟨⟩, light⟩
      rw [if_neg (Nat.not_lt_of_le light)]

theorem closeArchive_ok_iff {bytes : Bytes} :
    closeArchive members = .ok bytes ↔ Closed members ∧ bytes = encode members := by
  unfold closeArchive
  constructor
  · intro ok
    obtain ⟨_, ended, ok⟩ := bind_ok ok
    split at ok
    · simp at ok
    · rename_i room
      obtain rfl := Except.ok.inj ok
      exact ⟨⟨endMember_ok_iff.mp ended, Nat.le_of_not_lt room⟩, rfl⟩
  · rintro ⟨closed, rfl⟩
    simp only [endMember_ok_iff.mpr closed.light, Bind.bind, Except.bind,
      if_neg (Nat.not_lt_of_le closed.room)]

theorem entry_added (ok : addEntry faults t level members entry = .ok grown) :
    ∃ m, PackedFrom t level entry m ∧ m.name ∉ members.map Packed.name ∧ grown = members ++ [m] := by
  unfold addEntry at ok
  obtain ⟨source, opened, ok⟩ := bind_ok ok
  obtain ⟨_, started, ok⟩ := bind_ok ok
  obtain ⟨content, copied, ok⟩ := bind_ok ok
  have here := source_opened (attempt_ok opened)
  obtain ⟨_, _, apart, short⟩ := startMember_ok_iff.mp (attempt_ok started)
  obtain ⟨read, light⟩ := readSource_ok_iff.mp (attempt_ok copied)
  have readable : t.read entry.source = .ok content := by
    rw [FileTree.read, here]
    exact read
  obtain rfl := contentOf_read readable
  exact ⟨_, ⟨readable, light, short, rfl⟩, apart, (Except.ok.inj ok).symm⟩

section Beside

variable {paths : List Path} (aside : Aside t paths temporary)
include aside

theorem entry_beside (content : Bytes) (mem : entry.source ∈ paths) :
    addEntry faults (fill t temporary content) level members entry =
      addEntry faults t level members entry := by
  simp only [addEntry, openSource, aside.opened content mem]

theorem abandon_settled (good : List Packed → Prop) (content : Bytes) (e : BuildError) :
    Settled t temporary destination good (abandon (fill t temporary content) temporary e) := by
  rw [abandon, aside.emptied content]
  exact .abandoned [] e

theorem landed_tree (mem : destination ∈ paths) {content : Bytes} {landed : FileTree}
    (ok : land (fill t temporary content) temporary destination = .ok landed) :
    ∃ place, t.slot destination = .ok (.named place false) ∧ t.entry? place ≠ some .directory ∧
      landed = t.put place (.file content false) := by
  have whole : entry? (fill t temporary content) temporary = some (.file content false) :=
    entry_put_self aside.not_top
  unfold land moveFrom at ok
  rw [aside.slot content mem, whole] at ok
  cases slot : t.slot destination with
  | error e => simp [slot] at ok
  | ok s =>
    cases s with
    | reached => simp [slot] at ok
    | named place slash =>
      have apart : place ≠ temporary := by
        rintro rfl
        exact aside.off_trail destination mem (slot_named slot).on_trail
      simp only [slot, aside.entry_other content apart, aside.emptied content] at ok
      cases slash with
      | true => simp at ok
      | false =>
        refine ⟨place, rfl, ?_⟩
        cases standing : t.entry? place with
        | none => simpa [standing] using ok.symm
        | some e => cases e <;> simp_all

theorem finish_settled (mem : destination ∈ paths) (content : Bytes) (members : List Packed) :
    Settled t temporary destination (fun all => all = members ∧ Closed all)
      (finish faults (fill t temporary content) temporary destination members) := by
  unfold finish
  cases closing : attempt (faults .finish) (closeArchive members) with
  | error e => exact abandon_settled aside _ content e
  | ok bytes =>
    obtain ⟨closed, rfl⟩ := closeArchive_ok_iff.mp (attempt_ok closing)
    simp only [fill_fill]
    apply Settled.prepend
    cases moved : attempt (faults .rename)
        (land (fill t temporary (encode members)) temporary destination) with
    | error e => exact abandon_settled aside _ (encode members) e
    | ok landed =>
      obtain ⟨place, slot, other, rfl⟩ := landed_tree aside mem (attempt_ok moved)
      exact .landed [] place members slot other ⟨rfl, closed⟩

theorem entries_settled (mem : destination ∈ paths) (sources : ∀ entry ∈ entries, entry.source ∈ paths)
    (content : Bytes) (distinct : (members.map Packed.name).Nodup) :
    Settled t temporary destination
      (fun all => ∃ more, all = members ++ more ∧ List.Forall₂ (PackedFrom t level) entries more ∧
        (all.map Packed.name).Nodup ∧ Closed all)
      (addEntries faults temporary destination level (fill t temporary content) members entries) := by
  -- The temporary file holds the members so far, and these have names of their own.
  induction entries generalizing members content with
  | nil =>
    refine (finish_settled aside mem content members).mono ?_
    rintro all ⟨rfl, closed⟩
    exact ⟨[], (List.append_nil _).symm, .nil, distinct, closed⟩
  | cons entry rest ih =>
    rw [addEntries, entry_beside aside content (sources entry List.mem_cons_self)]
    cases added : addEntry faults t level members entry with
    | error e => exact abandon_settled aside _ content e
    | ok grown =>
      obtain ⟨m, packed, apart, rfl⟩ := entry_added added
      have distinct : ((members ++ [m]).map Packed.name).Nodup := by
        rw [List.map_append, List.map_singleton, ← List.concat_eq_append]
        exact distinct.concat apart
      simp only [fill_fill]
      refine ((ih (fun e later => sources e (List.mem_cons_of_mem _ later)) _ distinct).prepend
        _).mono ?_
      rintro all ⟨more, rfl, each, rest⟩
      exact ⟨m :: more, (List.append_cons members m more).symm, .cons packed each, rest⟩

end Beside

theorem begun_aside {started : FileTree} (ok : begin? t destination entries = .ok (started, temporary)) :
    Aside t (destination :: entries.map ArchiveEntry.source) temporary ∧
      started = fill t temporary [] := by
  unfold begin? at ok
  generalize made : makeTemporary t _ _ = start at ok
  cases start with
  | error e => simp [Except.mapError] at ok
  | ok start =>
    obtain rfl := Except.ok.inj ok
    exact temporary_made made

theorem writing_settled (faults : Faults) (t : FileTree) (destination : Path)
    (entries : List ArchiveEntry) (level : Nat) :
    (∃ e, writeUnder faults t destination entries level = ⟨[], .error e⟩) ∨
      ∃ temporary, Aside t (destination :: entries.map ArchiveEntry.source) temporary ∧
        Settled t temporary destination (Complete t level entries)
          (writeUnder faults t destination entries level) := by
  unfold writeUnder
  cases begun : attempt (faults .create) (begin? t destination entries) with
  | error e => exact .inl ⟨e, rfl⟩
  | ok start =>
    obtain ⟨started, temporary⟩ := start
    obtain ⟨aside, rfl⟩ := begun_aside (attempt_ok begun)
    have sources : ∀ entry ∈ entries,
        entry.source ∈ destination :: entries.map ArchiveEntry.source := fun entry mem =>
      List.mem_cons_of_mem _ (List.mem_map_of_mem mem)
    refine .inr ⟨temporary, aside, ?_⟩
    have none_yet : (([] : List Packed).map Packed.name).Nodup := List.nodup_nil
    refine ((entries_settled aside List.mem_cons_self sources [] none_yet).prepend []).mono ?_
    rintro all ⟨more, rfl, packed, distinct, closed⟩
    exact ⟨packed, distinct, closed⟩

/-- How a writing has ended: the tree is the old one, or has the complete archive at the destination. -/
inductive Ended (t : FileTree) (destination : Path) (entries : List ArchiveEntry) (level : Nat)
    (w : Writing) : Prop where
  | failed (e : BuildError) (result : w.result = .error e) (kept : w.tree t = t)
  | landed (place : Location) (members : List Packed) (result : w.result = .ok ())
      (slot : t.slot destination = .ok (.named place false))
      (other : t.entry? place ≠ some .directory) (complete : Complete t level entries members)
      (landed : w.tree t = t.put place (.file (encode members) false))
      (there : (w.tree t).open? destination = .ok (.file (encode members) false))

theorem Settled.ended (settled : Settled t temporary destination (Complete t level entries) w) :
    Ended t destination entries level w := by
  cases settled with
  | abandoned contents e => exact .failed e rfl (by simp [Writing.tree])
  | landed contents place members slot other all =>
    generalize landed_eq : t.put place (.file (encode members) false) = landed
    have last : Writing.tree ⟨contents.map (fill t temporary) ++ [landed], .ok ()⟩ t = landed := by
      simp [Writing.tree]
    have named := slot_named slot
    have kept : KeepsDirectories t landed := by
      rw [← landed_eq]
      exact .put named.not_top other
    have there : landed.entry? place = some (.file (encode members) false) := by
      rw [← landed_eq]
      exact entry_put_self named.not_top
    have complete : landed.open? destination = .ok (.file (encode members) false) :=
      (slot_named (slot_kept kept slot)).standing there
    exact .landed place members rfl slot other all (last.trans landed_eq.symm) (by rw [last, complete])

theorem writing_ended (faults : Faults) (t : FileTree) (destination : Path)
    (entries : List ArchiveEntry) (level : Nat) :
    Ended t destination entries level (writeUnder faults t destination entries level) := by
  rcases writing_settled faults t destination entries level with ⟨e, early⟩ | ⟨_, _, settled⟩
  · rw [early]
    exact .failed e rfl rfl
  · exact settled.ended

/-- What is promised of writing an archive, whichever of its steps fail. -/
structure AllOrNothing (t : FileTree) (destination : Path) (entries : List ArchiveEntry)
    (w : Writing) : Prop where
  /-- A failure leaves the tree as it was. -/
  failed : ∀ e, w.result = .error e → w.tree t = t
  /-- Otherwise the destination holds the complete archive, and nothing else has changed. -/
  written : w.result = .ok () → ∃ place bytes,
    t.slot destination = .ok (.named place false) ∧ t.entry? place ≠ some .directory ∧
      w.tree t = t.put place (.file bytes false) ∧
      (w.tree t).open? destination = .ok (.file bytes false) ∧ ArchiveOf t entries bytes
  /-- Until the end, the temporary file is all that differs, and the destination is as it was. -/
  between : ∃ temporary, Aside t (destination :: entries.map ArchiveEntry.source) temporary ∧
    ∀ state ∈ w.states, state = w.tree t ∨
      ∃ content, state = fill t temporary content ∧ state.open? destination = t.open? destination

theorem Settled.between
    (aside : Aside t (destination :: entries.map ArchiveEntry.source) temporary)
    (settled : Settled t temporary destination (Complete t level entries) w) :
    ∀ state ∈ w.states, state = w.tree t ∨
      ∃ content, state = fill t temporary content ∧ state.open? destination = t.open? destination := by
  -- All states but the last have the temporary file in them, however the writing ends.
  have early : ∀ (contents : List Bytes) (last : FileTree) (result : Except BuildError Unit),
      ∀ state ∈ contents.map (fill t temporary) ++ [last],
        state = Writing.tree ⟨contents.map (fill t temporary) ++ [last], result⟩ t ∨
          ∃ content, state = fill t temporary content ∧ state.open? destination = t.open? destination := by
    intro contents last result state mem
    rcases List.mem_append.mp mem with filled | final
    · obtain ⟨content, _, rfl⟩ := List.mem_map.mp filled
      exact .inr ⟨content, rfl, aside.opened content List.mem_cons_self⟩
    · exact .inl (by simpa [Writing.tree] using final)
  cases settled with
  | abandoned contents e => exact early contents t (.error e)
  | landed contents place members slot other all => exact early contents _ (.ok ())

theorem writing_all_or_nothing (faults : Faults) (t : FileTree) (destination : Path)
    (entries : List ArchiveEntry) (level : Nat) :
    AllOrNothing t destination entries (writeUnder faults t destination entries level) := by
  have ended := writing_ended faults t destination entries level
  refine ⟨?_, ?_, ?_⟩
  · intro e failed
    cases ended with
    | failed _ _ kept => exact kept
    | landed place members result => simp [result] at failed
  · intro done
    cases ended with
    | failed e result => simp [result] at done
    | landed place members _ slot other complete landed there =>
      exact ⟨place, _, slot, other, landed, there, complete.archive⟩
  · rcases writing_settled faults t destination entries level with ⟨e, early⟩ | ⟨_, aside, settled⟩
    · rw [early]
      exact ⟨_, fresh_aside t [] _, fun state mem => by simp at mem⟩
    · exact ⟨_, aside, settled.between aside⟩

end ReleaseMatrix.Archive

namespace ReleaseMatrix.Packager

theorem describe_path {v : NormalizedVariant} {s : Stamp} {t : FileTree} (packer : Packager) :
    (packer.describe v s t).path = packer.destination v := by
  unfold Packager.describe Artifact.withDigest
  split <;> rfl

theorem describe_file {v : NormalizedVariant} {s : Stamp} {t : FileTree} {packer : Packager}
    {content : Bytes} {executable : Bool}
    (there : t.open? (packer.destination v) = .ok (.file content executable)) :
    (packer.describe v s t).size = content.length ∧
      (packer.describe v s t).sha256 = some (Sha256.text content) := by
  have readable : t.read (packer.destination v) = .ok content := by
    simp only [FileTree.read, there, Entry.read]
  simp [Packager.describe, Artifact.withDigest, Artifact.new, there, readable, Entry.size]

end ReleaseMatrix.Packager

namespace ReleaseMatrix.Release

open Archive

/-- What packing a variant can come to: nothing has changed, or the archive is complete and described
    as it is. -/
inductive PackStep (r : Release) (s : Stamp) (v : NormalizedVariant) (t : FileTree) :
    FileTree × Outcome → Prop where
  | failed (e : BuildError) (fault : (r.packager.writing (r.faults v t) v t).result = .error e) :
      PackStep r s v t (t, .packageFailed e.message)
  | packed (place : Location) (members : List Packed) (after : FileTree)
      (done : (r.packager.writing (r.faults v t) v t).result = .ok ())
      (slot : t.slot (r.packager.destination v) = .ok (.named place false))
      (other : t.entry? place ≠ some .directory)
      (complete : Complete t r.packager.level (r.packager.entries v) members)
      (landed : after = t.put place (.file (encode members) false))
      (there : after.open? (r.packager.destination v) = .ok (.file (encode members) false)) :
      PackStep r s v t (after, .packaged (r.packager.describe v s after))

theorem pack_step (r : Release) (s : Stamp) (v : NormalizedVariant) (t : FileTree) :
    PackStep r s v t (r.packVariant s v t) := by
  have ended : Ended t (r.packager.destination v) (r.packager.entries v) r.packager.level
      (r.packager.writing (r.faults v t) v t) := writing_ended _ t _ _ _
  cases ended with
  | failed e fault kept =>
    have result : r.packVariant s v t = (t, .packageFailed e.message) := by
      simp only [packVariant, Packager.package, fault, kept]
    rw [result]
    exact .failed e fault
  | landed place members done slot other complete landed there =>
    have result : r.packVariant s v t = ((r.packager.writing (r.faults v t) v t).tree t,
        .packaged (r.packager.describe v s ((r.packager.writing (r.faults v t) v t).tree t))) := by
      simp only [packVariant, Packager.package, done]
    rw [result]
    exact .packed place members _ done slot other complete landed there

/-- Archives are written as a whole or not at all, and a variant that is reported as not packed has
    the tree that its compilation left. -/
theorem archives_all_or_nothing :
    (∀ faults t destination entries level, AllOrNothing t destination entries
      (writeUnder faults t destination entries level)) ∧
    ∀ (r : Release) s v t message, (r.buildVariant s v t).outcome = .packageFailed message →
      ∃ before run, (r.buildVariant s v t).events = [.compiled (r.request s v) before run] ∧
        run = r.compiler.compile (r.request s v) before ∧ (r.buildVariant s v t).tree = run.1 := by
  refine ⟨writing_all_or_nothing, ?_⟩
  intro r s v t message failed
  have step := variant_step r s v t
  generalize r.buildVariant s v t = built at step failed
  cases step with
  | stuck e fault => simp at failed
  | uncompiled cleared run e clear call fault => simp at failed
  | compiled cleared run path clear call done =>
    have packing := pack_step r s v run.1
    generalize r.packVariant s v run.1 = packed at packing failed
    cases packing with
    | failed e fault => exact ⟨cleared, run, rfl, call.symm, rfl⟩
    | packed place members after done slot other complete landed there => simp at failed

end ReleaseMatrix.Release
