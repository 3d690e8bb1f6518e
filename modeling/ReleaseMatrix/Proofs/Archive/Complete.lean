import ReleaseMatrix.Archive.Writer
import ReleaseMatrix.Proofs.Archive.Format

/- The complete archive of some files. It is read back as these files, however many and however large
   they are: what would have no room in it is refused before. -/
namespace ReleaseMatrix.Archive

variable {t : FileTree} {entries : List ArchiveEntry} {entry : ArchiveEntry} {level : Nat}
variable {members : List Packed} {p : Packed}

def contentOf (t : FileTree) (entry : ArchiveEntry) : Bytes := (t.read entry.source).toOption.getD []

def memberFrom (t : FileTree) (entry : ArchiveEntry) : Member :=
  ⟨entry.name, regularMode entry.mode, true, epoch, contentOf t entry⟩

def packOf (t : FileTree) (level : Nat) (entry : ArchiveEntry) : Packed :=
  pack level entry.name (regularMode entry.mode) (contentOf t entry)

/-- What the complete archive of some files is: all of them can be read, no two have a name in common,
    and it is read back as these files, in order and nothing else. -/
structure ArchiveOf (t : FileTree) (entries : List ArchiveEntry) (bytes : Bytes) : Prop where
  readable : ∀ entry ∈ entries, t.read entry.source = .ok (contentOf t entry)
  distinct : (entries.map ArchiveEntry.name).Nodup
  decoded : decode? bytes = some (entries.map (memberFrom t))

structure PackedFrom (t : FileTree) (level : Nat) (entry : ArchiveEntry) (m : Packed) : Prop where
  read : t.read entry.source = .ok (contentOf t entry)
  content : (contentOf t entry).length ≤ mark32
  name : (Utf8.encode entry.name).length ≤ mark16
  packed : m = packOf t level entry

structure Closed (members : List Packed) : Prop where
  light : ∀ m ∈ members, m.data.length ≤ mark32
  room : (encode members).length ≤ maxFileLength

structure Complete (t : FileTree) (level : Nat) (entries : List ArchiveEntry)
    (members : List Packed) : Prop where
  packed : List.Forall₂ (PackedFrom t level) entries members
  distinct : (members.map Packed.name).Nodup
  closed : Closed members

theorem contentOf_read {content : Bytes} (read : t.read entry.source = .ok content) :
    contentOf t entry = content := by
  rw [contentOf, read]
  rfl

theorem PackedFrom.reads (packed : PackedFrom t level entry p) (light : p.data.length ≤ mark32) :
    ReadsAs p (memberFrom t entry) := by
  have content := packed.content
  have name := packed.name
  obtain rfl := packed.packed
  have mode : regularMode entry.mode < 256 ^ 2 := by
    unfold regularMode
    omega
  have wide {n : Nat} (small : n ≤ mark32) : n < 256 ^ 8 := Nat.lt_of_le_of_lt small (by decide)
  exact ⟨⟨Nat.lt_succ_of_le name, mode, rfl, UInt32.toNat_lt _, wide light, wide content⟩,
    Deflate.inflate_deflate level _, rfl, rfl, rfl⟩

theorem members_read (packed : List.Forall₂ (PackedFrom t level) entries members)
    (light : ∀ m ∈ members, m.data.length ≤ mark32) :
    List.Forall₂ ReadsAs members (entries.map (memberFrom t)) := by
  induction packed with
  | nil => exact .nil
  | cons first _ ih =>
    obtain ⟨own, others⟩ := List.forall_mem_cons.mp light
    exact .cons (first.reads own) (ih others)

theorem names_packed (packed : List.Forall₂ (PackedFrom t level) entries members) :
    members.map Packed.name = entries.map ArchiveEntry.name := by
  induction packed with
  | nil => rfl
  | cons first _ ih => rw [List.map_cons, List.map_cons, ih, first.packed]; rfl

theorem sources_read (packed : List.Forall₂ (PackedFrom t level) entries members) :
    ∀ entry ∈ entries, t.read entry.source = .ok (contentOf t entry) := by
  induction packed with
  | nil => exact List.forall_mem_nil _
  | cons first _ ih => exact List.forall_mem_cons.mpr ⟨first.read, ih⟩

theorem Complete.archive (complete : Complete t level entries members) :
    ArchiveOf t entries (encode members) where
  readable := sources_read complete.packed
  distinct := names_packed complete.packed ▸ complete.distinct
  decoded := by
    have room : (encode members).length < 256 ^ 8 :=
      Nat.lt_of_le_of_lt complete.closed.room (by decide)
    exact decode_encode (members_read complete.packed complete.closed.light) room

end ReleaseMatrix.Archive
