import Mathlib
import ReleaseMatrix.Archive.Format
import ReleaseMatrix.Proofs.Deflate.Code
import ReleaseMatrix.Proofs.Text.Utf8

/- Archives are read back. Their records are numbers of known widths, so that the place of each number
   in a record is the width of what comes before it. -/
namespace ReleaseMatrix.Archive

variable {numbers : List (Nat × Nat)} {level offset : Nat} {m : Member} {p : Packed}
variable {members : List Member} {packed : List Packed}

theorem littleEndian_length (width n : Nat) : (littleEndian width n).length = width := by
  induction width generalizing n with
  | zero => rfl
  | succ width ih => rw [littleEndian, List.length_cons, ih]

theorem readLittle_littleEndian (width n : Nat) :
    readLittle (littleEndian width n) = n % 256 ^ width := by
  induction width generalizing n with
  | zero => rw [Nat.pow_zero, Nat.mod_one]; rfl
  | succ width ih =>
    have byte : (n % 256).toUInt8.toNat = n % 256 := by simp
    rw [littleEndian, readLittle, ih, byte, Nat.pow_succ', Nat.mod_mul]

theorem littleEndian_shifted (n : Nat) :
    littleEndian 4 (n * 65536) = littleEndian 2 0 ++ littleEndian 2 n := by
  have low : n * 65536 % 256 = 0 := by omega
  have next : n * 65536 / 256 % 256 = 0 := by omega
  have rest : n * 65536 / 256 / 256 = n := by omega
  simp only [littleEndian, low, next, rest]
  rfl

def record (numbers : List (Nat × Nat)) : Bytes := numbers.flatMap fun number => littleEndian number.1 number.2

theorem record_length (numbers : List (Nat × Nat)) :
    (record numbers).length = (numbers.map Prod.fst).sum := by
  induction numbers with
  | nil => rfl
  | cons number rest ih =>
    rw [record, List.flatMap_cons, List.length_append, littleEndian_length, List.map_cons,
      List.sum_cons]
    exact congrArg _ ih

theorem slice_between (front middle back : Bytes) :
    slice (front ++ (middle ++ back)) front.length middle.length = middle := by
  rw [slice, List.drop_left, List.take_left]

theorem field_of_record {widths : List Nat} (shape : numbers.map Prod.fst = widths)
    {i width n place : Nat} (listed : numbers[i]? = some (width, n))
    (before : (widths.take i).sum = place) (fits : n < 256 ^ width) (rest : Bytes) :
    field (record numbers ++ rest) place width = n := by
  obtain ⟨bound, here⟩ := List.getElem?_eq_some_iff.mp listed
  have split : numbers = numbers.take i ++ (width, n) :: numbers.drop (i + 1) := by
    rw [← here, ← List.drop_eq_getElem_cons bound, List.take_append_drop]
  have whole : record numbers ++ rest = record (numbers.take i) ++
      (littleEndian width n ++ (record (numbers.drop (i + 1)) ++ rest)) := by
    conv_lhs => rw [split]
    simp only [record, List.flatMap_append, List.flatMap_cons, List.append_assoc]
  have part := slice_between (record (numbers.take i)) (littleEndian width n)
    (record (numbers.drop (i + 1)) ++ rest)
  rw [record_length, List.map_take, shape, before, littleEndian_length, ← whole] at part
  rw [field, part, readLittle_littleEndian, Nat.mod_eq_of_lt fits]

section Wide

theorem min_mark_lt (n : Nat) : min n mark32 < 256 ^ 4 :=
  Nat.lt_of_le_of_lt (Nat.min_le_right n mark32) (by decide)

theorem wideNumbers_block {numbers : List Nat} (short : 8 * numbers.length < 256 ^ 2) :
    wideNumbers (wideBlock numbers) = (numbers.filter (mark32 ≤ ·)).flatMap (littleEndian 8) := by
  have fewer := List.length_filter_le (mark32 ≤ ·) numbers
  unfold wideBlock
  generalize numbers.filter (mark32 ≤ ·) = wide at fewer
  cases wide with
  | nil => rfl
  | cons n more =>
    generalize all_eq : n :: more = all at fewer
    have some_ : all.isEmpty = false := by rw [← all_eq]; rfl
    have front : littleEndian 2 wideId ++ littleEndian 2 (8 * all.length) =
        record [(2, wideId), (2, 8 * all.length)] := by
      simp only [record, List.flatMap_cons, List.flatMap_nil, List.append_nil]
    have shape : [(2, wideId), (2, 8 * all.length)].map Prod.fst = [2, 2] := rfl
    have data : (all.flatMap (littleEndian 8)).length = 8 * all.length := by
      simp [List.length_flatMap, littleEndian_length, Nat.mul_comm]
    have whole := slice_between (record [(2, wideId), (2, 8 * all.length)]) (all.flatMap (littleEndian 8)) []
    rw [data, record_length, List.append_nil] at whole
    simp only [some_, Bool.false_eq_true, if_false, front]
    generalize block_eq : record [(2, wideId), (2, 8 * all.length)] ++ all.flatMap (littleEndian 8) =
      block at whole
    have kind : field block 0 2 = wideId :=
      block_eq ▸ field_of_record shape (i := 0) rfl rfl (by decide) _
    have size : field block 2 2 = 8 * all.length :=
      block_eq ▸ field_of_record shape (i := 1) rfl rfl (by omega) _
    rw [wideNumbers, if_pos kind, size]
    exact whole

theorem widen_marked {numbers : List Nat} (fits : ∀ n ∈ numbers, n < 256 ^ 8) :
    widen ((numbers.filter (mark32 ≤ ·)).flatMap (littleEndian 8)) (numbers.map (min · mark32)) =
      numbers := by
  -- The wide numbers stand in the order of the marks, so each mark takes the first that is left.
  induction numbers with
  | nil => rfl
  | cons n rest ih =>
    obtain ⟨first, others⟩ := List.forall_mem_cons.mp fits
    by_cases wide : mark32 ≤ n
    · have front : field (littleEndian 8 n ++ (rest.filter (mark32 ≤ ·)).flatMap (littleEndian 8)) 0 8 = n := by
        rw [field, slice, List.drop_zero, List.take_left' (littleEndian_length 8 n),
          readLittle_littleEndian, Nat.mod_eq_of_lt first]
      rw [List.filter_cons_of_pos (by simpa using wide), List.flatMap_cons, List.map_cons,
        Nat.min_eq_right wide, widen, if_pos rfl, front, List.drop_left' (littleEndian_length 8 n), ih others]
    · have plain : n < mark32 := Nat.lt_of_not_le wide
      rw [List.filter_cons_of_neg (by simpa using wide), List.map_cons, Nat.min_eq_left (Nat.le_of_lt plain),
        widen, if_neg (Nat.ne_of_lt plain), ih others]

end Wide

namespace Packed

def parts (p : Packed) (extra : Bytes) : List (Nat × Nat) :=
  [(2, if extra.isEmpty then plainVersion else wideVersion), (2, nameFlags p.name), (2, deflatedMethod),
    (2, timeField p.time), (2, dateField p.time), (4, p.checksum), (4, min p.data.length mark32),
    (4, min p.size mark32), (2, (Utf8.encode p.name).length), (2, extra.length)]

def localParts (p : Packed) : List (Nat × Nat) := (4, localSignature) :: p.parts []

def centralParts (p : Packed) (offset : Nat) : List (Nat × Nat) :=
  (4, centralSignature) :: (2, madeBy wideVersion) :: p.parts (wideBlock (p.wideFields offset)) ++
    [(2, 0), (2, 0), (2, 0), (2, 0), (2, p.mode), (4, min offset mark32)]

def localWidths : List Nat := [4, 2, 2, 2, 2, 2, 4, 4, 4, 2, 2]

def centralWidths : List Nat := [4, 2, 2, 2, 2, 2, 2, 4, 4, 4, 2, 2, 2, 2, 2, 2, 2, 4]

theorem local_shape (p : Packed) : p.localParts.map Prod.fst = localWidths := rfl

theorem central_shape (p : Packed) (offset : Nat) :
    (p.centralParts offset).map Prod.fst = centralWidths := rfl

theorem local_record (p : Packed) :
    p.local = record p.localParts ++ (Utf8.encode p.name ++ p.data) := by
  simp only [Packed.local, header, localParts, parts, record, List.flatMap_cons, List.flatMap_nil,
    List.append_assoc, List.append_nil]

theorem central_record (p : Packed) (offset : Nat) : p.central offset =
    record (p.centralParts offset) ++ (Utf8.encode p.name ++ wideBlock (p.wideFields offset)) := by
  simp only [central, header, centralParts, parts, record, littleEndian_shifted,
    List.flatMap_cons, List.flatMap_nil, List.cons_append, List.nil_append, List.append_assoc,
    List.append_nil]

theorem local_record_length (p : Packed) : (record p.localParts).length = 30 := by
  rw [record_length, local_shape]
  rfl

theorem central_record_length (p : Packed) (offset : Nat) :
    (record (p.centralParts offset)).length = 46 := by
  rw [record_length, central_shape]
  rfl

theorem wideFields_length (p : Packed) (offset : Nat) :
    (wideBlock (p.wideFields offset)).length ≤ 28 := by
  have fewer := List.length_filter_le (mark32 ≤ ·) (p.wideFields offset)
  have three : (p.wideFields offset).length = 3 := rfl
  simp only [wideBlock]
  split
  · simp
  · simp only [List.length_append, littleEndian_length, List.length_flatMap, List.map_const',
      List.sum_replicate, smul_eq_mul]
    omega

theorem local_length (p : Packed) :
    p.local.length = 30 + (Utf8.encode p.name).length + p.data.length := by
  rw [local_record, List.length_append, local_record_length, List.length_append, Nat.add_assoc]

theorem central_length (p : Packed) (offset : Nat) :
    (p.central offset).length ≤ 74 + (Utf8.encode p.name).length := by
  have block := p.wideFields_length offset
  rw [central_record, List.length_append, List.length_append, central_record_length]
  omega

end Packed

structure Packed.Fits (p : Packed) : Prop where
  name : (Utf8.encode p.name).length < 256 ^ 2
  mode : p.mode < 256 ^ 2
  time : p.time = epoch
  checksum : p.checksum < 256 ^ 4
  data : p.data.length < 256 ^ 8
  size : p.size < 256 ^ 8

structure LineOf (p : Packed) (offset : Nat) (listing rest : Bytes) : Prop where
  signature : field listing 0 4 = centralSignature
  long : ¬ listing.length < 46
  method : field listing 10 2 = deflatedMethod
  time : timestampOf (field listing 14 2) (field listing 12 2) = epoch
  checksum : field listing 16 4 = p.checksum
  wideFields : widen (wideNumbers (slice listing (46 + field listing 28 2) (field listing 30 2)))
    [field listing 24 4, field listing 20 4, field listing 42 4] = p.wideFields offset
  name : slice listing 46 (field listing 28 2) = Utf8.encode p.name
  mode : field listing 40 2 = p.mode
  rest : listing.drop (46 + field listing 28 2 + field listing 30 2 + field listing 32 2) = rest

theorem central_line (fits : p.Fits) (room : offset < 256 ^ 8) (rest : Bytes) :
    LineOf p offset (p.central offset ++ rest) rest := by
  generalize extra_eq : wideBlock (p.wideFields offset) = extra
  have line : p.central offset ++ rest =
      record (p.centralParts offset) ++ (Utf8.encode p.name ++ (extra ++ rest)) := by
    rw [p.central_record, extra_eq, List.append_assoc, List.append_assoc]
  have wide := p.central_record_length offset
  have short : extra.length < 256 ^ 2 :=
    extra_eq ▸ Nat.lt_of_le_of_lt (p.wideFields_length offset) (by decide)
  generalize p.central offset ++ rest = listing at line
  have part : ∀ {i width n place : Nat}, (p.centralParts offset)[i]? = some (width, n) →
      (Packed.centralWidths.take i).sum = place → n < 256 ^ width →
        field listing place width = n := by
    intro i width n place listed before fits
    rw [line]
    exact field_of_record (p.central_shape offset) listed before fits _
  have time : field listing 12 2 = timeField epoch := part (i := 5) (fits.time ▸ rfl) rfl (by decide)
  have date : field listing 14 2 = dateField epoch := part (i := 6) (fits.time ▸ rfl) rfl (by decide)
  have name : field listing 28 2 = (Utf8.encode p.name).length := part (i := 10) rfl rfl fits.name
  have blocks : field listing 30 2 = extra.length := part (i := 11) (extra_eq ▸ rfl) rfl short
  have comment : field listing 32 2 = 0 := part (i := 12) rfl rfl (by decide)
  have data : field listing 20 4 = min p.data.length mark32 := part (i := 8) rfl rfl (min_mark_lt _)
  have size : field listing 24 4 = min p.size mark32 := part (i := 9) rfl rfl (min_mark_lt _)
  have place : field listing 42 4 = min offset mark32 := part (i := 17) rfl rfl (min_mark_lt _)
  have long : ¬ listing.length < 46 := by
    rw [line, List.length_append, wide]
    omega
  refine ⟨part (i := 0) rfl rfl (by decide), long, part (i := 4) rfl rfl (by decide), ?_,
    part (i := 7) rfl rfl fits.checksum, ?_, ?_, part (i := 16) rfl rfl fits.mode, ?_⟩
  · rw [time, date]
    rfl
  · have block := slice_between (record (p.centralParts offset) ++ Utf8.encode p.name) extra rest
    rw [List.length_append, wide, List.append_assoc, ← line] at block
    have all : ∀ n ∈ p.wideFields offset, n < 256 ^ 8 := by
      simp only [Packed.wideFields, List.forall_mem_cons, List.not_mem_nil, false_implies, implies_true,
        and_true]
      exact ⟨fits.size, fits.data, room⟩
    have three : 8 * (p.wideFields offset).length < 256 ^ 2 := (by decide : 8 * 3 < 256 ^ 2)
    rw [name, blocks, block, size, data, place, ← extra_eq, wideNumbers_block three]
    exact widen_marked all
  · rw [name, line, ← wide]
    exact slice_between _ _ _
  · rw [name, blocks, comment, line, ← List.append_assoc, ← List.append_assoc]
    refine List.drop_left' ?_
    rw [List.length_append, List.length_append, wide]
    rfl

structure StartOf (p : Packed) (entry : Bytes) : Prop where
  signature : field entry 0 4 = localSignature
  data : slice entry (30 + field entry 26 2 + field entry 28 2) p.data.length = p.data

theorem local_start (fits : p.Fits) (back : Bytes) : StartOf p (p.local ++ back) := by
  have text : p.local ++ back =
      record p.localParts ++ (Utf8.encode p.name ++ (p.data ++ back)) := by
    rw [p.local_record, List.append_assoc, List.append_assoc]
  have wide := p.local_record_length
  generalize p.local ++ back = entry at text
  have part : ∀ {i width n place : Nat}, p.localParts[i]? = some (width, n) →
      (Packed.localWidths.take i).sum = place → n < 256 ^ width → field entry place width = n := by
    intro i width n place listed before fits
    rw [text]
    exact field_of_record p.local_shape listed before fits _
  have name : field entry 26 2 = (Utf8.encode p.name).length := part (i := 9) rfl rfl fits.name
  have extra : field entry 28 2 = 0 := part (i := 10) rfl rfl (by decide)
  refine ⟨part (i := 0) rfl rfl (by decide), ?_⟩
  have whole := slice_between (record p.localParts ++ Utf8.encode p.name) p.data back
  rw [List.length_append, wide, List.append_assoc, ← text] at whole
  rw [name, extra, Nat.add_zero, whole]

def Packed.member (p : Packed) (content : Bytes) : Member := ⟨p.name, p.mode, true, epoch, content⟩

theorem readMember_line {archive listing back rest content : Bytes} (fits : p.Fits)
    (inflated : Deflate.inflate? p.data = some content) (size : p.size = content.length)
    (checksum : p.checksum = (Crc32.checksum content).toNat)
    (line : LineOf p offset listing rest) (there : archive.drop offset = p.local ++ back) :
    readMember archive listing = some (p.member content, rest) := by
  have start := local_start fits back
  have unpacked : unpack? deflatedMethod p.data = some content := inflated
  have intact : content.length = p.size ∧ (Crc32.checksum content).toNat = field listing 16 4 :=
    ⟨size.symm, by rw [line.checksum, checksum]⟩
  have kind : (deflatedMethod == deflatedMethod) = true := rfl
  unfold readMember
  rw [if_neg (by simpa [line.signature] using line.long)]
  simp only [line.wideFields, Packed.wideFields, there, start.signature, ne_eq, not_true_eq_false,
    if_false, line.method, line.name, start.data, Utf8.decode_encode, unpacked, Option.bind_some,
    if_pos intact, line.mode, line.time, line.rest, kind, Packed.member]

structure ReadsAs (p : Packed) (m : Member) : Prop where
  fits : p.Fits
  inflated : Deflate.inflate? p.data = some m.content
  size : p.size = m.content.length
  checksum : p.checksum = (Crc32.checksum m.content).toNat
  same : m = p.member m.content

theorem locals_cons (p : Packed) (rest : List Packed) : locals (p :: rest) = p.local ++ locals rest := rfl

theorem readMembers_directory {archive front rest ending : Bytes}
    (each : List.Forall₂ ReadsAs packed members) (whole : archive = front ++ (locals packed ++ rest))
    (room : (front ++ locals packed).length < 256 ^ 8) :
    readMembers archive packed.length (directory front.length packed ++ ending) = some members := by
  -- The members that have been read stand in front of those that are still to be read.
  induction each generalizing front with
  | nil => rfl
  | cons first later ih =>
    rename_i p m packed members
    rw [locals_cons, List.append_assoc] at whole
    rw [locals_cons, ← List.append_assoc] at room
    have place : front.length < 256 ^ 8 := by
      simp only [List.length_append] at room
      omega
    have there : archive.drop front.length = p.local ++ (locals packed ++ rest) := by
      rw [whole, List.drop_left]
    have line := central_line first.fits place (directory (front.length + p.local.length) packed ++ ending)
    have read := readMember_line first.fits first.inflated first.size first.checksum line there
    rw [← List.append_assoc] at whole
    have others := ih whole room
    rw [List.length_append] at others
    rw [directory, List.append_assoc, List.length_cons, readMembers, read]
    simp only [others, Option.map_some, ← first.same]

section Ending

variable {count size place : Nat}

def plainParts (count size offset : Nat) : List (Nat × Nat) :=
  [(4, endSignature), (2, 0), (2, 0), (2, count), (2, count), (4, size), (4, offset), (2, 0)]

def wideParts (count size offset : Nat) : List (Nat × Nat) :=
  [(4, wideEndSignature), (8, 44), (2, madeBy wideVersion), (2, wideVersion), (4, 0), (4, 0), (8, count),
    (8, count), (8, size), (8, offset)]

def locatorParts (place : Nat) : List (Nat × Nat) := [(4, locatorSignature), (4, 0), (8, place), (4, 1)]

theorem plain_record (count size offset : Nat) :
    plainEnding count size offset = record (plainParts count size offset) := by
  simp only [plainEnding, plainParts, record, List.flatMap_cons, List.flatMap_nil, List.append_assoc,
    List.append_nil]

theorem wide_record (count size offset : Nat) : wideEnding count size offset =
    record (wideParts count size offset) ++ record (locatorParts (offset + size)) := by
  simp only [wideEnding, wideParts, locatorParts, record, List.flatMap_cons, List.flatMap_nil,
    List.append_assoc, List.append_nil]

theorem plain_length (count size offset : Nat) : (plainEnding count size offset).length = 22 := by
  rw [plain_record, record_length]
  rfl

theorem ending_length (count size offset : Nat) : (ending count size offset).length ≤ 98 := by
  have wide : (wideEnding count size offset).length = 76 := by
    rw [wide_record, List.length_append, record_length, record_length]
    rfl
  rw [ending, List.length_append, plain_length]
  split
  · simp
  · omega

theorem drop_back (front : Bytes) {back : Bytes} {width : Nat} (length : back.length = width) :
    (front ++ back).drop ((front ++ back).length - width) = back := by
  rw [List.length_append, length, Nat.add_sub_cancel, List.drop_left]

theorem haveRoom_marked (count size offset : Nat) :
    haveRoom (min count mark16) (min size mark32) (min offset mark32) = haveRoom count size offset := by
  have marked (n mark : Nat) : min n mark < mark ↔ n < mark := by
    rw [Nat.min_def]
    split <;> omega
  simp only [haveRoom, marked]

structure LastOf (archive : Bytes) (count size offset : Nat) : Prop where
  long : ¬ archive.length < 22
  signature : field (archive.drop (archive.length - 22)) 0 4 = endSignature
  count : field (archive.drop (archive.length - 22)) 10 2 = count
  size : field (archive.drop (archive.length - 22)) 12 4 = size
  offset : field (archive.drop (archive.length - 22)) 16 4 = offset

theorem plain_last (front : Bytes) (few : count < 256 ^ 2) (short : size < 256 ^ 4)
    (near : offset < 256 ^ 4) : LastOf (front ++ plainEnding count size offset) count size offset := by
  have length := plain_length count size offset
  have found := drop_back front length
  have long : ¬ (front ++ plainEnding count size offset).length < 22 := by
    rw [List.length_append, length]
    omega
  generalize front ++ plainEnding count size offset = archive at found long
  have part : ∀ {i width n place : Nat}, (plainParts count size offset)[i]? = some (width, n) →
      (([4, 2, 2, 2, 2, 4, 4, 2] : List Nat).take i).sum = place → n < 256 ^ width →
        field (archive.drop (archive.length - 22)) place width = n := by
    intro i width n place listed before fits
    rw [found, plain_record, ← List.append_nil (record _)]
    exact field_of_record rfl listed before fits []
  exact ⟨long, part (i := 0) rfl rfl (by decide), part (i := 4) rfl rfl few, part (i := 5) rfl rfl short,
    part (i := 6) rfl rfl near⟩

structure WideOf (archive : Bytes) (count offset : Nat) : Prop where
  long : ¬ archive.length < 42
  locator : field (archive.drop (archive.length - 42)) 0 4 = locatorSignature
  signature : field (archive.drop (field (archive.drop (archive.length - 42)) 8 8)) 0 4 = wideEndSignature
  count : field (archive.drop (field (archive.drop (archive.length - 42)) 8 8)) 32 8 = count
  offset : field (archive.drop (field (archive.drop (archive.length - 42)) 8 8)) 48 8 = offset

theorem wide_last {front last : Bytes} (length : last.length = 22) (few : count < 256 ^ 8)
    (whole : front.length = offset + size) (room : front.length < 256 ^ 8) :
    WideOf (front ++ wideEnding count size offset ++ last) count offset := by
  generalize back_eq : record (locatorParts (offset + size)) ++ last = back
  have back_length : back.length = 42 := by
    rw [← back_eq, List.length_append, record_length, length]
    rfl
  have text : front ++ wideEnding count size offset ++ last =
      front ++ (record (wideParts count size offset) ++ back) := by
    rw [wide_record, ← back_eq, List.append_assoc, List.append_assoc]
  have found := drop_back (front ++ record (wideParts count size offset)) back_length
  rw [List.append_assoc, ← text] at found
  have long : ¬ (front ++ wideEnding count size offset ++ last).length < 42 := by
    rw [text, List.length_append, List.length_append, back_length]
    omega
  have start : (front ++ wideEnding count size offset ++ last).drop (offset + size) =
      record (wideParts count size offset) ++ back := by
    rw [text, ← whole, List.drop_left]
  generalize front ++ wideEnding count size offset ++ last = archive at found long start
  have shape : (locatorParts (offset + size)).map Prod.fst = [4, 4, 8, 4] := rfl
  have locator : field (archive.drop (archive.length - 42)) 0 4 = locatorSignature := by
    rw [found, ← back_eq]
    exact field_of_record shape (i := 0) rfl rfl (by decide) last
  have place : field (archive.drop (archive.length - 42)) 8 8 = offset + size := by
    rw [found, ← back_eq]
    exact field_of_record shape (i := 2) rfl rfl (whole ▸ room) last
  have part : ∀ {i width n place : Nat}, (wideParts count size offset)[i]? = some (width, n) →
      (([4, 8, 2, 2, 4, 4, 8, 8, 8, 8] : List Nat).take i).sum = place → n < 256 ^ width →
        field (archive.drop (offset + size)) place width = n := by
    intro i width n place listed before fits
    rw [start]
    exact field_of_record rfl listed before fits back
  have near : offset < 256 ^ 8 := by omega
  refine ⟨long, locator, ?_, ?_, ?_⟩ <;> rw [place]
  · exact part (i := 0) rfl rfl (by decide)
  · exact part (i := 7) rfl rfl few
  · exact part (i := 9) rfl rfl near

theorem place_of_ending (count : Nat) (body listing : Bytes) (few : count < 256 ^ 8)
    (room : (body ++ listing).length < 256 ^ 8) :
    directoryPlace? (body ++ listing ++ ending count listing.length body.length) =
      some (count, body.length) := by
  have whole : (body ++ listing).length = body.length + listing.length := List.length_append
  generalize listing.length = size at whole ⊢
  generalize body.length = offset at whole ⊢
  generalize body ++ listing = front at whole room ⊢
  have count_fits : min count mark16 < 256 ^ 2 := Nat.lt_of_le_of_lt (Nat.min_le_right _ _) (by decide)
  have last (before : Bytes) :=
    plain_last before count_fits (min_mark_lt size) (min_mark_lt offset)
  have last_length := plain_length (min count mark16) (min size mark32) (min offset mark32)
  cases plain : haveRoom count size offset with
  | true =>
    have here := last front
    have kept : min count mark16 = count ∧ min offset mark32 = offset := by
      simp only [haveRoom, Bool.and_eq_true, decide_eq_true_eq] at plain
      omega
    simp only [ending, plain, if_true, List.nil_append]
    generalize front ++ plainEnding _ _ _ = archive at here ⊢
    simp only [directoryPlace?, here.signature, here.long, here.count, here.size, here.offset,
      haveRoom_marked, plain, ne_eq, not_true_eq_false, or_self, if_false, if_true]
    rw [kept.1, kept.2]
  | false =>
    have here := last (front ++ wideEnding count size offset)
    have wide := wide_last last_length few whole room
    simp only [ending, plain, Bool.false_eq_true, if_false, ← List.append_assoc]
    simp only [directoryPlace?, here.signature, here.long, here.count, here.size, here.offset,
      haveRoom_marked, plain, ne_eq, not_true_eq_false, or_self, if_false, Bool.false_eq_true,
      wide.long, wide.locator, wide.signature, wide.count, wide.offset]

end Ending

theorem directory_length (offset : Nat) (packed : List Packed) :
    (directory offset packed).length ≤ (locals packed).length + 44 * packed.length := by
  induction packed generalizing offset with
  | nil => simp [directory]
  | cons p rest ih =>
    have line := p.central_length offset
    have later := ih (offset + p.local.length)
    rw [directory, locals_cons, List.length_append, List.length_append, List.length_cons]
    have own := p.local_length
    omega

theorem encode_length (packed : List Packed) :
    (encode packed).length ≤ 2 * (locals packed).length + 44 * packed.length + 98 := by
  have listing := directory_length 0 packed
  have last := ending_length packed.length (directory 0 packed).length (locals packed).length
  simp only [encode, List.length_append]
  omega

theorem locals_count (packed : List Packed) : packed.length ≤ (locals packed).length := by
  induction packed with
  | nil => simp [locals]
  | cons p rest ih =>
    rw [locals_cons, List.length_append, List.length_cons, p.local_length]
    omega

/-- An archive of any size that wide fields have room for is read back. -/
theorem decode_encode (each : List.Forall₂ ReadsAs packed members)
    (room : (encode packed).length < 256 ^ 8) : decode? (encode packed) = some members := by
  have count := locals_count packed
  have text : encode packed = locals packed ++ directory 0 packed ++
      ending packed.length (directory 0 packed).length (locals packed).length := rfl
  rw [text, List.length_append, List.length_append] at room
  have place := place_of_ending packed.length (locals packed) (directory 0 packed) (by omega)
    (by rw [List.length_append]; omega)
  rw [← text] at place
  have from_start : encode packed = [] ++ (locals packed ++ (directory 0 packed ++
      ending packed.length (directory 0 packed).length (locals packed).length)) := by
    rw [text, List.append_assoc]
    rfl
  have listing : (encode packed).drop (locals packed).length = directory 0 packed ++
      ending packed.length (directory 0 packed).length (locals packed).length := by
    rw [text, List.append_assoc, List.drop_left]
  have near : ([] ++ locals packed).length < 256 ^ 8 := by
    rw [List.nil_append]
    omega
  rw [decode?, place, Option.bind_some]
  simp only [listing]
  exact readMembers_directory each from_start near

end ReleaseMatrix.Archive
