import ReleaseMatrix.Proofs.FileTree.Change
import ReleaseMatrix.Proofs.Path

/- Paths of a plain name in a directory, and the parents of such paths: they only depend on the
   directories on the way to it, and on what stands under the name. -/
namespace ReleaseMatrix.FileTree

open ReleaseMatrix.Path

variable {t u : FileTree} {base : Path} {name : String} {cs front back : List Char}

def way (cs : List Char) : List Hop := (Text.splitAll '/' cs).filterMap Hop.ofPiece

theorem way_append (front back : List Char) : way (front ++ '/' :: back) = way front ++ way back := by
  rw [way, Text.splitAll_append, List.filterMap_append]
  rfl

theorem way_nil : way [] = [] := rfl

theorem way_slash (back : List Char) : way ('/' :: back) = way back := way_append [] back

theorem way_end_slash (front : List Char) : way (front ++ ['/']) = way front := by
  rw [way_append, way_nil, List.append_nil]

theorem way_dot (rest : List Char) (cut : rest = [] ∨ ∃ back, rest = '/' :: back) :
    way ('.' :: rest) = .here :: way rest := by
  rcases cut with rfl | ⟨back, rfl⟩
  · rfl
  · rw [way_slash]
    exact way_append ['.'] back

theorem way_plain (plain : Plain name.toList) : way name.toList = [.name name] := by
  rw [way, Text.splitAll_whole plain.whole]
  simp [Hop.ofPiece, plain.not_empty, plain.not_dot, plain.not_dots]

theorem way_join_relative (base : Path) {p : Path} (relative : p.isAbsolute = false) :
    way (base.join p).text.toList = way base.text.toList ++ way p.text.toList := by
  have joined := join_relative base relative
  generalize (base.join p).text.toList = text at joined
  cases joined with
  | alone empty => rw [empty, way_nil, List.nil_append]
  | own_slash front slashed => rw [slashed, way_end_slash, way_append]
  | new_slash some_text => rw [way_append]

theorem way_join (base : Path) (plain : Plain name.toList) :
    way (base.join ⟨name⟩).text.toList = way base.text.toList ++ [.name name] := by
  rw [way_join_relative base (plain_relative plain), way_plain plain]

theorem join_ends_plain (base : Path) (plain : Plain name.toList) :
    endsWithSlash (base.join ⟨name⟩).text.toList = false := by
  have last : ∀ front : List Char, endsWithSlash (front ++ name.toList) = false := by
    intro front
    cases ending : name.toList.getLast? with
    | none => exact absurd (List.getLast?_eq_none_iff.mp ending) plain.not_empty
    | some c =>
      have other : c ≠ '/' := by
        rintro rfl
        exact plain.whole (List.mem_of_getLast? ending)
      unfold endsWithSlash
      rw [List.getLast?_append, ending]
      simpa using other
  have joined := join_plain base plain
  generalize (base.join ⟨name⟩).text.toList = text at joined
  cases joined with
  | alone empty => exact last []
  | own_slash front slashed => rw [List.append_cons]; exact last _
  | new_slash some_text => rw [List.append_cons]; exact last _

theorem follow_stays (loc : Location) (hops : List Hop) (count : Nat) :
    follow loc (hops ++ List.replicate count .here) = follow loc hops := by
  induction count generalizing hops with
  | zero => rw [List.replicate_zero, List.append_nil]
  | succ count ih =>
    rw [List.replicate_succ, List.append_cons, ih]
    simp [follow, Hop.next]

theorem place_way (p : Path) : placeOf p = follow [] (way p.text.toList) := by
  have same : hopsOf p.text.toList = way p.text.toList ∨
      hopsOf p.text.toList = way p.text.toList ++ List.replicate 1 .here := by
    simp only [hopsOf, way]
    split
    · exact .inr rfl
    · exact .inl rfl
  rcases same with same | same
  · rw [placeOf, same]
  · rw [placeOf, same, follow_stays]

theorem place_child (base : Path) (plain : Plain name.toList) :
    placeOf (base.join ⟨name⟩) = name :: placeOf base := by
  rw [place_way, place_way, way_join base plain, follow, List.foldl_append]
  rfl

structure Trimmed (whole trimmed : List Char) : Prop where
  dots : ∃ count, way whole = way trimmed ++ List.replicate count .here
  start : trimmed <+: whole

theorem trimmed_ends (cs : List Char) : Trimmed cs.reverse (dropEmptyEnds cs).reverse := by
  fun_induction dropEmptyEnds cs with
  | case1 cs ih =>
    rw [List.reverse_cons]
    exact ⟨by rw [way_end_slash]; exact ih.dots, ih.start.trans (List.prefix_append _ _)⟩
  | case2 => exact ⟨⟨1, rfl⟩, List.nil_prefix⟩
  | case3 cs ih =>
    obtain ⟨count, dots⟩ := ih.dots
    have text : ('.' :: '/' :: cs).reverse = cs.reverse ++ '/' :: ['.'] := by simp
    rw [text]
    refine ⟨⟨count + 1, ?_⟩, ih.start.trans (List.prefix_append _ _)⟩
    rw [way_append, dots, List.replicate_succ', List.append_assoc]
    rfl
  | case4 cs => exact ⟨⟨0, (List.append_nil _).symm⟩, List.prefix_rfl⟩

theorem splitLead_cases (cs : List Char) :
    (∃ body, cs = '/' :: body ∧ splitLead cs = (['/'], body)) ∨
      (∃ body, cs = '.' :: body ∧ (body = [] ∨ ∃ back, body = '/' :: back) ∧
        splitLead cs = (['.'], body)) ∨
      splitLead cs = ([], cs) := by
  fun_cases splitLead cs with
  | case1 cs => exact .inl ⟨cs, rfl, rfl⟩
  | case2 => exact .inr (.inl ⟨[], rfl, .inl rfl, rfl⟩)
  | case3 cs => exact .inr (.inl ⟨'/' :: cs, rfl, .inr ⟨cs, rfl⟩, rfl⟩)
  | case4 => exact .inr (.inr rfl)

theorem slash_or_nothing {start rest : List Char}
    (cut : start ++ rest = [] ∨ ∃ back, start ++ rest = '/' :: back) :
    start = [] ∨ ∃ back, start = '/' :: back := by
  cases start with
  | nil => exact .inl rfl
  | cons c start =>
    rcases cut with nothing | ⟨back, slashed⟩
    · simp at nothing
    · exact .inr ⟨start, by simpa using (List.cons.inj slashed).1⟩

theorem parentText_of {lead body rest : List Char} (split : splitLead cs = (lead, body))
    (up : bodyParent body = some rest) : parentText cs = some (lead ++ rest) := by
  simp only [parentText, split, up]

structure UpTo (front up : List Char) : Prop where
  dots : ∃ count, way front = way up ++ List.replicate count .here
  letters : ∀ c ∈ up, c ∈ front ∨ c = '/'

theorem parent_under {n : List Char} (plain : Plain n) (front : List Char) :
    ∃ up, parentText (front ++ '/' :: n) = some up ∧ UpTo front up := by
  -- The lead is not dropped with what ends the front, so the front is cut behind it.
  rcases splitLead_cases (front ++ '/' :: n) with
    ⟨body, text, split⟩ | ⟨body, text, cut, split⟩ | split
  · cases front with
    | nil =>
      obtain rfl : n = body := by simpa using text
      refine ⟨_, parentText_of split (bodyParent_plain plain), ⟨0, rfl⟩, ?_⟩
      intro c mem
      exact .inr (List.mem_singleton.mp mem)
    | cons c front =>
      obtain ⟨rfl, rfl⟩ : c = '/' ∧ front ++ '/' :: n = body := by simpa using text
      have trimmed := trimmed_ends front.reverse
      rw [List.reverse_reverse] at trimmed
      refine ⟨_, parentText_of split (bodyParent_under plain front), ?_, ?_⟩
      · rw [List.singleton_append, way_slash, way_slash]
        exact trimmed.dots
      · intro c mem
        rcases List.mem_cons.mp mem with rfl | later
        · exact .inr rfl
        · exact .inl (List.mem_cons_of_mem _ (trimmed.start.subset later))
  · cases front with
    | nil => simp at text
    | cons c front =>
      obtain ⟨rfl, rfl⟩ : c = '.' ∧ front ++ '/' :: n = body := by simpa using text
      have trimmed := trimmed_ends front.reverse
      rw [List.reverse_reverse] at trimmed
      refine ⟨_, parentText_of split (bodyParent_under plain front), ?_, ?_⟩
      · generalize (dropEmptyEnds front.reverse).reverse = up at trimmed
        obtain ⟨count, dots⟩ := trimmed.dots
        obtain ⟨rest, rfl⟩ := trimmed.start
        have cut_front := slash_or_nothing cut
        have cut_up := slash_or_nothing cut_front
        refine ⟨count, ?_⟩
        rw [List.singleton_append, way_dot _ cut_up, way_dot _ cut_front, dots, List.cons_append]
      · intro c mem
        rcases List.mem_cons.mp mem with rfl | later
        · exact .inl List.mem_cons_self
        · exact .inl (List.mem_cons_of_mem _ (trimmed.start.subset later))
  · have trimmed := trimmed_ends front.reverse
    rw [List.reverse_reverse] at trimmed
    refine ⟨_, parentText_of split (bodyParent_under plain front), trimmed.dots, ?_⟩
    intro c mem
    exact .inl (trimmed.start.subset mem)

theorem parent_alone {n : List Char} (plain : Plain n) : parentText n = some [] := by
  rcases splitLead_cases n with ⟨body, text, _⟩ | ⟨body, text, cut, _⟩ | split
  · exact absurd (by rw [text]; exact List.mem_cons_self) plain.whole
  · rcases cut with rfl | ⟨back, rfl⟩
    · exact absurd text plain.not_dot
    · exact absurd (by rw [text]; simp) plain.whole
  · exact parentText_of split (bodyParent_plain plain)

theorem parent_joined {base n text : List Char} (plain : Plain n) (joined : Joined base n text) :
    ∃ up, parentText text = some up ∧ UpTo base up := by
  cases joined with
  | alone empty =>
    rw [empty]
    exact ⟨[], parent_alone plain, ⟨0, rfl⟩, fun c mem => absurd mem List.not_mem_nil⟩
  | own_slash front slashed =>
    obtain ⟨up, found, leads⟩ := parent_under plain front
    refine ⟨up, found, ?_, ?_⟩
    · rw [slashed, way_end_slash]
      exact leads.dots
    · intro c mem
      rw [slashed, List.mem_append]
      exact (leads.letters c mem).imp_left .inl
  | new_slash some_text => exact parent_under plain base

structure Reached (t : FileTree) (base : Path) : Prop where
  clean : '\x00' ∉ base.text.toList
  walked : t.walk [] (way base.text.toList) = .ok (placeOf base)
  standing : t.entry? (placeOf base) = some .directory

theorem joined_clean {base name text : List Char} (joined : Joined base name text)
    (clean : '\x00' ∉ base) : '\x00' ∈ text ↔ '\x00' ∈ name := by
  cases joined with
  | alone empty => exact Iff.rfl
  | own_slash front slashed =>
    rw [slashed, List.mem_append, not_or] at clean
    simp [clean.1]
  | new_slash some_text => simp [clean]

/-- What a plain name in a directory is to every tree that has the directory. -/
def childSlot (base : Path) (name : String) : Except IoError Slot :=
  if Text.contains name '\x00' then .error .nulInPath
  else if maxNameBytes < name.utf8ByteSize then .error .nameTooLong
  else .ok (.named (name :: placeOf base) false)

theorem childSlot_cases (base : Path) (name : String) :
    (∃ e, childSlot base name = .error e ∧ e ≠ .notFound) ∨
      childSlot base name = .ok (.named (name :: placeOf base) false) := by
  unfold childSlot
  split
  · exact .inl ⟨_, rfl, by simp⟩
  · split
    · exact .inl ⟨_, rfl, by simp⟩
    · exact .inr rfl

/-- How the removal of what a plain name in a directory may stand for goes. -/
inductive Clearing (t : FileTree) (base : Path) (name : String) : Except IoError FileTree → Prop where
  | refused (e : IoError) (slot : childSlot base name = .error e) : Clearing t base name (.error e)
  | directory (slot : childSlot base name = .ok (.named (name :: placeOf base) false))
      (there : t.entry? (name :: placeOf base) = some .directory) :
      Clearing t base name (.error .isDirectory)
  | cleared (u : FileTree) (slot : childSlot base name = .ok (.named (name :: placeOf base) false))
      (other : t.entry? (name :: placeOf base) ≠ some .directory)
      (gone : u.entry? (name :: placeOf base) = none)
      (same : ∀ loc, loc ≠ name :: placeOf base → u.entry? loc = t.entry? loc) :
      Clearing t base name (.ok u)

theorem child_trail (base : Path) (plain : Plain name.toList) :
    trail (base.join ⟨name⟩) = trailFrom [] (way base.text.toList ++ [.name name]) := by
  have hops := way_join base plain
  unfold way at hops
  simp only [trail, hopsOf, join_ends_plain base plain, hops, Bool.false_and]
  rfl

theorem trail_from_last (loc : Location) (hops : List Hop) (hop : Hop) :
    ∀ l ∈ trailFrom loc (hops ++ [hop]), l ∈ trailFrom loc hops ∨ l = hop.next (follow loc hops) := by
  induction hops generalizing loc with
  | nil =>
    intro l mem
    rcases List.mem_cons.mp mem with rfl | last
    · exact .inl List.mem_cons_self
    · exact .inr (List.mem_singleton.mp last)
  | cons first hops ih =>
    intro l mem
    rcases List.mem_cons.mp mem with rfl | later
    · exact .inl List.mem_cons_self
    · exact (ih _ l later).imp_left (List.mem_cons_of_mem _)

theorem child_trail_iff (base : Path) (plain : Plain name.toList) {l : Location} :
    l ∈ trail (base.join ⟨name⟩) ↔
      l ∈ trailFrom [] (way base.text.toList) ∨ l = name :: placeOf base := by
  rw [child_trail base plain, place_way]
  constructor
  · exact trail_from_last [] _ _ l
  · rintro (front | rfl)
    · exact trail_from_front [] _ _ l front
    · exact trail_from_append [] _ [.name name] _ (List.mem_cons_of_mem _ (trail_from_start _ []))

namespace Reached

theorem of_directory (there : t.isDirectory base = true) : Reached t base := by
  obtain ⟨located, standing⟩ := directory_place there
  simp only [locate] at located
  split at located
  · simp at located
  · split at located
    · simp at located
    · rename_i clean
      refine ⟨by simpa [Text.contains] using clean, ?_, standing⟩
      have ending : ∃ rest, hopsOf base.text.toList = way base.text.toList ++ rest := by
        simp only [hopsOf, way]
        split
        · exact ⟨_, rfl⟩
        · exact ⟨[], (List.append_nil _).symm⟩
      obtain ⟨rest, hops⟩ := ending
      rw [hops, walk_append] at located
      cases arrived : t.walk [] (way base.text.toList) with
      | error e => simp [arrived, Except.bind] at located
      | ok dest => rw [(walk_passes arrived).1, place_way]

theorem passed (reached : Reached t base) :
    ∀ l ∈ trailFrom [] (way base.text.toList), t.entry? l = some .directory := by
  intro l mem
  rcases (walk_passes reached.walked).2 l mem with rfl | passed
  · exact reached.standing
  · exact passed

theorem along (reached : Reached t base)
    (kept : ∀ l ∈ trailFrom [] (way base.text.toList), u.entry? l = some .directory) :
    Reached u base := by
  have same : ∀ l ∈ trailFrom [] (way base.text.toList), u.entry? l = t.entry? l :=
    fun l mem => (kept l mem).trans (reached.passed l mem).symm
  refine ⟨reached.clean, (walk_congr same).trans reached.walked, kept _ ?_⟩
  rw [place_way]
  exact follow_mem_trail [] _

theorem child_slot (reached : Reached t base) (plain : Plain name.toList) :
    t.slot (base.join ⟨name⟩) = childSlot base name := by
  have some_text : (base.join ⟨name⟩).text ≠ "" := by
    intro empty
    have hops := way_join base plain
    rw [empty] at hops
    simp [way_nil] at hops
  have nul : Text.contains (base.join ⟨name⟩).text '\x00' = Text.contains name '\x00' := by
    rw [Bool.eq_iff_iff]
    simpa [Text.contains] using joined_clean (join_plain base plain) reached.clean
  have target : Target.ofText (base.join ⟨name⟩).text.toList =
      some ⟨way base.text.toList, .name name, false⟩ := by
    have hops := way_join base plain
    unfold way at hops
    simp only [Target.ofText, hops, List.reverse_concat, List.reverse_reverse,
      join_ends_plain base plain]
    rfl
  unfold slot childSlot
  rw [if_neg some_text, nul, target]
  split
  · rfl
  · simp only [slotOf, reached.walked, step, reached.standing]
    by_cases long : maxNameBytes < name.utf8ByteSize
    · simp [long]
    · simp [long]

theorem child_read (here : Reached t base) (there : Reached u base) (plain : Plain name.toList)
    (same : (t.entry? (name :: placeOf base)).map Entry.read =
      (u.entry? (name :: placeOf base)).map Entry.read) :
    (t.open? (base.join ⟨name⟩)).map Entry.read = (u.open? (base.join ⟨name⟩)).map Entry.read := by
  have first := here.child_slot plain
  have second := there.child_slot plain
  rcases childSlot_cases base name with ⟨e, refused, _⟩ | named
  · rw [refused] at first second
    rw [open?, slot_lost first, open?, slot_lost second]
  · rw [named] at first second
    have led := (slot_named first).located
    have led_too := (slot_named second).located
    rw [if_neg Bool.false_ne_true] at led led_too
    simp only [open?, led, led_too]
    cases left : t.entry? (name :: placeOf base) with
    | none =>
      have right : u.entry? (name :: placeOf base) = none := by simpa [left] using same.symm
      rw [right]
    | some a =>
      obtain ⟨b, right, contents⟩ : ∃ b, u.entry? (name :: placeOf base) = some b ∧ b.read = a.read := by
        simpa [left] using same.symm
      rw [right]
      exact congrArg Except.ok contents.symm

theorem child_clearing (reached : Reached t base) (plain : Plain name.toList) :
    Clearing t base name (t.removeIfPresent (base.join ⟨name⟩)) := by
  have slot := reached.child_slot plain
  rcases childSlot_cases base name with ⟨e, refused, found⟩ | named
  · have result : t.removeIfPresent (base.join ⟨name⟩) = .error e := by
      rw [removeIfPresent, remove, slot, refused]
      cases e <;> first | rfl | exact absurd rfl found
    rw [result]
    exact .refused e refused
  · rw [named] at slot
    have below := (slot_named slot).not_top
    simp only [removeIfPresent, remove, slot]
    cases standing : t.entry? (name :: placeOf base) with
    | none => exact .cleared t named (by simp [standing]) standing fun loc apart => rfl
    | some e =>
      cases e with
      | directory => exact .directory named standing
      | file content executable =>
        exact .cleared (t.erase (name :: placeOf base)) named (by simp [standing])
          (entry_erase_self below) fun loc apart => entry_erase_other below apart

theorem child_parent (reached : Reached t base) (plain : Plain name.toList) :
    ∃ up, (base.join ⟨name⟩).parent = some up ∧ placeOf up = placeOf base ∧
      Reached t up := by
  obtain ⟨up, found, leads⟩ := parent_joined plain (join_plain base plain)
  obtain ⟨count, dots⟩ := leads.dots
  have text : (String.ofList up).toList = up := String.toList_ofList
  have place : placeOf ⟨String.ofList up⟩ = placeOf base := by
    rw [place_way, place_way, dots, follow_stays, text]
  refine ⟨⟨String.ofList up⟩, by rw [Path.parent, found, Option.map_some], place, ?_, ?_, ?_⟩
  · rw [text]
    intro nul
    rcases leads.letters _ nul with mem | slash
    · exact reached.clean mem
    · simp at slash
  · have walked := reached.walked
    rw [dots, walk_append] at walked
    rw [text, place]
    cases arrived : t.walk [] (way up) with
    | error e => simp [arrived, Except.bind] at walked
    | ok dest => rw [(walk_passes arrived).1, ← place, place_way, text]
  · rw [place]
    exact reached.standing

end Reached

theorem no_hop {piece : List Char} (none_there : Hop.ofPiece piece = none) : piece = [] := by
  unfold Hop.ofPiece at none_there
  split at none_there
  · assumption
  · split at none_there
    · simp at none_there
    · split at none_there <;> simp at none_there

theorem plain_of_hop {piece : List Char} (whole : '/' ∉ piece)
    (named : Hop.ofPiece piece = some (.name name)) : piece = name.toList ∧ Plain name.toList := by
  unfold Hop.ofPiece at named
  split at named
  · simp at named
  · rename_i some_text
    split at named
    · simp at named
    · rename_i not_dot
      split at named
      · simp at named
      · rename_i not_dots
        rw [← Hop.name.inj (Option.some.inj named), String.toList_ofList]
        exact ⟨rfl, whole, some_text, not_dot, not_dots⟩

theorem target_way {target : Target} (split : Target.ofText cs = some target) :
    way cs = target.before ++ [target.last] ∧ target.slash = endsWithSlash cs := by
  unfold Target.ofText at split
  split at split
  · simp at split
  · rename_i last before backwards
    obtain rfl := Option.some.inj split
    exact ⟨by rw [way, ← List.reverse_reverse (List.filterMap _ _), backwards, List.reverse_cons], rfl⟩

def slotAt (cs : List Char) (loc : Location) : Slot :=
  match (way cs).getLast? with
  | some (.name _) => .named loc (endsWithSlash cs)
  | _ => .reached

structure Sound (p : Path) : Prop where
  some_text : p.text ≠ ""
  clean : Text.contains p.text '\x00' = false

theorem sound_of_slot {p : Path} {s : Slot} (slot : t.slot p = .ok s) : Sound p := by
  unfold FileTree.slot at slot
  split at slot
  · simp at slot
  · rename_i some_text
    split at slot
    · simp at slot
    · rename_i clean
      exact ⟨some_text, by simpa using clean⟩

theorem slot_way {p : Path} (sound : Sound p) (t : FileTree) :
    t.slot p = (t.walk [] (way p.text.toList)).map (slotAt p.text.toList) := by
  rw [FileTree.slot, if_neg sound.some_text, sound.clean, if_neg Bool.false_ne_true]
  cases split : Target.ofText p.text.toList with
  | none =>
    have nothing : way p.text.toList = [] := by
      unfold Target.ofText at split
      split at split
      · rename_i backwards
        exact List.reverse_eq_nil_iff.mp backwards
      · simp at split
    simp [nothing, slotAt, walk, Except.map]
  | some target =>
    obtain ⟨hops, slash⟩ := target_way split
    show t.slotOf target = _
    unfold slotOf
    rw [hops, walk_append]
    cases t.walk [] target.before with
    | error e => rfl
    | ok dir =>
      simp only [Except.bind, walk]
      cases t.step dir target.last with
      | error e => rfl
      | ok next => cases kind : target.last <;> simp [Except.map, slotAt, hops, kind, slash]

theorem way_last {front last : List Char} (whole : '/' ∉ last)
    (ending : front = [] ∨ ∃ before, front = before ++ ['/']) :
    way (front ++ last) = way front ++ (Hop.ofPiece last).toList := by
  have alone : way last = (Hop.ofPiece last).toList := by
    rw [way, Text.splitAll_whole whole]
    cases hop : Hop.ofPiece last <;> simp [hop]
  rcases ending with rfl | ⟨before, rfl⟩
  · rw [List.nil_append, alone, way_nil, List.nil_append]
  · rw [way_end_slash, List.append_assoc, ← alone]
    exact way_append before last

theorem join_slashed {front last : List Char} (plain : Plain last)
    (ending : front = [] ∨ ∃ before, front = before ++ ['/']) :
    (Path.mk (String.ofList front)).join ⟨String.ofList last⟩ = ⟨String.ofList (front ++ last)⟩ := by
  have relative : isAbsolute ⟨String.ofList last⟩ = false :=
    plain_relative (by rwa [String.toList_ofList])
  unfold join
  rw [relative, if_neg Bool.false_ne_true]
  rcases ending with rfl | ⟨before, rfl⟩
  · rfl
  · have some_text : String.ofList (before ++ ['/']) ≠ "" := by
      intro empty
      have letters := congrArg String.toList empty
      simp at letters
    have slashed : endsWithSlash (String.ofList (before ++ ['/'])).toList = true := by
      simp [endsWithSlash]
    have joined : String.ofList (before ++ ['/'] ++ last) =
        String.ofList (before ++ ['/']) ++ String.ofList last := String.ofList_append
    rw [if_neg some_text, if_pos slashed, joined]

theorem slot_walked {p : Path} {loc : Location} {slash : Bool}
    (slot : t.slot p = .ok (.named loc slash)) :
    ∃ before name, way p.text.toList = before ++ [.name name] ∧
      t.walk [] (way p.text.toList) = .ok loc ∧ slash = endsWithSlash p.text.toList := by
  have sound := sound_of_slot slot
  rw [slot_way sound] at slot
  cases walked : t.walk [] (way p.text.toList) with
  | error e => simp [walked, Except.map] at slot
  | ok dest =>
    simp only [walked, Except.map, Except.ok.injEq, slotAt] at slot
    split at slot
    · rename_i name last
      obtain ⟨rfl, rfl⟩ := Slot.named.inj slot
      obtain ⟨before, hops⟩ := List.getLast?_eq_some_iff.mp last
      exact ⟨before, name, hops, rfl, rfl⟩
    · simp at slot

/-- A path that names a place, with no slash behind the name, is a plain name in a directory. -/
theorem named_child {p : Path} {loc : Location} (slot : t.slot p = .ok (.named loc false)) :
    ∃ (base : Path) (name : String), Plain name.toList ∧ p = base.join ⟨name⟩ ∧ Reached t base := by
  have sound := sound_of_slot slot
  obtain ⟨before, name, hops, walked, no_slash⟩ := slot_walked slot
  rw [hops, walk_append] at walked
  cases arrived : t.walk [] before with
  | error e => simp [arrived, Except.bind] at walked
  | ok dir =>
    simp only [arrived, Except.bind, walk] at walked
    cases stepped : t.step dir (.name name) with
    | error e => simp [stepped] at walked
    | ok next =>
      obtain ⟨front, last, text, whole, ending⟩ := Text.last_piece '/' p.text.toList
      rw [text, way_last whole ending] at hops
      cases hop : Hop.ofPiece last with
      | none =>
        rw [no_hop hop, List.append_nil] at text
        rcases ending with rfl | ⟨before, rfl⟩
        · simp [way_nil, hop] at hops
        · simp [text, endsWithSlash] at no_slash
      | some h =>
        rw [hop, Option.toList_some] at hops
        obtain ⟨front_way, same⟩ := List.append_inj' hops rfl
        obtain rfl := (List.cons.inj same).1
        obtain ⟨rfl, plain⟩ := plain_of_hop whole hop
        have letters : (String.ofList front).toList = front := String.toList_ofList
        have joined := join_slashed plain ending
        rw [← text, String.ofList_toList, String.ofList_toList] at joined
        refine ⟨⟨String.ofList front⟩, name, plain, joined.symm, ?_, ?_, ?_⟩
        · have clean : '\x00' ∉ p.text.toList := by simpa [Text.contains] using sound.clean
          rw [letters]
          intro nul
          exact clean (text ▸ List.mem_append_left _ nul)
        · rw [place_way, letters, front_way, arrived, (walk_passes arrived).1]
        · rw [place_way, letters, front_way, ← (walk_passes arrived).1]
          exact (step_inside stepped).1

end ReleaseMatrix.FileTree
