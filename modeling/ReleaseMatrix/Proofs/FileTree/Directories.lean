import ReleaseMatrix.Proofs.FileTree.Parent

/- Making nested directories once more: where it worked, nothing is left to do; where it failed, nothing
   more is made and it fails in the same way, unless the way goes up again before it comes to a file. -/
namespace ReleaseMatrix.FileTree

open ReleaseMatrix.Path

variable {t u made : FileTree} {p up : Path} {loc dest : Location} {hops : List Hop} {slash : Bool}
variable {e : IoError}

/-- Above a place that a walk from the top comes to there are directories only. -/
theorem walk_inside (ok : t.walk loc hops = .ok dest)
    (above : ∀ l, l <:+ loc → l ≠ loc → t.entry? l = some .directory) :
    ∀ l, l <:+ dest → l ≠ dest → t.entry? l = some .directory := by
  induction hops generalizing loc with
  | nil =>
    obtain rfl : loc = dest := Except.ok.inj ok
    exact above
  | cons hop rest ih =>
    simp only [walk] at ok
    cases first : t.step loc hop with
    | error e => simp [first] at ok
    | ok next =>
      obtain ⟨standing, rfl⟩ := step_inside first
      refine ih (by simpa [first] using ok) ?_
      intro l within other
      cases hop with
      | here => exact above l within other
      | up =>
        refine above l (within.trans (List.tail_suffix loc)) ?_
        rintro rfl
        exact other (List.IsSuffix.eq_of_length_le within (by simp [Hop.next]))
      | name s =>
        rcases List.suffix_cons_iff.mp within with rfl | inside
        · exact absurd rfl other
        · by_cases here : l = loc
          · rw [here, standing]
          · exact above l inside here

theorem located_way (sound : Sound p) (walked : t.walk [] (way p.text.toList) = .ok loc)
    (there : t.entry? loc = some .directory) : t.isDirectory p = true := by
  have ending : hopsOf p.text.toList = way p.text.toList ∨
      hopsOf p.text.toList = way p.text.toList ++ [.here] := by
    simp only [hopsOf, way]
    split
    · exact .inr rfl
    · exact .inl rfl
  have located : t.locate p = .ok loc := by
    rw [locate, if_neg sound.some_text, sound.clean, if_neg Bool.false_ne_true]
    rcases ending with same | more
    · rw [same, walked]
    · have stays : t.step loc .here = .ok loc := by simp [step, there]
      rw [more, walk_append, walked]
      simp only [Except.bind, walk, stays]
  simp only [isDirectory, open_of_located located there]

theorem reached_directory (slot : t.slot p = .ok .reached) : t.isDirectory p = true := by
  have sound := sound_of_slot slot
  rw [slot_way sound] at slot
  cases walked : t.walk [] (way p.text.toList) with
  | error e => simp [walked, Except.map] at slot
  | ok loc =>
    refine located_way sound walked ?_
    simp only [walked, Except.map, Except.ok.injEq, slotAt] at slot
    split at slot
    · simp at slot
    · rename_i other
      cases last : (way p.text.toList).getLast? with
      | none =>
        rw [List.getLast?_eq_none_iff.mp last] at walked
        obtain rfl : [] = loc := Except.ok.inj walked
        exact entry_top t
      | some hop =>
        obtain ⟨before, hops⟩ := List.getLast?_eq_some_iff.mp last
        rw [hops, walk_append] at walked
        cases arrived : t.walk [] before with
        | error e => simp [arrived, Except.bind] at walked
        | ok dir =>
          simp only [arrived, Except.bind, walk] at walked
          cases stepped : t.step dir hop with
          | error e => simp [stepped] at walked
          | ok next =>
            obtain rfl : next = loc := by simpa [stepped] using walked
            obtain ⟨standing, rfl⟩ := step_inside stepped
            cases hop with
            | name s => exact absurd last (other s)
            | here => exact standing
            | up =>
              by_cases same : dir.tail = dir
              · rw [Hop.next, same, standing]
              · refine walk_inside arrived ?_ dir.tail (List.tail_suffix dir) same
                intro l within apart
                exact absurd (List.suffix_nil.mp within) apart

/-- Whatever comes after the hops, the walk stops with an error before it. -/
def Stops (t : FileTree) (hops : List Hop) (e : IoError) : Prop :=
  ∀ hop rest, t.walk [] (hops ++ hop :: rest) = .error e

theorem Stops.beyond {more : List Hop} (stops : Stops t hops e) (some_hop : more ≠ []) :
    t.walk [] (hops ++ more) = .error e := by
  obtain ⟨hop, rest, rfl⟩ := List.exists_cons_of_ne_nil some_hop
  exact stops hop rest

theorem Stops.longer {more : List Hop} (stops : Stops t hops e) : Stops t (hops ++ more) e := by
  intro hop rest
  rw [List.append_assoc]
  exact stops.beyond (by simp)

theorem slot_of_walk (sound : Sound p) (stopped : t.walk [] (way p.text.toList) = .error e) :
    t.slot p = .error e := by
  rw [slot_way sound, stopped]
  rfl

theorem stops_of_slot (sound : Sound p) (refused : t.slot p = .error e) :
    Stops t (way p.text.toList) e := by
  rw [slot_way sound] at refused
  intro hop rest
  rw [walk_append]
  cases walked : t.walk [] (way p.text.toList) with
  | error e' =>
    simp only [walked, Except.map, Except.error.injEq] at refused
    rw [refused]
    rfl
  | ok dest => simp [walked, Except.map] at refused

theorem ensure_refused (refused : t.slot p = .error e) : t.ensureDirectory p = .error e := by
  have nowhere : t.isDirectory p = false := by simp [isDirectory, open?, slot_lost refused]
  simp [ensureDirectory, makeDirectory, refused, nowhere]

theorem ensure_there (there : t.isDirectory p = true) : t.ensureDirectory p = .ok t := by
  unfold ensureDirectory
  split
  · rename_i made ok
    -- A directory is only made where nothing stood.
    unfold makeDirectory at ok
    split at ok
    · simp at ok
    · simp at ok
    · rename_i loc slash slot
      split at ok
      · simp at ok
      · rename_i free
        simp [isDirectory, (slot_named slot).missing free] at there
  · rw [if_pos there]

/-- Why a directory is not there and cannot be made: the way to it is refused, or a file is there. -/
theorem ensure_failed (failed : t.ensureDirectory p = .error e) : t.slot p = .error e ∨
    e = .alreadyExists ∧ ∃ loc slash content executable, t.slot p = .ok (.named loc slash) ∧
      t.entry? loc = some (.file content executable) := by
  have nowhere : t.isDirectory p = false := by
    cases there : t.isDirectory p with
    | false => rfl
    | true => simp [ensure_there there] at failed
  cases slot : t.slot p with
  | error e' =>
    rw [ensure_refused slot] at failed
    exact .inl (congrArg _ (Except.error.inj failed))
  | ok s =>
    cases s with
    | reached => simp [reached_directory slot] at nowhere
    | named loc slash =>
      simp only [ensureDirectory, makeDirectory, slot] at failed
      cases standing : t.entry? loc with
      | none => simp [standing] at failed
      | some entry =>
        cases entry with
        | file content executable =>
          simp only [standing, nowhere] at failed
          exact .inr ⟨(Except.error.inj failed).symm, loc, slash, content, executable, rfl, standing⟩
        | directory =>
          obtain ⟨_, _, _, walked, _⟩ := slot_walked slot
          simp [located_way (sound_of_slot slot) walked standing] at nowhere

def Rooted (t : FileTree) : Prop :=
  ∀ name dir e, t.entry? (name :: dir) = some e → t.entry? dir = some .directory

/-- How making the same directories again may fail: in the same way, or by a file where there was to be
    a directory before, and now is one on the way. -/
def FailsAgain (t : FileTree) (p : Path) (e later : IoError) : Prop :=
  later = e ∨ e = .alreadyExists ∧ later = .notDirectory ∧
    (Rooted t → .up ∈ way p.text.toList)

theorem FailsAgain.below {later : IoError} (fails : FailsAgain t up e later)
    (longer : way p.text.toList = way up.text.toList ++ hops) : FailsAgain t p e later := by
  rcases fails with same | ⟨first, second, rooted⟩
  · exact .inl same
  · refine .inr ⟨first, second, fun well => ?_⟩
    rw [longer]
    exact List.mem_append_left _ (rooted well)

theorem rooted_above (rooted : Rooted t) {entry : Entry} (there : t.entry? loc = some entry) :
    ∀ l, l <:+ loc → l ≠ loc → t.entry? l = some .directory := by
  induction loc generalizing entry with
  | nil =>
    intro l within other
    exact absurd (List.suffix_nil.mp within) other
  | cons name dir ih =>
    have standing := rooted name dir entry there
    intro l within other
    rcases List.suffix_cons_iff.mp within with rfl | inside
    · exact absurd rfl other
    · by_cases here : l = dir
      · rw [here, standing]
      · exact ih standing l inside here

/-- Without steps up, a way only comes by what lies above its end. -/
theorem trail_above (level : .up ∉ hops) : ∀ l ∈ trailFrom loc hops, l <:+ follow loc hops := by
  have ends : ∀ (loc : Location) (hops : List Hop), .up ∉ hops → loc <:+ follow loc hops := by
    intro loc hops level
    induction hops generalizing loc with
    | nil => exact List.suffix_refl loc
    | cons hop rest ih =>
      obtain ⟨first, later⟩ := List.ne_and_not_mem_of_not_mem_cons level
      refine .trans ?_ (ih (hop.next loc) later)
      cases hop with
      | here => exact List.suffix_refl loc
      | up => exact absurd rfl first
      | name s => exact List.suffix_cons s loc
  induction hops generalizing loc with
  | nil =>
    intro l mem
    rw [List.mem_singleton.mp mem]
    exact List.suffix_refl loc
  | cons hop rest ih =>
    intro l mem
    rcases List.mem_cons.mp mem with rfl | more
    · exact ends l (hop :: rest) level
    · exact ih (List.ne_and_not_mem_of_not_mem_cons level).2 l more

/-- A file that is in the way once directories were made was so before, or the way went up to it. -/
theorem file_before (adds : AddsDirectories t made) (rooted : Rooted t)
    (level : .up ∉ way p.text.toList) {content : Bytes} {executable : Bool}
    (slot : made.slot p = .ok (.named loc slash))
    (file : made.entry? loc = some (.file content executable)) :
    t.ensureDirectory p = .error .alreadyExists := by
  obtain ⟨before, name, hops, walked, _⟩ := slot_walked slot
  obtain ⟨arrived, _⟩ := walk_passes walked
  have file_too : t.entry? loc = some (.file content executable) := by
    rcases adds loc with same | ⟨_, directory⟩
    · rw [← same, file]
    · simp [file] at directory
  have alike : ∀ l ∈ trailFrom [] (way p.text.toList), t.entry? l = made.entry? l := by
    intro l mem
    by_cases last : l = loc
    · rw [last, file, file_too]
    · have above := rooted_above rooted file_too l (arrived ▸ trail_above level l mem) last
      rw [above, adds.keeps l above]
  have slot_too : t.slot p = .ok (.named loc slash) := by
    have sound := sound_of_slot slot
    rw [slot_way sound, walk_congr alike, ← slot_way sound, slot]
  have nowhere : t.isDirectory p = false := by
    cases there : t.isDirectory p with
    | false => rfl
    | true =>
      obtain ⟨_, standing⟩ := directory_place there
      rw [place_way, ← arrived, file_too] at standing
      simp at standing
  simp [ensureDirectory, makeDirectory, slot_too, file_too, nowhere]

theorem nested_there (there : t.isDirectory p = true) (parents : List Path) :
    t.ensureNested (p :: parents) = (t, none) := by
  simp only [ensureNested, ensure_there there]

theorem nested_refused {paths : List Path} (refused : t.ensureDirectory p = .error e)
    (other : e ≠ .notFound) : t.ensureNested (p :: paths) = (t, some e) := by
  rw [ensureNested, refused]
  cases e <;> first | exact absurd rfl other | rfl

theorem ancestors_step (fuel : Nat) (p : Path) : ancestorsFuel (fuel + 1) p = match p.parent with
    | none => [p]
    | some up => p :: ancestorsFuel fuel up := rfl

theorem ancestors_front (fuel : Nat) (p : Path) : ∃ rest, ancestorsFuel fuel p = p :: rest := by
  cases fuel with
  | zero => exact ⟨[], rfl⟩
  | succ fuel =>
    rw [ancestors_step]
    cases p.parent with
    | none => exact ⟨[], rfl⟩
    | some up => exact ⟨_, rfl⟩

/-- How a failure to make nested directories looks from the tree that it left: unless nothing was made,
    every way through the path stops, and making the directories again fails with what stops it or as
    before. -/
structure Blocked (t made : FileTree) (p : Path) (paths : List Path) (e : IoError) : Prop where
  stopped : ∃ stop, Stops made (way p.text.toList) stop ∧ FailsAgain t p e stop
  again : ∃ later, made.ensureNested paths = (made, some later) ∧ FailsAgain t p e later

theorem sound_of_missing (missing : t.ensureDirectory p = .error .notFound)
    (above : p.parent = some up) : Sound p := by
  have some_text : p.text ≠ "" := by
    intro empty
    rw [Path.parent, empty] at above
    simp [parentText, splitLead, bodyParent, dropEmptyEnds] at above
  refine ⟨some_text, ?_⟩
  cases nul : Text.contains p.text '\x00' with
  | false => rfl
  | true =>
    have refused : t.slot p = .error .nulInPath := by
      rw [FileTree.slot, if_neg some_text, nul, if_pos rfl]
    rw [ensure_refused refused] at missing
    simp at missing

theorem blocked_here {paths : List Path} (adds : AddsDirectories t made) (sound : Sound p)
    (missing : t.ensureDirectory p = .error .notFound)
    (nested : made.ensureNested paths = (made, none)) (failed : made.ensureDirectory p = .error e) :
    Blocked t made p (p :: paths) e := by
  have same : made.ensureNested (p :: paths) = (made, some e) := by
    by_cases missing_too : e = .notFound
    · rw [missing_too] at failed ⊢
      simp only [ensureNested, failed, nested]
    · exact nested_refused failed missing_too
  refine ⟨?_, e, same, .inl rfl⟩
  rcases ensure_failed failed with refused | ⟨rfl, loc, slash, content, executable, slot, file⟩
  · exact ⟨e, stops_of_slot sound refused, .inl rfl⟩
  · refine ⟨.notDirectory, ?_, .inr ⟨rfl, rfl, fun rooted => ?_⟩⟩
    · obtain ⟨_, _, _, walked, _⟩ := slot_walked slot
      intro hop rest
      have stuck : made.step loc hop = .error .notDirectory := by simp [step, file]
      rw [walk_append, walked]
      simp only [Except.bind, walk, stuck]
    · by_contra level
      rw [file_before adds rooted level slot file] at missing
      simp at missing

theorem Blocked.below {paths : List Path} (blocked : Blocked t made up paths e) (sound : Sound p)
    (above : p.parent = some up) : Blocked t made p (p :: paths) e := by
  obtain ⟨hops, some_hop, longer⟩ := (parent_above above).hops
  obtain ⟨stop, stops, fails⟩ := blocked.stopped
  obtain ⟨later, again, fails_later⟩ := blocked.again
  have refused : made.ensureDirectory p = .error stop :=
    ensure_refused (slot_of_walk sound (longer ▸ stops.beyond some_hop))
  refine ⟨⟨stop, longer ▸ stops.longer, fails.below longer⟩, ?_⟩
  by_cases missing : stop = .notFound
  · refine ⟨later, ?_, fails_later.below longer⟩
    simp only [ensureNested, refused, missing, again]
  · exact ⟨stop, nested_refused refused missing, fails.below longer⟩

theorem nested_failed {paths : List Path} (failed : t.ensureNested (p :: paths) = (made, some e)) :
    made = t ∨ t.ensureDirectory p = .error .notFound ∧
      (t.ensureNested paths = (made, some e) ∨
        t.ensureNested paths = (made, none) ∧ made.ensureDirectory p = .error e) := by
  simp only [ensureNested] at failed
  split at failed
  · simp at failed
  · rename_i missing
    refine .inr ⟨missing, ?_⟩
    split at failed
    · rename_i stopped
      rw [stopped, failed]
      exact .inl rfl
    · rename_i mid reached
      split at failed
      · simp at failed
      · rename_i last
        obtain ⟨rfl, same⟩ := Prod.mk.inj failed
        obtain rfl := Option.some.inj same
        exact .inr ⟨reached, last⟩
  · exact .inl (Prod.mk.inj failed).1.symm

theorem nested_alone (failed : t.ensureNested [p] = (made, some e)) : made = t := by
  rcases nested_failed failed with same | ⟨_, above | ⟨nothing, _⟩⟩
  · exact same
  · exact (Prod.mk.inj above).1.symm
  · simp [ensureNested] at nothing

theorem nested_blocked (fuel : Nat) (failed : t.ensureNested (ancestorsFuel fuel p) = (made, some e)) :
    made = t ∨ Blocked t made p (ancestorsFuel fuel p) e := by
  induction fuel generalizing p e made with
  | zero => exact .inl (nested_alone failed)
  | succ fuel ih =>
    rw [ancestors_step] at failed ⊢
    cases above : p.parent with
    | none =>
      simp only [above] at failed
      exact .inl (nested_alone failed)
    | some up =>
      simp only [above] at failed ⊢
      rcases nested_failed failed with same | ⟨missing, higher | ⟨nested, here⟩⟩
      · exact .inl same
      · refine (ih higher).imp_right fun blocked => ?_
        exact blocked.below (sound_of_missing missing above) above
      · have adds := nested_adds t (ancestorsFuel fuel up)
        rw [nested] at adds
        obtain ⟨rest, front⟩ := ancestors_front fuel up
        have there : (t.ensureNested (up :: rest)).1.isDirectory up = true :=
          nested_directory (by rw [← front, nested])
        rw [← front, nested] at there
        have nested_again : made.ensureNested (ancestorsFuel fuel up) = (made, none) := by
          rw [front]
          exact nested_there there rest
        exact .inr (blocked_here adds (sound_of_missing missing above) missing nested_again here)

theorem directories_there (there : t.isDirectory p = true) : t.makeDirectories p = (t, none) := by
  obtain ⟨rest, front⟩ := ancestors_front p.text.length p
  rw [makeDirectories, ancestors, front]
  exact nested_there there rest

theorem directories_still (there : t.isDirectory p = true) (reached : Reached u p) :
    u.makeDirectories p = (u, none) := by
  have some_text : p.text ≠ "" := by
    intro empty
    simp [isDirectory, open?, locate, empty] at there
  have clean : Text.contains p.text '\x00' = false := by
    simpa [Text.contains] using reached.clean
  exact directories_there (located_way ⟨some_text, clean⟩ reached.walked reached.standing)

/-- Directories that could not be made cannot be made from what was left, and no more is made. -/
theorem directories_again (failed : t.makeDirectories p = (made, some e)) :
    ∃ later, made.makeDirectories p = (made, some later) ∧ FailsAgain t p e later := by
  rcases nested_blocked p.text.length failed with rfl | blocked
  · exact ⟨e, failed, .inl rfl⟩
  · exact blocked.again

end ReleaseMatrix.FileTree
