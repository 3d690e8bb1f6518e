import ReleaseMatrix.Host.Basic
import ReleaseMatrix.Proofs.FileTree.Child
import ReleaseMatrix.Proofs.Variant.Environment

/- Which file a program is started from, and which one the check for a program finds. Each look-up goes
   over files in order; they differ in the directory that they start in and in what makes them give up. -/
namespace ReleaseMatrix

open FileTree ReleaseMatrix.Path

variable {t : FileTree} {p base file : Path} {files : List Path} {name searchPath : String}
variable {front last : List Char}

theorem hops_to_directory (text : p.text.toList = front ++ '/' :: last) (ends : last = [] ∨ last = ['.']) :
    hopsOf p.text.toList = [] ∨ ∃ hops, hopsOf p.text.toList = hops ++ [.here] := by
  have same : (Text.splitAll '/' p.text.toList).filterMap Hop.ofPiece = way front ++ way last := by
    rw [text]
    exact way_append front last
  simp only [hopsOf, same]
  rcases ends with rfl | rfl
  · have slashed : endsWithSlash p.text.toList = true := by simp [endsWithSlash, text]
    rw [slashed, way_nil, List.append_nil, Bool.true_and]
    cases hops : way front with
    | nil => exact .inl rfl
    | cons hop rest => exact .inr ⟨hop :: rest, rfl⟩
  · have slashless : endsWithSlash p.text.toList = false := by simp [endsWithSlash, text]
    rw [slashless]
    exact .inr ⟨way front, rfl⟩

theorem not_executable (text : p.text.toList = front ++ '/' :: last) (ends : last = [] ∨ last = ['.']) :
    t.isExecutable p = false := by
  unfold isExecutable open? locate
  split
  · rename_i content executable opened
    split at opened
    · cases opened
    · rename_i loc located
      have standing : t.entry? loc = some .directory := by
        split at located
        · cases located
        · split at located
          · cases located
          · rcases hops_to_directory text ends with none | ⟨hops, some_hop⟩
            · rw [none] at located
              cases located
              rfl
            · rw [some_hop, walk_append] at located
              cases arrived : t.walk [] hops with
              | error e => simp [arrived, Except.bind] at located
              | ok mid =>
                simp only [arrived, Except.bind, walk] at located
                split at located
                · cases located
                · rename_i next stepped
                  obtain ⟨inside, rfl⟩ := step_inside stepped
                  obtain rfl := Except.ok.inj located
                  exact inside
      simp [standing] at opened
  · rfl

theorem join_ends (base : Path) (text : p.text.toList = front ++ '/' :: last) :
    ∃ before, (base.join p).text.toList = before ++ '/' :: last := by
  cases absolute : p.isAbsolute with
  | true => exact ⟨front, by rw [join, if_pos absolute, text]⟩
  | false =>
    obtain ⟨lead, joined⟩ := join_front base
    refine ⟨lead.toList ++ front, ?_⟩
    rw [joined p absolute, String.toList_append, text, List.append_assoc]

theorem empty_not_executable (base : Path) : t.isExecutable (base.join ⟨""⟩) = false := by
  have joined := join_relative base (p := ⟨""⟩) rfl
  generalize joining : base.join ⟨""⟩ = whole at joined
  generalize text : whole.text.toList = cs at joined
  cases joined with
  | alone empty =>
    have no_text : whole.text = "" := String.toList_eq_nil_iff.mp text
    simp [isExecutable, open?, locate, no_text]
  | own_slash front slashed => exact not_executable text (.inl rfl)
  | new_slash some_text => exact not_executable text (.inl rfl)

namespace Host

variable {h : Host}

theorem executable_iff : t.isExecutable file = true ↔ refusal? t file = none := by
  unfold isExecutable refusal?
  cases t.open? file with
  | error e => simp
  | ok e =>
    cases e with
    | directory => simp
    | file content executable => cases executable <;> simp

theorem visible_component {piece : List Char} (not_empty : piece ≠ []) (not_dot : piece ≠ ['.']) :
    ∃ c, Component.ofPiece piece = some c := by
  unfold Component.ofPiece
  rw [if_neg (not_or.mpr ⟨not_empty, not_dot⟩)]
  split <;> exact ⟨_, rfl⟩

theorem single_ends (slash : hasSlash name = true) (single : (Path.mk name).components.length ≤ 1) :
    ∃ front last, name.toList = front ++ '/' :: last ∧ (last = [] ∨ last = ['.']) := by
  have mem : '/' ∈ name.toList := by simpa [hasSlash, Text.contains] using slash
  obtain ⟨start, last, text, whole, ending⟩ := Text.last_piece '/' name.toList
  rcases ending with rfl | ⟨front, rfl⟩
  · rw [text, List.nil_append] at mem
    exact absurd mem whole
  · rw [List.append_assoc] at text
    refine ⟨front, last, text, ?_⟩
    by_contra visible
    rw [not_or] at visible
    -- The last piece is a component then, and the first one is another.
    have few : (componentsOf (front ++ '/' :: last)).length ≤ 1 := by
      rw [← List.singleton_append, ← text]
      exact single
    rw [componentsOf_pieces, Text.splitAll_append, Text.splitAll_whole whole, List.filterMap_append] at few
    obtain ⟨c, own⟩ := visible_component visible.1 visible.2
    cases pieces : Text.splitAll '/' front with
    | nil => exact Text.splitAll_ne_nil '/' front pieces
    | cons first rest =>
      rw [pieces] at few
      by_cases empty : first = []
      · simp [lead, empty, own] at few
      · by_cases dot : first = ['.']
        · simp [lead, dot, own] at few
        · obtain ⟨d, other⟩ := visible_component empty dot
          simp only [List.length_append, List.filterMap_cons_some other, List.filterMap_cons_some own,
            List.length_cons] at few
          omega

inductive Installed (h : Host) (name : String) (file : Path) : Prop where
  | seen (slash : hasSlash name = true) (place : file = h.directory.join ⟨name⟩)
  | named (slashless : hasSlash name = false) (some_text : name ≠ "")

theorem slash_of_components (many : 1 < (Path.mk name).components.length) : hasSlash name = true := by
  by_contra slashless
  have whole : '/' ∉ name.toList := by simpa [hasSlash, Text.contains] using slashless
  unfold components at many
  rw [componentsOf_pieces, Text.splitAll_whole whole] at many
  by_cases empty : name.toList = []
  · simp [lead, Component.ofPiece, empty] at many
  · by_cases dot : name.toList = ['.']
    · simp [lead, Component.ofPiece, dot] at many
    · obtain ⟨c, own⟩ := visible_component empty dot
      simp [lead, empty, dot, own] at many

theorem installed_as (found : h.installed? t name = some file) : Installed h name file := by
  unfold installed? installedFiles at found
  split at found
  · rename_i many
    obtain rfl := List.mem_singleton.mp (List.mem_of_find?_eq_some found)
    exact .seen (slash_of_components many) rfl
  · rename_i single
    split at found
    · cases found
    · have executable := List.find?_some found
      obtain ⟨dir, _, rfl⟩ := List.mem_map.mp (List.mem_of_find?_eq_some found)
      refine .named ?_ ?_
      · by_contra slash
        rw [Bool.not_eq_false] at slash
        obtain ⟨front, last, text, ends⟩ := single_ends slash (Nat.le_of_not_lt single)
        obtain ⟨before, joined⟩ := join_ends dir text
        exact Bool.false_ne_true ((not_executable joined ends).symm.trans executable)
      · rintro rfl
        exact Bool.false_ne_true ((empty_not_executable dir).symm.trans executable)

theorem installed_place (slash : hasSlash name = true) (found : h.installed? t name = some file) :
    file = h.directory.join ⟨name⟩ := by
  cases installed_as found with
  | seen _ place => exact place
  | named slashless => cases slash.symm.trans slashless

theorem installed_nonempty (slashless : hasSlash name = false) (found : h.installed? t name = some file) :
    name ≠ "" := by
  cases installed_as found with
  | seen slash => cases slash.symm.trans slashless
  | named _ some_text => exact some_text

def entryFile (name : String) (entry : List Char) : Path := (Path.mk (String.ofList entry)).join ⟨name⟩

theorem searched_files {front back : List (List Char)} {entry : List Char} (dir : Path) (name : String)
    (cut : Text.splitAll ':' searchPath.toList = front ++ entry :: back)
    (absolute : ∀ piece ∈ front ++ [entry], isAbsoluteText piece = true) :
    ∃ others, ((searchDirectories dir searchPath).map fun dir => dir.join ⟨name⟩) =
      front.map (entryFile name) ++ entryFile name entry :: others := by
  have own : ∀ piece ∈ front ++ [entry], dir.join ⟨String.ofList piece⟩ = ⟨String.ofList piece⟩ := by
    intro piece mem
    have whole : isAbsolute ⟨String.ofList piece⟩ = true := by
      rw [isAbsolute, String.toList_ofList]
      exact absolute piece mem
    rw [join, if_pos whole]
  refine ⟨back.map fun piece => (dir.join ⟨String.ofList piece⟩).join ⟨name⟩, ?_⟩
  rw [searchDirectories, cut, List.map_map, List.map_append, List.map_cons]
  congr 1
  · refine List.map_congr_left fun piece mem => ?_
    rw [Function.comp_apply, own piece (List.mem_append_left _ mem), entryFile]
  · rw [Function.comp_apply, own entry (List.mem_append_right _ List.mem_cons_self), entryFile]
    rfl

/-- The file that is started: the first that is not refused, unless a refusal in front ends the search. -/
def first? (t : FileTree) : List Path → Option Path
  | [] => none
  | file :: rest =>
    match refusal? t file with
    | none => some file
    | some e => if passesOver e then first? t rest else none

theorem first_found {looked others : List Path}
    (found : (files ++ file :: looked).find? t.isExecutable = some file)
    (passes : ∀ f ∈ files, ∀ e, refusal? t f = some e → passesOver e = true) :
    first? t (files ++ file :: others) = some file := by
  induction files with
  | nil =>
    have executable := List.find?_some found
    rw [List.nil_append, first?, executable_iff.mp executable]
  | cons f rest ih =>
    obtain ⟨here, later⟩ := List.forall_mem_cons.mp passes
    rw [List.cons_append, List.find?_cons] at found
    rw [List.cons_append, first?]
    cases refused : refusal? t f with
    | none =>
      rw [executable_iff.mpr refused] at found
      exact found
    | some e =>
      have not_executable : t.isExecutable f = false := by
        rw [← Bool.not_eq_true, executable_iff, refused]
        simp
      rw [not_executable] at found
      dsimp only
      rw [if_pos (here e refused)]
      exact ih found later

theorem start_first {start : Path → ProcessRun} (first : first? t files = some file)
    (ran : ∀ e, (start file).2 = .error e → passesOver e = false) (denied : Bool) (fault : IoError) :
    startFirst t start denied fault files = start file := by
  induction files generalizing denied fault with
  | nil => cases first
  | cons f rest ih =>
    rw [first?] at first
    rw [startFirst]
    cases refused : refusal? t f with
    | none =>
      simp only [refused, Option.some.injEq] at first
      subst first
      dsimp only
      split
      · rfl
      · rename_i e failed
        rw [ran e failed]
        rfl
    | some e =>
      simp only [refused] at first
      split at first
      · rename_i passed
        dsimp only
        rw [if_pos passed]
        exact ih first _ _
      · cases first

def ownSearch (i : Invocation) : Bool :=
  !hasSlash i.program && i.overrides.any fun p => p.1 == pathVariable

def searchPathOf (h : Host) (i : Invocation) : String :=
  ((if ownSearch i then h.env.setAll i.overrides else h.env).get? pathVariable).getD defaultSearchPath

def startFiles (h : Host) (i : Invocation) : List Path :=
  programFiles i.directory (h.searchPathOf i) i.program

def runFile (h : Host) (i : Invocation) (t : FileTree) (file : Path) : ProcessRun :=
  (if ownSearch i then withShell h.execute else h.execute)
    ⟨file, i.program, i.args, h.env.setAll i.overrides, i.directory, []⟩ t

structure Ready (t : FileTree) (i : Invocation) : Prop where
  clean : Invocation.hasNul i = false
  there : t.isDirectory i.directory = true

variable {i : Invocation}

theorem spawn_files (ready : Ready t i) :
    h.spawn i t = startFirst t (h.runFile i t) false .notFound (h.startFiles i) := by
  have opened : t.open? i.directory = .ok .directory := by
    have there := ready.there
    unfold isDirectory at there
    split at there
    · assumption
    · cases there
  simp only [spawn, ready.clean, opened, Bool.false_eq_true, if_false]
  rfl

theorem search_path_kept (set : h.env.get? pathVariable = some searchPath)
    (kept : ∀ p ∈ i.overrides, p.1 = pathVariable → p.2 = searchPath) :
    h.searchPathOf i = searchPath := by
  unfold searchPathOf
  split
  · rw [Environment.get_setAll, set]
    cases last : lastValue i.overrides pathVariable with
    | none => rfl
    | some value =>
      obtain ⟨p, found, rfl⟩ := Option.map_eq_some_iff.mp last
      have named := List.find?_some found
      have mem := List.mem_reverse.mp (List.mem_of_find?_eq_some found)
      exact kept p mem (beq_iff_eq.mp named)
  · rw [set]
    rfl

end Host
end ReleaseMatrix
