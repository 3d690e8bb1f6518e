import ReleaseMatrix.Build.CommandGenerator
import ReleaseMatrix.Proofs.FileTree.Edits
import ReleaseMatrix.Proofs.Release.Scripted

/- What a generator does about its output, as the layout alone decides: done again where it has been done,
   it changes nothing and has the same result. A scripted generator is one like this, and so is a command
   that writes the same whatever it finds. -/
namespace ReleaseMatrix

open FileTree ReleaseMatrix.Path

/-- What a generator does about its output: it may clear the place first, and may then write a file.
    Either may be refused. -/
structure Deed where
  clears : Bool
  content : Option Bytes
  uncleared : IoError → BuildError
  unwritten : IoError → BuildError
  result : Except BuildError Path

namespace Deed

def fill (d : Deed) (t : FileTree) (target : Path) : ToolRun :=
  match d.content with
  | none => (t, d.result)
  | some content =>
    match t.write target content with
    | .error e => (t, .error (d.unwritten e))
    | .ok written => (written, d.result)

def perform (d : Deed) (t : FileTree) (target : Path) : ToolRun :=
  if d.clears then
    match t.removeIfPresent target with
    | .error e => (t, .error (d.uncleared e))
    | .ok cleared => d.fill cleared target
  else d.fill t target

def leaves (d : Deed) (t : FileTree) (place : Location) : Option Entry :=
  d.content.map fun content => .file content (!d.clears && t.modeAt place)

def course (d : Deed) (t : FileTree) (base : Path) (name : String) : ToolRun :=
  if d.clears = false ∧ d.content = none then (t, d.result)
  else match t.roomFor base name with
    | .error e => (t, .error (if d.clears then d.uncleared e else d.unwritten e))
    | .ok place => (t.edit (place, d.leaves t place), d.result)

variable {d : Deed} {t u : FileTree} {base : Path} {name : String}

theorem fill_child (reached : Reached t base) (plain : Plain name.toList) {content : Bytes}
    (some_content : d.content = some content) :
    d.fill t (base.join ⟨name⟩) = match t.roomFor base name with
      | .error e => (t, .error (d.unwritten e))
      | .ok place => (t.put place (.file content (t.modeAt place)), d.result) := by
  simp only [fill, some_content, reached.child_write plain]
  cases t.roomFor base name with
  | error e => rfl
  | ok place => rfl

theorem perform_child (reached : Reached t base) (plain : Plain name.toList) :
    d.perform t (base.join ⟨name⟩) = d.course t base name := by
  cases keeps : d.clears with
  | false =>
    cases written : d.content with
    | none => simp [perform, course, keeps, written, fill]
    | some content =>
      simp only [perform, course, keeps, written, fill_child reached plain written, leaves]
      cases t.roomFor base name <;> simp [edit]
  | true =>
    have erased := reached.child_remove plain
    cases room : t.roomFor base name with
    | error e =>
      simp [perform, course, keeps, erased, room, Except.map]
    | ok place =>
      obtain ⟨here, other, _⟩ := roomFor_place room
      have below : place ≠ [] := by simp [here]
      have gone : entry? (t.erase place) place = none := entry_erase_self below
      have reached_too : Reached (t.erase place) base :=
        reached.along fun l mem => KeepsDirectories.erase below other l (reached.passed l mem)
      have room_too : (t.erase place).roomFor base name = .ok place := by
        rw [← room]
        apply roomFor_congr
        rw [← here]
        simp [gone, other]
      simp only [perform, course, keeps, erased, room, Except.map, leaves]
      cases written : d.content with
      | none => simp [fill, written, edit]
      | some content =>
        rw [if_pos trivial, fill_child reached_too plain written, room_too]
        simp [edit, modeAt, gone, put_erase]

theorem course_keeps (d : Deed) (t : FileTree) (base : Path) (name : String) :
    KeepsDirectories t (d.course t base name).1 := by
  unfold course
  split
  · exact .refl t
  · split
    · exact .refl t
    · rename_i place room
      obtain ⟨here, other, _⟩ := roomFor_place room
      have below : place ≠ [] := by simp [here]
      cases d.leaves t place with
      | none => exact .erase below other
      | some e => exact .put below other

/-- A deed on a tree with what the deed leaves changes nothing and has the same result. -/
theorem course_again (d : Deed) (t : FileTree) (base : Path) (name : String)
    (left : u.entry? (name :: placeOf base) =
      entry? (d.course t base name).1 (name :: placeOf base)) :
    d.course u base name = (u, (d.course t base name).2) := by
  unfold course at left ⊢
  split
  · rfl
  · rename_i acts
    rw [if_neg acts] at left
    cases room : t.roomFor base name with
    | error e =>
      simp only [room] at left
      have room_too : u.roomFor base name = .error e := by
        rw [← room]
        exact roomFor_congr (by rw [left])
      simp only [room_too]
    | ok place =>
      obtain ⟨here, other, _⟩ := roomFor_place room
      have below : place ≠ [] := by simp [here]
      simp only [room, ← here, edited_entry below] at left
      have no_directory : d.leaves t place ≠ some .directory := by
        cases written : d.content <;> simp [leaves, written]
      have room_too : u.roomFor base name = .ok place := by
        rw [← room]
        apply roomFor_congr
        rw [← here, left]
        simp [no_directory, other]
      -- A file that was written over keeps its mode, so it has it the second time as well.
      have same : d.leaves u place = d.leaves t place := by
        cases written : d.content with
        | none => simp [leaves, written]
        | some content =>
          simp only [leaves, written, Option.map_some] at left ⊢
          cases keeps : d.clears <;> simp [keeps, modeAt, left]
      simp only [room_too, same, edit_standing below left]

end Deed

/-- A generator that only sets its output, or fails to, as the layout alone decides. -/
def Generator.Performs (g : Generator) (output : String) : Prop :=
  ∀ l : Layout, ∃ d : Deed, ∀ t, g.generate l t = d.perform t (l.outputFile ⟨output⟩)

theorem scripted_performs (script : Except BuildError Bytes) (output : String) :
    (scriptedGenerator script output).Performs output := by
  intro l
  cases script with
  | error e => exact ⟨⟨false, none, .io, .io, .error e⟩, fun t => rfl⟩
  | ok content => exact ⟨⟨false, some content, .io, .io, .ok (l.outputFile ⟨output⟩)⟩, fun t => rfl⟩

namespace CommandGenerator

variable {g : CommandGenerator} {h : Host} {l : Layout} {t cleared after : FileTree}

def SetsOutput (g : CommandGenerator) (h : Host) : Prop :=
  ∀ l : Layout, ∃ (content : Option Bytes) (fault : IoError → BuildError)
    (ended : Except BuildError Unit), ∀ t,
      runCommand h (g.invocation l) (g.commandLine l) t = match content with
        | none => (t, ended)
        | some bytes => match t.write (g.target l) bytes with
          | .error e => (t, .error (fault e))
          | .ok written => (written, ended)

def failure (g : CommandGenerator) (l : Layout) (e : BuildError) : BuildError :=
  .generationCaused ("`" ++ g.commandLine l ++ "` failed") e

def verdict (g : CommandGenerator) (l : Layout) (produced : Bool) :
    Except BuildError Unit → Except BuildError Path
  | .error e => .error (g.failure l e)
  | .ok () =>
    if produced then .ok (g.target l)
    else .error (.generation ("`" ++ g.commandLine l ++ "` did not produce " ++ (g.target l).text))

theorem generate_cleared {ended : Except BuildError Unit}
    (clear : t.removeIfPresent (g.target l) = .ok cleared)
    (ran : runCommand h (g.invocation l) (g.commandLine l) cleared = (after, ended)) :
    g.generate h l t = (after, g.verdict l (after.isFile (g.target l)) ended) := by
  cases ended with
  | error e => simp only [generate, clear, ran, verdict, failure]
  | ok done =>
    simp only [generate, clear, ran, verdict]
    split <;> rfl

theorem command_performs (sets : g.SetsOutput h) : (g.toGenerator h).Performs g.output := by
  intro l
  obtain ⟨content, fault, ended, runs⟩ := sets l
  refine ⟨⟨true, content, staleFault (g.target l), fun e => g.failure l (fault e),
    g.verdict l content.isSome ended⟩, fun t => ?_⟩
  show g.generate h l t = Deed.perform _ t (g.target l)
  cases clear : t.removeIfPresent (g.target l) with
  | error e => simp only [generate, clear, Deed.perform, if_true]
  | ok cleared =>
    have ran := runs cleared
    cases content with
    | none =>
      have nothing := not_file_of_missing (cleared_path clear).1
      simp only [generate_cleared clear ran, nothing, Deed.perform, clear, Deed.fill, if_true,
        Option.isSome_none]
    | some bytes =>
      cases wrote : cleared.write (g.target l) bytes with
      | error e =>
        simp only [wrote] at ran
        simp only [generate_cleared clear ran, verdict, Deed.perform, clear, Deed.fill, wrote, if_true]
      | ok written =>
        simp only [wrote] at ran
        simp only [generate_cleared clear ran, file_written wrote, Deed.perform, clear, Deed.fill,
          wrote, if_true, Option.isSome_some]

end CommandGenerator
end ReleaseMatrix
