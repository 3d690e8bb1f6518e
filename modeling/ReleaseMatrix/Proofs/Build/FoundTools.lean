import ReleaseMatrix.Proofs.Build.Commands
import ReleaseMatrix.Proofs.Build.OutputDirectory
import ReleaseMatrix.Proofs.Host.Lookup

/- Whether a tool that passed its check is the one that is run. The check looks from the current
   directory, and the tool is started in the output directory: an absolute path and most names mean the
   same from both, a relative path only where it goes up to a directory that the two share. -/
namespace ReleaseMatrix

open FileTree ReleaseMatrix.Path Host

variable {h : Host} {t u : FileTree} {i : Invocation} {found file : Path} {e : IoError}

/-- A start that runs a file: what comes of it is what running the file does, and the program is only
   reported as missing when the system does not run that file. -/
structure StartsFrom (h : Host) (t : FileTree) (i : Invocation) (file : Path) : Prop where
  runs : (∀ e, (h.runFile i t file).2 = .error e → passesOver e = false) →
    h.spawn i t = h.runFile i t file
  missing : ∀ line program hint, (runCommand h i line t).2 = .error (.toolNotFound program hint) →
    ∃ e, (h.runFile i t file).2 = .error e ∧ passesOver e = true

theorem not_found_of_missing {line program hint : String} {result : Except IoError Finished}
    (missing : commandResult i line result = .error (.toolNotFound program hint)) :
    result = .error .notFound :=
  (command_fatal_iff missing).mp rfl

theorem starts_from (ready : Ready t i) (first : first? t (h.startFiles i) = some file) :
    StartsFrom h t i file := by
  have runs : (∀ e, (h.runFile i t file).2 = .error e → passesOver e = false) →
      h.spawn i t = h.runFile i t file := fun ran => by
    rw [spawn_files ready]
    exact start_first first ran false .notFound
  refine ⟨runs, fun line program hint missing => ?_⟩
  by_contra ran
  have same := runs fun e failed => by
    rw [← Bool.not_eq_true]
    exact fun passed => ran ⟨e, failed, passed⟩
  exact ran ⟨.notFound, same ▸ not_found_of_missing missing, rfl⟩

theorem spawn_refused (ready : Ready t i) (only : h.startFiles i = [file])
    (refused : refusal? t file = some e) : h.spawn i t = (t, .error e) := by
  rw [spawn_files ready, only, startFirst]
  simp only [refused]
  split
  · rw [startFirst]
    by_cases denied : e = .permissionDenied
    · simp [denied]
    · simp [denied]
  · rfl

theorem startFiles_path (slash : hasSlash i.program = true) :
    h.startFiles i = [i.directory.join ⟨i.program⟩] := by
  have some_text : i.program ≠ "" := by
    intro empty
    rw [empty] at slash
    exact absurd slash (by decide)
  rw [startFiles, programFiles, if_neg some_text, if_pos slash]

theorem slash_of_absolute {name : String} (absolute : isAbsolute ⟨name⟩ = true) :
    hasSlash name = true := by
  rw [isAbsolute, absolute_head, decide_eq_true_iff] at absolute
  have mem := List.mem_of_head? absolute
  simpa [hasSlash, Text.contains] using mem

/-- A program that was found on the search path, with no entry up to there that depends on where the
   search starts, and none that ends it. -/
structure OnSearchPath (h : Host) (t : FileTree) (i : Invocation) (found : Path) : Prop where
  slashless : hasSlash i.program = false
  entries : ∃ searchPath front entry back, h.env.get? pathVariable = some searchPath ∧
    (∀ p ∈ i.overrides, p.1 = pathVariable → p.2 = searchPath) ∧
    Text.splitAll ':' searchPath.toList = front ++ entry :: back ∧
    found = entryFile i.program entry ∧
    (∀ piece ∈ front ++ [entry], isAbsoluteText piece = true) ∧
    ∀ piece ∈ front, ∀ e, refusal? t (entryFile i.program piece) = some e → passesOver e = true

/-- How the program that a check has found is started. -/
structure Refound (h : Host) (t : FileTree) (i : Invocation) (found : Path) : Prop where
  absolute : isAbsolute ⟨i.program⟩ = true → StartsFrom h t i found
  named : OnSearchPath h t i found → StartsFrom h t i found
  relative : hasSlash i.program = true → isAbsolute ⟨i.program⟩ = false →
    found = h.directory.join ⟨i.program⟩ ∧
    (refusal? t (i.directory.join ⟨i.program⟩) = none →
      StartsFrom h t i (i.directory.join ⟨i.program⟩)) ∧
    ∀ e, refusal? t (i.directory.join ⟨i.program⟩) = some e → h.spawn i t = (t, .error e)
  same_place : hasSlash i.program = true → isAbsolute ⟨i.program⟩ = false →
    (placeOf (i.directory.join ⟨i.program⟩) = placeOf found ↔
      (placeOf i.directory).drop (course ⟨i.program⟩).ups =
        (placeOf h.directory).drop (course ⟨i.program⟩).ups)

theorem refusal_kept (kept : u.open? file = t.open? file) : refusal? u file = refusal? t file := by
  rw [refusal?, kept, refusal?]

theorem executable_kept (kept : u.open? file = t.open? file) :
    u.isExecutable file = t.isExecutable file := by
  rw [isExecutable, kept, isExecutable]

theorem find_kept {files : List Path} (kept : ∀ file ∈ files, u.open? file = t.open? file) :
    files.find? u.isExecutable = files.find? t.isExecutable := by
  induction files with
  | nil => rfl
  | cons f rest ih =>
    obtain ⟨here, later⟩ := List.forall_mem_cons.mp kept
    rw [List.find?_cons, List.find?_cons, executable_kept here, ih later]

theorem installedFiles_named {name searchPath : String} (slashless : hasSlash name = false)
    (set : h.env.get? pathVariable = some searchPath) : h.installedFiles name =
      (searchDirectories h.directory searchPath).map fun dir => dir.join ⟨name⟩ := by
  have single : ¬ 1 < (Path.mk name).components.length := fun many => by
    rw [slash_of_components many] at slashless
    cases slashless
  rw [installedFiles, if_neg single, set]

theorem startFiles_named {searchPath : String} (slashless : hasSlash i.program = false)
    (some_text : i.program ≠ "") (path : h.searchPathOf i = searchPath) : h.startFiles i =
      (searchDirectories i.directory searchPath).map fun dir => dir.join ⟨i.program⟩ := by
  rw [startFiles, programFiles, if_neg some_text, slashless, if_neg Bool.false_ne_true, path]

theorem named_started (ready : Ready u i) (installed : h.installed? t i.program = some found)
    (kept : ∀ file ∈ h.installedFiles i.program, u.open? file = t.open? file)
    (named : OnSearchPath h u i found) : StartsFrom h u i found := by
  obtain ⟨searchPath, front, entry, back, set, overrides, cut, place, absolute, passes⟩ := named.entries
  have some_text := installed_nonempty named.slashless installed
  obtain ⟨looked, check⟩ := searched_files h.directory i.program cut absolute
  obtain ⟨tried, start⟩ := searched_files i.directory i.program cut absolute
  rw [← place] at check start
  have found_again : (h.installedFiles i.program).find? u.isExecutable = some found :=
    (find_kept kept).trans installed
  rw [installedFiles_named named.slashless set, check] at found_again
  refine starts_from ready ?_
  rw [startFiles_named named.slashless some_text (search_path_kept set overrides), start]
  refine first_found found_again fun f mem => ?_
  obtain ⟨piece, listed, rfl⟩ := List.mem_map.mp mem
  exact passes piece listed

theorem refound (ready : Ready u i) (installed : h.installed? t i.program = some found)
    (kept : ∀ file ∈ h.installedFiles i.program, u.open? file = t.open? file) :
    Refound h u i found := by
  have looked_at : found ∈ h.installedFiles i.program := List.mem_of_find?_eq_some installed
  have startable : refusal? u found = none :=
    (refusal_kept (kept found looked_at)).trans (executable_iff.mp (List.find?_some installed))
  refine ⟨?_, named_started ready installed kept, ?_, ?_⟩
  · intro absolute
    have slash := slash_of_absolute absolute
    have place := installed_place slash installed
    rw [join_absolute _ absolute] at place
    refine starts_from ready ?_
    rw [startFiles_path slash, join_absolute _ absolute, ← place, first?, startable]
  · intro slash _
    refine ⟨installed_place slash installed, fun allowed => starts_from ready ?_,
      fun e => spawn_refused ready (startFiles_path slash)⟩
    rw [startFiles_path slash, first?, allowed]
  · intro slash relative
    rw [installed_place slash installed, place_course _ relative, place_course _ relative, Course.leads,
      Course.leads, List.append_right_inj]

/-- Both tools are started as they were found, where nothing has changed at the files looked at. -/
structure CheckedTools (h : Host) (t u : FileTree) : Prop where
  compiler : ∀ (g : GoCompiler) (r : CompileRequest), g.check h t = .ok () →
    Ready u (g.invocation r) → (∀ file ∈ h.installedFiles g.program, u.open? file = t.open? file) →
    ∃ found, h.installed? t g.program = some found ∧ Refound h u (g.invocation r) found
  generator : ∀ (g : CommandGenerator) (l : Layout), g.check h t = .ok () →
    Ready u (g.invocation l) → (∀ file ∈ h.installedFiles g.program, u.open? file = t.open? file) →
    ∃ found, h.installed? t g.program = some found ∧ Refound h u (g.invocation l) found

theorem check_found {program hint : String} (passed : checkInstalled h program hint t = .ok ()) :
    ∃ found, h.installed? t program = some found := by
  unfold checkInstalled at passed
  split at passed
  · rename_i found installed
    exact ⟨found, installed⟩
  · cases passed

theorem checked_tools (h : Host) (t u : FileTree) : CheckedTools h t u where
  compiler g r passed ready kept := by
    obtain ⟨found, installed⟩ := check_found passed
    exact ⟨found, installed, refound ready installed kept⟩
  generator g l passed ready kept := by
    obtain ⟨found, installed⟩ := check_found passed
    exact ⟨found, installed, refound ready installed kept⟩

def toolTree : FileTree :=
  let machine := (((∅ : FileTree).put ["usr"] .directory).put ["bin", "usr"] .directory).put
    ["go", "bin", "usr"] (.file [] true)
  let project := (machine.put ["work"] .directory).put ["release", "work"] .directory
  (project.put ["tools", "work"] .directory).put ["go", "tools", "work"] (.file [] true)

def toolHost : Host where
  env := Environment.ofList [("PATH", "/usr/local/bin:/usr/bin")]
  directory := ⟨"/work"⟩
  execute _ t := (t, .ok ⟨.code 0, [], []⟩)

def toolGenerator (program : String) : CommandGenerator := ⟨program, [], "config.yaml", ⟨"."⟩⟩

theorem named_tool_started : (toolGenerator "go").check toolHost toolTree = .ok () ∧
    StartsFrom toolHost toolTree ((toolGenerator "go").invocation (.new ⟨"/work"⟩ ⟨"release"⟩))
      ⟨"/usr/bin/go"⟩ := by
  have passed : (toolGenerator "go").check toolHost toolTree = .ok () := by decide +kernel
  have ready : Ready toolTree ((toolGenerator "go").invocation (.new ⟨"/work"⟩ ⟨"release"⟩)) :=
    ⟨by decide +kernel, by decide +kernel⟩
  obtain ⟨found, installed, again⟩ :=
    (checked_tools toolHost toolTree toolTree).generator _ _ passed ready fun _ _ => rfl
  have place : toolHost.installed? toolTree "go" = some ⟨"/usr/bin/go"⟩ := by decide +kernel
  obtain rfl := Option.some.inj (installed.symm.trans place)
  refine ⟨passed, again.named ⟨by decide, "/usr/local/bin:/usr/bin", ["/usr/local/bin".toList],
    "/usr/bin".toList, [], by decide +kernel, by simp [toolGenerator, CommandGenerator.invocation],
    by decide +kernel, by decide +kernel, by decide +kernel, ?_⟩⟩
  intro piece mem e refused
  obtain rfl := List.mem_singleton.mp mem
  have nowhere : refusal? toolTree (entryFile "go" "/usr/local/bin".toList) = some .notFound := by
    decide +kernel
  cases refused.symm.trans nowhere
  rfl

/-- A tool of the project passes its check and is reported as missing when it is started. -/
theorem own_tool_missing : ¬ ∀ (h : Host) (t : FileTree) (g : CommandGenerator) (l : Layout),
    g.check h t = .ok () → Ready t (g.invocation l) →
    ∀ line program hint, (runCommand h (g.invocation l) line t).2 ≠ .error (.toolNotFound program hint) := by
  intro started
  refine started toolHost toolTree (toolGenerator "tools/go") (.new ⟨"/work"⟩ ⟨"release"⟩) (by decide +kernel)
    ⟨by decide +kernel, by decide +kernel⟩ "tools/go" "tools/go" (startHint "tools/go" .notFound) ?_
  decide +kernel

end ReleaseMatrix
