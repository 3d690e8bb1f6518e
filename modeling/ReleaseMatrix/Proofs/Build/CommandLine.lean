import Mathlib.Data.List.Basic
import Mathlib.Data.List.TakeWhile
import ReleaseMatrix.Build.CommandGenerator
import ReleaseMatrix.Build.Go
import ReleaseMatrix.Proofs.Release.Steps

/- A command line can be read in one way only. A quote after a backslash is escaped or ends a word, and two
   readings can part nowhere else. From there on one of them stands between two words where the other is
   inside of one: a quote that opens a word for the first closes the word of the second, so they change
   places for ever, and there is no end of the line at which both have come to the end of a word. -/
namespace ReleaseMatrix.CommandLine

variable {c : Char} {cs ds letters rest more : List Char} {ws vs : List (List Char)}

def escape (cs : List Char) : List Char := cs.flatMap escapeQuote

def word (cs : List Char) : List Char :=
  if needsQuotes cs then '"' :: (escape cs ++ ['"']) else cs

def words (ws : List (List Char)) : List Char := ws.flatMap fun cs => ' ' :: word cs

theorem render_words (program : String) (args : List String) :
    ' ' :: (render program args).toList = words ((program :: args).map String.toList) := by
  have quoted : ∀ arg : String, (quote arg).toList = word arg.toList := by
    intro arg
    unfold quote word
    split
    · rw [String.toList_ofList]
      rfl
    · rfl
  have folded : ∀ line, (args.foldl (fun line arg => line ++ " " ++ quote arg) line).toList =
      line.toList ++ words (args.map String.toList) := by
    induction args with
    | nil => simp [words]
    | cons arg args ih =>
      intro line
      rw [List.foldl_cons, ih]
      simp [words, quoted]
  rw [render, folded, quoted]
  rfl

/-- A word without blanks and quotes stands as it is, unless it is empty; any other between quotes. -/
inductive Written (cs : List Char) : List Char → Prop where
  | plain (some_ : cs ≠ []) (visible : ∀ c ∈ cs, Text.isBlank c = false) (free : '"' ∉ cs) :
      Written cs cs
  | quoted : Written cs ('"' :: (escape cs ++ ['"']))

theorem word_written (cs : List Char) : Written cs (word cs) := by
  unfold word
  split
  · exact .quoted
  · rename_i bare
    simp only [needsQuotes, Bool.or_eq_true, List.isEmpty_iff, List.any_eq_true, List.contains_iff_mem,
      not_or, not_exists, not_and, Bool.not_eq_true] at bare
    exact .plain bare.1.1 bare.1.2 bare.2

/-- One letter of a line for a reader inside of quotes who still expects these letters of his word. -/
inductive Inside (c : Char) (rest more : List Char) : List Char → Prop where
  | closed (quote : c = '"') (same : rest = more) : Inside c rest more []
  | escaped (ds : List Char) (slash : c = '\\') (same : rest = '"' :: (escape ds ++ '"' :: more)) :
      Inside c rest more ('"' :: ds)
  | letter (ds : List Char) (other : c ≠ '"') (same : rest = escape ds ++ '"' :: more) :
      Inside c rest more (c :: ds)

theorem escape_quote (cs : List Char) : escape ('"' :: cs) = '\\' :: '"' :: escape cs := rfl

theorem escape_other (other : c ≠ '"') (cs : List Char) : escape (c :: cs) = c :: escape cs := by
  simp [escape, escapeQuote, other]

theorem inside_step (same : c :: rest = escape cs ++ '"' :: more) : Inside c rest more cs := by
  cases cs with
  | nil =>
    obtain ⟨quote, same⟩ := List.cons.inj same
    exact .closed quote same
  | cons d ds =>
    by_cases quote : d = '"'
    · subst quote
      obtain ⟨slash, next⟩ := List.cons.inj same
      exact .escaped ds slash next
    · rw [escape_other quote] at same
      obtain ⟨rfl, next⟩ := List.cons.inj same
      exact .letter ds quote next

theorem words_head (same : words ws = c :: rest) : c = ' ' := by
  cases ws with
  | nil => cases same
  | cons w ws => exact (List.cons.inj same).1.symm

theorem inside_plain (free : '"' ∉ letters)
    (same : letters ++ words ws = escape cs ++ '"' :: more) :
    ∃ ds, words ws = escape ds ++ '"' :: more := by
  induction letters generalizing cs with
  | nil => exact ⟨cs, same⟩
  | cons c letters ih =>
    obtain ⟨other, free⟩ := not_or.mp (mt List.mem_cons.mpr free)
    cases inside_step same with
    | closed quote => exact absurd quote.symm other
    | letter ds _ next => exact ih free next
    | escaped ds slash next =>
      -- The escaped quote would have to stand in the plain word or right behind it.
      cases letters with
      | nil => exact absurd (words_head next) (by decide)
      | cons d letters =>
        obtain ⟨rfl, _⟩ := List.cons.inj next
        exact absurd List.mem_cons_self free

theorem words_cons (cs : List Char) (ws : List (List Char)) :
    words (cs :: ws) = ' ' :: (word cs ++ words ws) := rfl

/-- Two readings of a line cannot be out of phase, one in front of words and the other inside of one. -/
theorem words_not_inside (ws vs : List (List Char)) (cs : List Char) :
    words ws ≠ escape cs ++ '"' :: words vs := by
  induction total : ws.length + vs.length using Nat.strongRecOn generalizing ws vs cs with
  | ind total ih =>
    intro same
    cases ws with
    | nil => simp [words] at same
    | cons w ws =>
      rw [List.length_cons] at total
      rw [words_cons] at same
      cases inside_step same with
      | closed quote => cases quote
      | escaped ds slash => cases slash
      | letter ds _ next =>
        have written := word_written w
        generalize word w = letters at written next
        cases written with
        | plain _ _ free =>
          obtain ⟨es, later⟩ := inside_plain free next
          exact ih (ws.length + vs.length) (by omega) ws vs es rfl later
        | quoted =>
          -- The quote opens a word here and closes one there: the readings change places.
          rw [List.cons_append, List.append_assoc] at next
          cases inside_step next with
          | closed _ later => exact ih (vs.length + ws.length) (by omega) vs ws w rfl later.symm
          | escaped es slash => cases slash
          | letter es other => exact absurd rfl other

theorem quoted_same (same : escape cs ++ '"' :: words ws = escape ds ++ '"' :: words vs) :
    cs = ds ∧ words ws = words vs := by
  induction cs generalizing ds with
  | nil =>
    cases inside_step same with
    | closed _ next => exact ⟨rfl, next⟩
    | escaped es slash => cases slash
    | letter es other => exact absurd rfl other
  | cons c cs ih =>
    by_cases quote : c = '"'
    · subst quote
      rw [escape_quote] at same
      cases inside_step same with
      | closed slash => cases slash
      | escaped es _ next =>
        obtain ⟨rfl, later⟩ := ih (List.cons.inj next).2
        exact ⟨rfl, later⟩
      | letter es _ next =>
        cases inside_step next with
        | closed _ later => exact absurd later.symm (words_not_inside vs ws cs)
        | escaped fs slash => cases slash
        | letter fs other => exact absurd rfl other
    · rw [escape_other quote] at same
      cases inside_step same with
      | closed opens => exact absurd opens quote
      | letter es _ next =>
        obtain ⟨rfl, later⟩ := ih next
        exact ⟨rfl, later⟩
      | escaped es _ next =>
        cases inside_step next.symm with
        | closed _ later => exact absurd later.symm (words_not_inside ws vs es)
        | escaped fs slash => cases slash
        | letter fs other => exact absurd rfl other

theorem plain_same (visible : ∀ c ∈ cs, Text.isBlank c = false)
    (visible' : ∀ c ∈ ds, Text.isBlank c = false) (same : cs ++ words ws = ds ++ words vs) :
    cs = ds ∧ words ws = words vs := by
  have up_to_blank : ∀ {letters : List Char} (us : List (List Char)),
      (∀ c ∈ letters, Text.isBlank c = false) →
        (letters ++ words us).takeWhile (fun c => !Text.isBlank c) = letters := by
    intro letters us visible
    rw [List.takeWhile_append_of_pos fun c mem => by rw [visible c mem]; rfl]
    cases us with
    | nil => simp [words]
    | cons u us => simp [words_cons, Text.isBlank]
  have first : cs = ds := by
    rw [← up_to_blank ws visible, same, up_to_blank vs visible']
  subst first
  exact ⟨rfl, List.append_cancel_left same⟩

theorem first_word (same : word cs ++ words ws = word ds ++ words vs) :
    cs = ds ∧ words ws = words vs := by
  have here := word_written cs
  have there := word_written ds
  generalize word cs = letters at here same
  generalize word ds = letters' at there same
  cases here with
  | plain some_ visible free =>
    cases there with
    | plain _ visible' _ => exact plain_same visible visible' same
    | quoted =>
      cases cs with
      | nil => exact absurd rfl some_
      | cons c cs =>
        obtain ⟨rfl, _⟩ := List.cons.inj same
        exact absurd List.mem_cons_self free
  | quoted =>
    cases there with
    | plain some_ visible free =>
      cases ds with
      | nil => exact absurd rfl some_
      | cons d ds =>
        obtain ⟨rfl, _⟩ := List.cons.inj same
        exact absurd List.mem_cons_self free
    | quoted =>
      simp only [List.cons_append, List.append_assoc, List.nil_append, List.cons.injEq, true_and] at same
      exact quoted_same same

theorem words_injective (same : words ws = words vs) : ws = vs := by
  induction ws generalizing vs with
  | nil =>
    cases vs with
    | nil => rfl
    | cons v vs => cases same
  | cons w ws ih =>
    cases vs with
    | nil => cases same
    | cons v vs =>
      obtain ⟨rfl, later⟩ := first_word (List.cons.inj same).2
      rw [ih later]

theorem render_injective {p q : String} {as bs : List String} (same : render p as = render q bs) :
    p = q ∧ as = bs := by
  have lists : (p :: as).map String.toList = (q :: bs).map String.toList := by
    apply words_injective
    rw [← render_words, ← render_words, same]
  have letters : Function.Injective String.toList := fun _ _ => String.toList_inj.mp
  exact List.cons.inj (List.map_injective_iff.mpr letters lists)

/-- The command lines that a release shows, each with the invocation that it stands for: those that a dry
    run lists, and those in the errors of commands that failed. -/
inductive Shown : String → Invocation → Prop where
  | listed (r : Release) (g : GoCompiler) (h : Host) (clock : Clock) (t : FileTree)
      (planned : List PlannedVariant) (p : PlannedVariant) (stamp : Stamp) (summary : Summary)
      (report : Report) (i : Nat) (line : String) (compiler : r.compiler = g.toCompiler h)
      (dry : r.options.dryRun = true) (ready : r.prepare clock.now t = .ok (planned, stamp))
      (ended : (r.run clock t).result = .ok summary) (here : planned[i]? = some p)
      (reported : summary.reports[i]? = some report) (told : report.outcome = .planned line) :
      Shown line (g.invocation (r.request stamp p.variant))
  | compiling (g : GoCompiler) (h : Host) (request : CompileRequest) (t : FileTree) (line : String)
      (code : Option Int) (stdout stderr : String)
      (failed : (g.compile h request t).2 = .error (.commandFailed line code stdout stderr)) :
      Shown line (g.invocation request)
  | generating (g : CommandGenerator) (h : Host) (layout : Layout) (t : FileTree) (line : String)
      (code : Option Int) (stdout stderr detail : String)
      (failed : (g.generate h layout t).2 =
        .error (.generationCaused detail (.commandFailed line code stdout stderr))) :
      Shown line (g.invocation layout)

theorem failed_line {i : Invocation} {line told stdout stderr : String} {code : Option Int}
    {result : Except IoError Finished}
    (failed : commandResult i line result = .error (.commandFailed told code stdout stderr)) :
    told = line := by
  unfold commandResult at failed
  split at failed
  · cases failed
  · cases failed
  · split at failed
    · cases failed
    · cases failed
      rfl

theorem compile_line {g : GoCompiler} {h : Host} {request : CompileRequest} {t : FileTree}
    {line stdout stderr : String} {code : Option Int}
    (failed : (g.compile h request t).2 = .error (.commandFailed line code stdout stderr)) :
    line = g.commandLine request := by
  unfold GoCompiler.compile runCommand at failed
  split at failed
  · rename_i command
    cases failed
    exact failed_line (congrArg Prod.snd command)
  · split at failed <;> cases failed

theorem generate_line {g : CommandGenerator} {h : Host} {layout : Layout} {t : FileTree}
    {line stdout stderr detail : String} {code : Option Int}
    (failed : (g.generate h layout t).2 =
      .error (.generationCaused detail (.commandFailed line code stdout stderr))) :
    line = g.commandLine layout := by
  unfold CommandGenerator.generate runCommand at failed
  simp only at failed
  split at failed
  · cases failed
  · split at failed
    · rename_i command
      cases failed
      exact failed_line (congrArg Prod.snd command)
    · split at failed <;> cases failed

theorem Shown.rendered {line : String} {i : Invocation} (shown : Shown line i) :
    line = render i.program i.args := by
  cases shown with
  | listed r g h clock t planned p stamp summary report k line compiler dry ready ended here reported told =>
    rw [Release.run_listed ready dry] at ended
    cases ended
    simp only [Release.summary, List.getElem?_map, here, Option.map_some, Option.some.injEq] at reported
    subst reported
    simp only [Release.plannedReport, Release.report, Outcome.planned.injEq, compiler] at told
    exact told.symm
  | compiling g h request t line code stdout stderr failed => exact compile_line failed
  | generating g h layout t line code stdout stderr detail failed => exact generate_line failed

/-- What a command line tells about the command. -/
structure Unambiguous : Prop where
  rendered : ∀ (p q : String) (as bs : List String), render p as = render q bs ↔ p = q ∧ as = bs
  shown : ∀ line i j, Shown line i → Shown line j → i.program = j.program ∧ i.args = j.args

theorem command_lines_unambiguous : Unambiguous where
  rendered p q as bs := by
    refine ⟨render_injective, ?_⟩
    rintro ⟨rfl, rfl⟩
    rfl
  shown line i j shown shown' := render_injective (shown.rendered.symm.trans shown'.rendered)

end ReleaseMatrix.CommandLine
