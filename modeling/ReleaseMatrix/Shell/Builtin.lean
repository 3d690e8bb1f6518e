import ReleaseMatrix.Shell.Condition
import ReleaseMatrix.Shell.Expansion
import ReleaseMatrix.Shell.Printing

/- The commands that the shell has itself, apart from those that run other commands. -/
namespace ReleaseMatrix.Shell

inductive Flow where
  | next
  | exit
  | killed (signal : Nat)
  | leave (loops : Nat)
  | again (loops : Nat)
  | return
  deriving DecidableEq, Repr

abbrev Outcome := State × Flow

abbrev Builtin := Nat → List String → State → Outcome

def plainly (f : List String → State → State) : Builtin := fun _ args s => (f args s, .next)

def succeed (_ : List String) (s : State) : State := s.done

/-- New files are made with one fixed mode. -/
def umask (args : List String) (s : State) : State :=
  if args.isEmpty then (s.print "0022\n").done else s.done

def signals : List (String × Nat × String) :=
  [("HUP", 1, "Hangup"), ("INT", 2, ""), ("QUIT", 3, "Quit"), ("ILL", 4, "Illegal instruction"),
    ("TRAP", 5, "Trace/breakpoint trap"), ("ABRT", 6, "Aborted"), ("BUS", 7, "Bus error"),
    ("FPE", 8, "Floating point exception"), ("KILL", 9, "Killed"),
    ("USR1", 10, "User defined signal 1"), ("SEGV", 11, "Segmentation fault"),
    ("USR2", 12, "User defined signal 2"), ("PIPE", 13, ""), ("ALRM", 14, "Alarm clock"),
    ("TERM", 15, "Terminated")]

def signal? (name : String) : Option Nat :=
  let name := if name.startsWith "SIG" then String.ofList (name.toList.drop 3) else name
  if name = "EXIT" then some 0
  else (Decimal.natural? 10 name.toList).orElse fun _ => (signals.lookup name).map Prod.fst

def obituary (n : Nat) : String :=
  match signals.find? fun e => e.2.1 == n with
  | some (_, _, told) => if told = "" then "" else told ++ "\n"
  | none => ""

def kill : Builtin := fun line args s =>
  let (signal, targets) := match args with
    | "-s" :: name :: rest => (signal? name, rest)
    | arg :: rest =>
      match arg.toList with
      | '-' :: name => (signal? (String.ofList name), rest)
      | _ => (some 15, args)
    | [] => (some 15, [])
  match signal with
  | none => (s.complain line 2 "kill: Illegal number", .next)
  | some n =>
    if targets.contains State.processNumber then (s.done, if n = 0 then .next else .killed n)
    else (s.complain line 1 "kill: No such process", .next)

/-- The action comes first, a dash in its place brings back what happens otherwise. -/
def trap (args : List String) (s : State) : State :=
  match args with
  | action :: names =>
    let numbers := names.filterMap signal?
    let kept := s.traps.filter fun t => !numbers.contains t.1
    { s.done with traps := if action = "-" then kept else numbers.map (·, action) ++ kept }
  | [] => s.done

def statusArgument (name : String) (line : Nat) (args : List String) (s : State) : State :=
  match args with
  | [] => s
  | arg :: _ =>
    match Decimal.natural? 10 arg.toList with
    | some n => { s with status := n % 256 }
    | none => s.complain line 2 (name ++ ": Illegal number: " ++ arg)

def loopsArgument (args : List String) : Nat :=
  (args.head?.bind fun a => Decimal.natural? 10 a.toList).getD 1

def fromLoops (flow : Nat → Flow) : Builtin := fun _ args s =>
  let n := min (loopsArgument args) s.loops
  (s.done, if n = 0 then .next else flow n)

def assignTo (s : State) (arg : String) : String × State :=
  match Text.cut? '=' arg.toList with
  | some (name, value) => (String.ofList name, s.set (String.ofList name) (String.ofList value))
  | none => (arg, s)

def singleQuoted (text : String) : String := "'" ++ Text.replace text "'" "'\"'\"'" ++ "'"

def exportAll (args : List String) (s : State) : State :=
  if args.isEmpty ∨ args = ["-p"] then
    let lines := s.environment.toList.map fun v =>
      "export " ++ v.1 ++ "=" ++ singleQuoted v.2 ++ "\n"
    (s.print (String.join lines)).done
  else
    args.foldl (fun s arg =>
      let (name, s) := assignTo s arg
      s.share name) s.done

def makeLocal (args : List String) (s : State) : State :=
  args.foldl (fun s arg =>
    let name := String.ofList (arg.toList.takeWhile (· != '='))
    (assignTo { s with hidden := (name, s.vars.get? name) :: s.hidden } arg).2) s.done

def unsetFunction (s : State) (name : String) : State :=
  { s with functions := s.functions.filter fun f => f.1 != name }

def unsetAll (args : List String) (s : State) : State :=
  match args with
  | "-f" :: names => names.foldl unsetFunction s.done
  | "-v" :: names => names.foldl State.unset s.done
  | names => names.foldl State.unset s.done

def namedOptions : List (String × Char) :=
  [("errexit", 'e'), ("nounset", 'u'), ("xtrace", 'x'), ("noglob", 'f')]

def silentOptions : List String :=
  ["ignoreeof", "interactive", "monitor", "noexec", "stdin", "verbose", "vi", "emacs", "noclobber",
    "allexport", "notify", "nolog", "debug"]

def setOptions (line : Nat) : List String → State → Outcome
  | [], s => (s.done, .next)
  | ["-o"], s => (s.done, .next)
  | "--" :: rest, s => ({ s.done with args := rest }, .next)
  | arg :: rest, s =>
    let go (on : Bool) (letters : List Char) : Outcome :=
      if letters.getLast? = some 'o' then
        match rest with
        | [] => ((s.turn on letters).done, .next)
        | name :: rest =>
          match namedOptions.lookup name with
          | some letter => setOptions line rest (s.turn on (letter :: letters))
          | none =>
            if silentOptions.contains name then setOptions line rest (s.turn on letters)
            else (s.complain line 2 ("set: Illegal option -o " ++ name), .exit)
      else setOptions line rest (s.turn on letters)
    match arg.toList with
    | '-' :: letters => go true letters
    | '+' :: letters => go false letters
    | _ => ({ s.done with args := arg :: rest }, .next)

def shift : Builtin := fun line args s =>
  let n := loopsArgument args
  if s.args.length < n then (s.complain line 2 "shift: can't shift that many", .exit)
  else ({ s.done with args := s.args.drop n }, .next)

def pathOf (loc : Location) : Path := ⟨"/" ++ Text.joinWith "/" loc.reverse⟩

/-- A dash means the directory before the present one, and shows it. -/
def changeDirectory (line : Nat) (args : List String) (s : State) : State :=
  let back := args.head? == some "-"
  let target :=
    if back then (s.vars.get? "OLDPWD").getD "" else args.head?.getD ((s.vars.get? "HOME").getD "")
  let path := s.resolve target
  if s.tree.isDirectory path then
    match s.tree.locate path with
    | .ok loc =>
      let here := pathOf loc
      let s := (s.setShared "OLDPWD" s.directory.text).setShared "PWD" here.text
      ({ if back then s.print (here.text ++ "\n") else s with directory := here }).done
    | .error _ => s
  else s.complain line 2 ("cd: can't cd to " ++ target)

def printDirectory (_ : List String) (s : State) : State :=
  (s.print (s.directory.text ++ "\n")).done

def dropSeparator (blanks marks : List Char) (cs : List Char) : List Char :=
  let cs := cs.dropWhile blanks.contains
  match cs with
  | c :: rest => if marks.contains c then rest.dropWhile blanks.contains else cs
  | [] => []

def readNames (blanks marks : List Char) : List String → List Char → State → State
  | [], _, s => s
  | [name], cs, s => s.set name (String.ofList ((cs.reverse.dropWhile blanks.contains).reverse))
  | name :: rest, cs, s =>
    let field := cs.takeWhile fun c => !blanks.contains c && !marks.contains c
    readNames blanks marks rest (dropSeparator blanks marks (cs.drop field.length))
      (s.set name (String.ofList field))

def readLine (args : List String) (s : State) : State :=
  let names := args.filter (· != "-r")
  let line := s.input.takeWhile (· != 10)
  let ended := line.length < s.input.length
  let (blanks, marks) := s.separators.partition isFieldBlank
  let s := { s with input := s.input.drop (line.length + 1) }
  let text := (Utf8.decodeLossy line).toList.dropWhile blanks.contains
  { readNames blanks marks names text s with status := if ended then 0 else 1 }

def builtin? (name : String) : Option Builtin :=
  match name with
  | ":" => some (plainly succeed)
  | "true" => some (plainly succeed)
  | "false" => some (plainly fun _ s => { s with status := 1 })
  | "echo" => some (plainly echo)
  | "printf" => some fun line => plainly (printf line) line
  | "test" => some fun line => plainly (test line "test") line
  | "[" => some fun line => plainly (bracketTest line) line
  | "pwd" => some (plainly printDirectory)
  | "cd" => some fun line => plainly (changeDirectory line) line
  | "export" => some (plainly exportAll)
  | "readonly" => some (plainly fun args s => args.foldl (fun s a => (assignTo s a).2) s.done)
  | "local" => some (plainly makeLocal)
  | "unset" => some (plainly unsetAll)
  | "set" => some setOptions
  | "read" => some (plainly readLine)
  | "umask" => some (plainly umask)
  | "ulimit" => some (plainly succeed)
  | "hash" => some (plainly succeed)
  | "trap" => some (plainly trap)
  | "wait" => some (plainly succeed)
  | "kill" => some kill
  | "shift" => some shift
  | "exit" => some fun line args s => (statusArgument "exit" line args s, .exit)
  | "return" => some fun line args s => (statusArgument "return" line args s, .return)
  | "break" => some (fromLoops .leave)
  | "continue" => some (fromLoops .again)
  | _ => none

end ReleaseMatrix.Shell
