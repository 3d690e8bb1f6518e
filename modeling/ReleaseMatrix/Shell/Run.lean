import ReleaseMatrix.Shell.Builtin
import ReleaseMatrix.Shell.Filter
import ReleaseMatrix.Shell.Parser

/- Running scripts and other programs in a tree of files. -/
namespace ReleaseMatrix.Shell

def utilities : List (String × Utility) :=
  [("cat", cat), ("mkdir", mkdir), ("rm", rm), ("rmdir", rmdir), ("cp", cp), ("mv", mv),
    ("touch", touch), ("chmod", chmod), ("ls", ls), ("head", portion "head" false),
    ("tail", portion "tail" true), ("wc", wc), ("sort", sort), ("tr", tr), ("seq", seq),
    ("tee", tee), ("basename", basename), ("dirname", dirname), ("sleep", succeed),
    ("true", succeed), ("false", fun _ s => { s with status := 1 }), ("echo", echo),
    ("printf", printf 1), ("test", test 1 "test"), ("[", bracketTest 1), ("pwd", printDirectory),
    ("printenv", printVariables)]

def open? (s : State) (r : Redirect) (target : String) : Except String State :=
  let toFile (keep : Bool) : Except String State :=
    if target = "/dev/null" then .ok (s.bind r.descriptor .nowhere)
    else if target = "/dev/stdout" then .ok (s.bind r.descriptor (s.sink 1))
    else if target = "/dev/stderr" then .ok (s.bind r.descriptor (s.sink 2))
    else
      let path := s.resolve target
      let opened := if keep && s.tree.isFile path then .ok s.tree else s.tree.write path []
      match opened with
      | .error e =>
        .error ("cannot create " ++ target ++ ": " ++ openingText "Directory nonexistent" e)
      | .ok tree =>
        match tree.locate path with
        | .ok loc => .ok ({ s with tree := tree }.bind r.descriptor (.file loc))
        | .error _ => .ok s
  match r.direction with
  | .write => toFile false
  | .append => toFile true
  | .read =>
    if target = "/dev/null" then .ok { s with input := [] }
    else match s.tree.open? (s.resolve target) with
      | .error e => .error ("cannot open " ++ target ++ ": " ++ openingText "No such file" e)
      | .ok e => .ok { s with input := e.read.toOption.getD [] }
  | .duplicate =>
    if target = "-" then .ok (s.bind r.descriptor .nowhere)
    else match Decimal.natural? 10 target.toList with
      | some n =>
        if r.descriptor = 0 then .ok s
        else match s.sinks.lookup n with
          | some sink => .ok (s.bind r.descriptor sink)
          | none => .error (target ++ ": Bad file descriptor")
      | none => .error (target ++ ": Bad file descriptor")
  | .inline => .ok { s with input := Utf8.encode target }

def redirect (run : Substitution) : List Redirect → Expanding (Except String Unit)
  | [] => return .ok ()
  | r :: rest => do
    let target ← expandText run r.target
    match open? (← get) r target with
    | .error e => return .error e
    | .ok s =>
      set s
      redirect run rest

def restore (before : State) (redirects : List Redirect) (after : State) : State :=
  let ownInput := redirects.any fun r => r.descriptor = 0
  { after with
    sinks := before.sinks
    input := if ownInput then before.input else after.input }

def leaveSubshell (before after : State) : State :=
  { after with
    directory := before.directory
    vars := before.vars
    exported := before.exported
    args := before.args
    functions := before.functions
    depth := before.depth
    loops := before.loops
    hidden := before.hidden
    traps := before.traps
    sinks := before.sinks
    options := before.options }

def afterSubshell (before : State) : Outcome → Outcome
  | (after, .killed n) => (leaveSubshell before after, .killed n)
  | (after, _) => (leaveSubshell before after, .next)

def enterLoop (s : State) : State := { s with loops := s.loops + 1 }

def leaveLoop (before : State) : Outcome → Outcome
  | (after, flow) => ({ after with loops := before.loops }, flow)

def hasOutput (w : Word) : Bool := w.any fun p => match p with
  | .output _ _ _ => true
  | _ => false

/-- Ends a strict script when a command has failed whose status nobody asks for. -/
def check (tested : Bool) : Outcome → Outcome
  | (s, .next) => (s, if s.options.strict && !tested && s.status != 0 then .exit else .next)
  | o => o

def shellNames : List String := ["sh", "dash", "bash"]

def binaryMark : List Char := Char.ofNat 127 :: "ELF".toList

/-- What a file holds that is one of the utilities, or the shell, rather than a script. -/
def binary (name : String) : Bytes := Utf8.encode (String.ofList binaryMark ++ name)

inductive Format where
  | binary (name : String)
  | script (interpreter : String) (arg : Option String)
  | unknown
  deriving DecidableEq, Repr

def formatOf (content : Bytes) : Format :=
  let line := (Utf8.decodeLossy (content.takeWhile (· != 10))).toList
  if binaryMark.isPrefixOf line then .binary (String.ofList (line.drop binaryMark.length))
  else match line with
    | '#' :: '!' :: rest =>
      let words := Text.trimList rest
      let interpreter := words.takeWhile fun c => !isBlankChar c
      let arg := Text.trimList (words.drop interpreter.length)
      .script (String.ofList interpreter) (if arg.isEmpty then none else some (String.ofList arg))
    | _ => .unknown

def finish : Outcome → Finished
  | (s, .killed n) => ⟨.signal n, s.out.reverse, s.err.reverse⟩
  | (s, _) => ⟨.code s.status, s.out.reverse, s.err.reverse⟩

def traceText (assigns : List (String × String)) (fields : List String) : String :=
  "+ " ++ Text.joinWith " " (assigns.map (fun a => a.1 ++ "=" ++ a.2) ++ fields) ++ "\n"

def trace (before : State) (assigns : List (String × String)) (fields : List String)
    (s : State) : State :=
  if s.options.traced then s.emitTo (Utf8.encode (traceText assigns fields)) (before.sink 2) else s

def maxDepth : Nat := 1000

def tooDeep : String :=
  "Maximum function recursion depth (" ++ Decimal.ofNat maxDepth ++ ") reached"

def scriptName (p : Process) : String := if Host.hasSlash p.name then p.name else p.file.text

def programPath? (s : State) (name : String) : Option String :=
  let path? (file : Path) : Option String :=
    if s.tree.isExecutable file then some file.text else none
  (Host.programFiles s.directory ((s.vars.get? Host.pathVariable).getD "") name).findSome? path?

def isOwnCommand (s : State) (name : String) : Bool :=
  (s.functions.lookup name).isSome || (builtin? name).isSome ||
    ["eval", ".", "exec", "command"].contains name

def whereabouts (names : List String) (s : State) : State :=
  names.foldl (fun s name =>
    match if isOwnCommand s name then some name else programPath? s name with
    | some told => s.print (told ++ "\n")
    | none => { s with status := 127 }) s.done

mutual

def run : Nat → Bool → Command → State → Outcome
  | 0, _, _, s => ({ s with status := 137 }, .killed 9)
  | fuel + 1, tested, c, s =>
    match c with
    | .simple line assigns words reds => check tested (runSimple fuel line assigns words reds s)
    | .pipe negated stages =>
      let (s, flow) := runStages fuel (tested || negated) stages s
      if negated then ({ s with status := if s.status = 0 then 1 else 0 }, flow)
      else check tested (s, flow)
    | .both first second =>
      match run fuel true first s with
      | (s, .next) => if s.status = 0 then run fuel tested second s else (s, .next)
      | o => o
    | .either first second =>
      match run fuel true first s with
      | (s, .next) => if s.status = 0 then (s, .next) else run fuel tested second s
      | o => o
    | .sequence cs => runAll fuel tested cs s
    | .subshell body => check tested (afterSubshell s (run fuel tested body { s with traps := [] }))
    | .choose condition body otherwise =>
      match run fuel true condition s with
      | (s, .next) =>
        match s.status, otherwise with
        | 0, _ => run fuel tested body s
        | _, .sequence [] => (s.done, .next)
        | _, otherwise => run fuel tested otherwise s
      | o => o
    | .loop untilTrue condition body =>
      leaveLoop s (runLoop fuel tested untilTrue condition body 0 (enterLoop s))
    | .each line name items body =>
      match items with
      | none => leaveLoop s (runEach fuel tested name body s.args (enterLoop s.done))
      | some words =>
        match expandFields (substitute fuel) words s with
        | .error e => (s.refuse line 2 e, .exit)
        | .ok (fields, s) =>
          leaveLoop s (runEach fuel tested name body fields (enterLoop s.done))
    | .select line subject arms =>
      match expandText (substitute fuel) subject s with
      | .error e => (s.refuse line 2 e, .exit)
      | .ok (text, s) => runArms fuel tested line text arms s.done
    | .define name body => ({ s.done with functions := (name, body) :: s.functions }, .next)
    | .redirected line body reds =>
      match redirect (substitute fuel) reds s with
      | .error e => (s.refuse line 2 e, .exit)
      | .ok (.error e, after) => (restore s reds (after.refuse line 2 e), .next)
      | .ok (.ok (), opened) =>
        let (after, flow) := run fuel tested body opened
        (restore s reds after, flow)

def runAll : Nat → Bool → List Command → State → Outcome
  | 0, _, _, s => (s, .killed 9)
  | _ + 1, _, [], s => (s, .next)
  | fuel + 1, tested, c :: rest, s =>
    match run fuel tested c s with
    | (s, .next) => runAll fuel tested rest s
    | o => o

def runLoop : Nat → Bool → Bool → Command → Command → Nat → State → Outcome
  | 0, _, _, _, _, _, s => (s, .killed 9)
  | fuel + 1, tested, untilTrue, condition, body, status, s =>
    match run fuel true condition s with
    | (s, .next) =>
      if (s.status = 0) = untilTrue then ({ s with status := status }, .next)
      else match run fuel tested body s with
        | (s, .next) => runLoop fuel tested untilTrue condition body s.status s
        | (s, .leave n) => (s, if n ≤ 1 then .next else .leave (n - 1))
        | (s, .again n) =>
          if n ≤ 1 then runLoop fuel tested untilTrue condition body s.status s
          else (s, .again (n - 1))
        | o => o
    | o => o

def runEach : Nat → Bool → String → Command → List String → State → Outcome
  | 0, _, _, _, _, s => (s, .killed 9)
  | _ + 1, _, _, _, [], s => (s, .next)
  | fuel + 1, tested, name, body, item :: rest, s =>
    match run fuel tested body (s.set name item) with
    | (s, .next) => runEach fuel tested name body rest s
    | (s, .leave n) => (s, if n ≤ 1 then .next else .leave (n - 1))
    | (s, .again n) =>
      if n ≤ 1 then runEach fuel tested name body rest s else (s, .again (n - 1))
    | o => o

def runArms : Nat → Bool → Nat → String → List (List Word × Command) → State → Outcome
  | 0, _, _, _, _, s => (s, .killed 9)
  | _ + 1, _, _, _, [], s => (s, .next)
  | fuel + 1, tested, line, text, (patterns, body) :: rest, s =>
    match patterns.mapM (expandPattern (substitute fuel)) s with
    | .error e => (s.refuse line 2 e, .exit)
    | .ok (ps, s) =>
      if ps.any fun p => p.accepts text.toList then run fuel tested body s
      else runArms fuel tested line text rest s

def runStages : Nat → Bool → List Command → State → Outcome
  | 0, _, _, s => (s, .killed 9)
  | _ + 1, _, [], s => (s, .next)
  | fuel + 1, tested, [c], s => afterSubshell s (run fuel tested c s)
  | fuel + 1, tested, c :: rest, s =>
    let inner := { s with captured := [] }.bind 1 .captured
    let (after, flow) := afterSubshell s (run fuel true c inner)
    match flow with
    | .next =>
      runStages fuel tested rest
        { after with captured := s.captured, input := after.captured.reverse }
    | _ => (after, flow)

def substitute : Nat → Substitution
  | 0, _, _, s => (s, [])
  | fuel + 1, line, script, s =>
    let inner := { s with captured := [], traps := [] }.bind 1 .captured
    let (after, _) := afterSubshell s (runScript fuel line script inner)
    ({ after with captured := s.captured }, after.captured.reverse)

def runSimple : Nat → Nat → List (String × Word) → List Word → List Redirect → State → Outcome
  | 0, _, _, _, _, s => (s, .killed 9)
  | fuel + 1, line, assigns, words, reds, s =>
    match expandFields (substitute fuel) words s with
    | .error e => (s.complain line 2 e, .exit)
    | .ok (fields, s) =>
      match redirect (substitute fuel) reds s with
      | .error e => (s.refuse line 2 e, .exit)
      | .ok (.error e, after) => (restore s reds (after.refuse line 2 e), .next)
      | .ok (.ok (), opened) =>
        let values := assigns.mapM fun a => do
          return (a.1, ← expandText (substitute fuel) a.2)
        match values opened with
        | .error e => (restore s reds (opened.refuse line 2 e), .exit)
        | .ok (values, ready) =>
          let ready := trace s values fields ready
          match fields with
          | [] =>
            let keepStatus := words.any hasOutput || assigns.any fun a => hasOutput a.2
            let ready := if keepStatus then ready else ready.done
            (restore s reds (values.foldl (fun s v => s.set v.1 v.2) ready), .next)
          | name :: args =>
            if name = "exec" ∧ args.isEmpty then (ready.done, .next)
            else
              let (after, flow) := runCommand fuel line values name args ready
              (restore s reds after, flow)

def runCommand : Nat → Nat → List (String × String) → String → List String → State → Outcome
  | 0, _, _, _, _, s => (s, .killed 9)
  | fuel + 1, line, values, name, args, s =>
    let ready := values.foldl (fun s v => s.setShared v.1 v.2) s
    let undo (after : State) : State :=
      if values.isEmpty then after
      else
        let hidden := values.map fun v => (v.1, s.vars.get? v.1)
        { after.resetAll hidden with exported := s.exported }
    match s.functions.lookup name with
    | some body =>
      if maxDepth ≤ s.depth then (s.refuse line 2 tooDeep, .exit)
      else
        let inner := { ready with args := args, loops := 0, hidden := [], depth := s.depth + 1 }
        let (after, flow) := run fuel false body inner
        let after :=
          { after.resetAll after.hidden with
            args := s.args
            loops := s.loops
            hidden := s.hidden
            depth := s.depth }
        (undo after, if flow = .return then .next else flow)
    | none =>
      match name with
      | "eval" =>
        let script := (Text.joinWith " " args).toList
        let (after, flow) := runScript fuel 1 script { s with reader := "eval: " }
        ({ after with reader := s.reader }, flow)
      | "." =>
        let file := args.head?.getD ""
        match s.tree.readText (s.resolve file) with
        | .ok text =>
          let (after, flow) := runScript fuel 1 text.toList { s with reader := file ++ ": " }
          ({ after with reader := s.reader }, if flow = .return then .next else flow)
        | .error e =>
          (s.complain line 2 (".: cannot open " ++ file ++ ": " ++ openingText "No such file" e),
            .exit)
      | "exec" =>
        match args with
        | program :: rest =>
          let (after, _) := runProgram fuel line program rest { ready with reader := "exec: " }
          (undo { after with reader := s.reader }, .exit)
        | [] => (s.done, .next)
      | "command" =>
        match args with
        | "-v" :: names => (whereabouts names s, .next)
        | program :: rest =>
          let (after, flow) := runCommand fuel line values program rest { s with functions := [] }
          ({ after with functions := s.functions }, flow)
        | [] => (s.done, .next)
      | _ =>
        match builtin? name with
        | some f =>
          let (after, flow) := f line args ready
          match flow with
          | .killed n => runTrap fuel n (undo after)
          | flow => (undo after, flow)
        | none =>
          let (after, flow) := runProgram fuel line name args ready
          (undo after, flow)

def runTrap : Nat → Nat → State → Outcome
  | 0, _, s => (s, .killed 9)
  | fuel + 1, signal, s =>
    match (if signal = 9 then none else s.traps.lookup signal) with
    | some action => runAction fuel action s
    | none => (s, .killed signal)

def runAction : Nat → String → State → Outcome
  | 0, _, s => (s, .killed 9)
  | fuel + 1, action, s =>
    match runLines fuel (tokens 1 action.toList) s with
    | (after, .next) => ({ after with status := s.status }, .next)
    | o => o

def runScript : Nat → Nat → List Char → State → Outcome
  | 0, _, _, s => (s, .killed 9)
  | fuel + 1, line, script, s => runLines fuel (tokens line script) s.done

/-- Each line is read when the lines before it have been run. -/
def runLines : Nat → List Located → State → Outcome
  | 0, _, s => (s, .killed 9)
  | fuel + 1, ts, s =>
    match firstLine ts with
    | .error fault => (s.refuse fault.line 2 ("Syntax error: " ++ fault.message), .exit)
    | .ok (none, _) => (s, .next)
    | .ok (some c, rest) =>
      match run fuel false c s with
      | (s, .next) => runLines fuel rest s
      | o => o

def runWhole : Nat → List Char → State → Outcome
  | 0, _, s => (s, .killed 9)
  | fuel + 1, script, s =>
    match runScript fuel 1 script s with
    | (after, .killed n) => (after, .killed n)
    | (after, flow) =>
      match after.traps.lookup 0 with
      | some action => runAction fuel action { after with traps := [] }
      | none => (after, flow)

def runProgram : Nat → Nat → String → List String → State → Outcome
  | 0, _, _, _, s => (s, .killed 9)
  | fuel + 1, line, name, args, s =>
    let env := s.environment
    let files := Host.programFiles s.directory ((s.vars.get? Host.pathVariable).getD "") name
    let start (file : Path) : ProcessRun :=
      Host.withShell (execute fuel) ⟨file, name, args, env, s.directory, s.input⟩ s.tree
    match Host.startFirst s.tree start false .notFound files with
    | (tree, .ok f) =>
      let s := ({ s with tree := tree, input := [] }.emit 1 f.stdout).emit 2 f.stderr
      match f.exit with
      | .code n => ({ s with status := n }, .next)
      | .signal n => ({ s.emit 2 (Utf8.encode (obituary n)) with status := 128 + n }, .next)
    | (_, .error .permissionDenied) => (s.refuse line 126 (name ++ ": Permission denied"), .next)
    | (_, .error _) => (s.refuse line 127 (name ++ ": not found"), .next)

/-- Runs the file of a process, by what it holds. A script is run by its interpreter. -/
def execute : Nat → Process → FileTree → ProcessRun
  | 0, _, t => (t, .error .execFormat)
  | fuel + 1, p, t =>
    match t.read p.file with
    | .error e => (t, .error e)
    | .ok content =>
      match formatOf content with
      | .unknown => (t, .error .execFormat)
      | .script interpreter arg =>
        let file := p.directory.join ⟨interpreter⟩
        match Host.refusal? t file with
        | some e => (t, .error e)
        | none =>
          let args := arg.toList ++ scriptName p :: p.args
          execute fuel { p with file := file, name := interpreter, args := args } t
      | .binary "env" =>
        let (env, args) := environmentFor p.env p.args
        let s := State.start { p with env := env } p.name args t
        match args with
        | [] => (t, .ok (finish (printEnvironment env s, .next)))
        | program :: args =>
          let searchPath := (env.get? Host.pathVariable).getD Host.defaultSearchPath
          let start (file : Path) : ProcessRun :=
            Host.withShell (execute fuel)
              { p with file := file, name := program, args := args, env := env } t
          let files := Host.programFiles p.directory searchPath program
          match Host.startFirst t start false .notFound files with
          | (after, .ok f) => (after, .ok f)
          | (after, .error e) =>
            let status := if e = .permissionDenied then 126 else 127
            let told := s.fail status ("env: " ++ quoted program ++ ": " ++ errorText e)
            (after, .ok (finish (told, .next)))
      | .binary name =>
        if shellNames.contains name then runShell fuel p t
        else match utilities.lookup name with
          | some u => runUtility p u t
          | none => (t, .error .execFormat)

def runShell : Nat → Process → FileTree → ProcessRun
  | 0, _, t => (t, .error .execFormat)
  | fuel + 1, p, t =>
    let (options, args) := splitOptions p.args
    let begin_ (name : String) (args : List String) : State :=
      let s := (State.start p name args t).turn true options
      let s := State.standardVariables.foldl (fun s v => s.set v.1 v.2) s
      match t.locate p.directory with
      | .ok loc => { s with directory := pathOf loc }.setShared "PWD" (pathOf loc).text
      | .error _ => s
    let outcome : Outcome :=
      if options.contains 'c' then
        match args with
        | script :: rest =>
          runWhole fuel script.toList (begin_ (rest.head?.getD p.name) rest.tail)
        | [] => ((begin_ p.name []).fail 2 (p.name ++ ": 0: -c requires an argument"), .exit)
      else match args with
        | [] => runWhole fuel (Utf8.decodeLossy p.input).toList (begin_ p.name [])
        | file :: rest =>
          let s := begin_ file rest
          match t.read (p.directory.join ⟨file⟩) with
          | .ok content => runWhole fuel (Utf8.decodeLossy content).toList s
          | .error e =>
            let told := openingText "No such file" e
            (s.fail 2 (p.name ++ ": 0: cannot open " ++ file ++ ": " ++ told), .exit)
    (outcome.1.tree, .ok (finish outcome))

def runUtility (p : Process) (u : Utility) (t : FileTree) : ProcessRun :=
  let s := u p.args (State.start p p.name p.args t)
  (s.tree, .ok (finish (s, .next)))

end

def runFuel : Nat := 1000000

def host (env : Environment) (directory : Path) : Host := ⟨env, directory, execute runFuel⟩

def install (t : FileTree) : FileTree :=
  let names := shellNames ++ "env" :: utilities.map Prod.fst
  ["/usr/bin", "/bin"].foldl (fun t dir =>
    names.foldl (fun t name =>
      match (putFile t ((Path.mk dir).join ⟨name⟩) (binary name) true) with
      | .ok made => made
      | .error _ => t) (t.makeDirectories ⟨dir⟩).1) t

end ReleaseMatrix.Shell
