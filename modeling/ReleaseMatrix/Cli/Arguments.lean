import ReleaseMatrix.Cli.Options

/- Reading the arguments of a call, from left to right. What comes first decides: a fault, or a
   wish for help or the version. -/
namespace ReleaseMatrix.Cli

inductive Flag where
  | verbose
  | quiet
  | force
  | dryRun
  | strict
  | skipChecks
  deriving DecidableEq, Repr

inductive Setting where
  | format
  | directory
  | config
  | index
  | version
  | output
  | configFormat
  deriving DecidableEq, Repr

inductive Switch where
  | flag (f : Flag)
  | setting (s : Setting)
  | help
  | version
  deriving DecidableEq, Repr

structure OptionName where
  short : Option Char
  long : String
  switch : Switch
  deriving DecidableEq, Repr

def commonOptions : List OptionName :=
  [⟨some 'v', "verbose", .flag .verbose⟩, ⟨some 'q', "quiet", .flag .quiet⟩,
    ⟨none, "format", .setting .format⟩, ⟨some 'C', "directory", .setting .directory⟩,
    ⟨some 'c', "config", .setting .config⟩, ⟨some 'h', "help", .help⟩,
    ⟨some 'V', "version", .version⟩]

def outputOption : OptionName := ⟨some 'o', "output", .setting .output⟩

def CommandName.ownOptions : CommandName → List OptionName
  | .build =>
    [⟨some 'i', "index", .setting .index⟩, ⟨none, "build-version", .setting .version⟩, outputOption,
      ⟨none, "dry-run", .flag .dryRun⟩, ⟨none, "strict", .flag .strict⟩,
      ⟨none, "skip-checks", .flag .skipChecks⟩]
  | .list => []
  | .init =>
    [⟨some 'f', "force", .flag .force⟩, ⟨none, "config-format", .setting .configFormat⟩, outputOption]
  | .validate => [⟨none, "strict", .flag .strict⟩]
  | .completions => [outputOption]

def format? : String → Option OutputFormat
  | "text" => some .text
  | "json" => some .json
  | _ => none

def configFormat? : String → Option ConfigFormat
  | "toml" => some .toml
  | "yaml" => some .yaml
  | _ => none

def index? (s : String) : Option Nat :=
  (Decimal.unsigned? 10 s.toList).filter (· ≤ Decimal.maxNat64)

def Setting.accepts : Setting → String → Bool
  | .format, s => (format? s).isSome
  | .configFormat, s => (configFormat? s).isSome
  | .index, s => (index? s).isSome
  | .version, _ => true
  | .directory, s => s != ""
  | .config, s => s != ""
  | .output, s => s != ""

inductive Stop where
  | fault
  | help
  | version
  deriving DecidableEq, Repr

/-- What has been read for the program or for a command. A value that stands in an argument of its
   own is looked at only when the next option comes. -/
structure Level where
  flags : List Flag := []
  settings : List (Setting × String) := []
  words : List String := []
  pending : Option (Setting × Option String) := none
  deriving DecidableEq, Repr

namespace Level

def set (l : Level) (s : Setting) (value : String) : Except Stop Level :=
  if l.settings.any (fun p => p.1 = s) || !s.accepts value then .error .fault
  else .ok { l with settings := (s, value) :: l.settings }

def settle (l : Level) : Except Stop Level :=
  match l.pending with
  | none => .ok l
  | some (_, none) => .error .fault
  | some (s, some value) => { l with pending := none }.set s value

def raise (l : Level) (f : Flag) : Except Stop Level := do
  let l ← l.settle
  if l.flags.contains f then throw .fault
  return { l with flags := f :: l.flags }

def await (l : Level) (s : Setting) : Except Stop Level := do
  let l ← l.settle
  return { l with pending := some (s, none) }

def assign (l : Level) (s : Setting) (value : String) : Except Stop Level := do
  let l ← l.settle
  l.set s value

def stop (l : Level) (why : Stop) : Except Stop Level := do
  let _ ← l.settle
  throw why

end Level

inductive Positionals where
  | command
  | nothing
  | shell
  deriving DecidableEq, Repr

def dropEquals : List Char → List Char
  | '=' :: cs => cs
  | cs => cs

def readShort (names : List OptionName) : Level → List Char → Except Stop Level
  | l, [] => .ok l
  | l, c :: cs =>
    match names.find? fun n => n.short == some c with
    | none => .error .fault
    | some n =>
      match n.switch with
      | .flag f => do readShort names (← l.raise f) cs
      | .help => l.stop .help
      | .version => l.stop .version
      | .setting s =>
        if cs.isEmpty then l.await s else l.assign s (String.ofList (dropEquals cs))

def readLong (names : List OptionName) (l : Level) (cs : List Char) : Except Stop Level :=
  let (name, value) := match Text.cut? '=' cs with
    | some (name, value) => (name, some (String.ofList value))
    | none => (cs, none)
  match names.find? fun n => n.long == String.ofList name with
  | none => .error .fault
  | some n =>
    match n.switch, value with
    | .setting s, some value => l.assign s value
    | .setting s, none => l.await s
    | .flag f, none => l.raise f
    | .help, none => l.stop .help
    | .version, none => l.stop .version
    | _, some _ => .error .fault

def looksLikeOption (arg : String) : Bool := arg.startsWith "-" && arg != "-"

def readWord (positionals : Positionals) (l : Level) (word : String) : Except Stop Level :=
  match positionals with
  | .shell => do
    let l ← l.settle
    if !l.words.isEmpty || (ShellName.ofText? word).isNone then throw .fault
    return { l with words := [word] }
  | _ => .error .fault

def readLevel (names : List OptionName) (positionals : Positionals) :
    Level → List String → Except Stop (Level × Option (String × List String))
  | l, [] => .ok (l, none)
  | l, arg :: rest =>
    let awaited := match l.pending with
      | some (s, none) => if looksLikeOption arg then none else some s
      | _ => none
    match awaited with
    | some s => readLevel names positionals { l with pending := some (s, some arg) } rest
    | none =>
      match arg.toList with
      | ['-', '-'] => do return (← rest.foldlM (readWord positionals) l, none)
      | '-' :: '-' :: cs => do readLevel names positionals (← readLong names l cs) rest
      | '-' :: c :: cs => do readLevel names positionals (← readShort names l (c :: cs)) rest
      | _ =>
        if positionals = .command then .ok (l, some (arg, rest))
        else do readLevel names positionals (← readWord positionals l arg) rest

def CommandName.positionals : CommandName → Positionals
  | .completions => .shell
  | _ => .nothing

def readCommand (name : CommandName) (args : List String) : Except Stop Level := do
  let (l, _) ← readLevel (commonOptions ++ name.ownOptions) name.positionals {} args
  l.settle

def readHelp : List String → Request
  | [] => .showHelp
  | [name] =>
    if name = "help" || (CommandName.ofText? name).isSome then .showHelp else .usageFault
  | _ => .usageFault

def Level.over (own outer : Level) : Level :=
  { own with
    flags := own.flags ++ outer.flags
    settings := own.settings ++ outer.settings }

namespace Level

def has (l : Level) (f : Flag) : Bool := l.flags.contains f

def value? (l : Level) (s : Setting) : Option String := (l.settings.find? fun p => p.1 = s).map Prod.snd

def path? (l : Level) (s : Setting) : Option Path := (l.value? s).map Path.mk

def globals (l : Level) : GlobalOptions :=
  ⟨l.has .verbose, l.has .quiet, ((l.value? .format).bind format?).getD .text,
    l.path? .directory, l.path? .config⟩

def command (l : Level) : CommandName → Command
  | .build =>
    .build ⟨(l.value? .index).bind index?, l.value? .version, l.path? .output, l.has .dryRun,
      l.has .strict, l.has .skipChecks⟩
  | .list => .list
  | .init =>
    .init ⟨l.has .force, ((l.value? .configFormat).bind configFormat?).getD .toml, l.path? .output⟩
  | .validate => .validate (l.has .strict)
  | .completions => .completions (l.words.head?.bind ShellName.ofText?) (l.path? .output)

end Level

def stopped (command : Option CommandName) : Stop → Request
  | .fault => .usageFault
  | .help => .showHelp
  | .version => .showVersion command

def readNamed (outer : Level) (name : CommandName) (args : List String) : Request :=
  match readCommand name args with
  | .error why => stopped (some name) why
  | .ok own =>
    match outer.settle with
    | .error why => stopped none why
    | .ok outer =>
      let all := own.over outer
      .run all.globals (all.command name)

def Request.ofArguments (args : List String) : Request :=
  match readLevel commonOptions .command {} args with
  | .error why => stopped none why
  | .ok (_, none) => .usageFault
  | .ok (outer, some (name, rest)) =>
    if name = "help" then readHelp rest
    else match CommandName.ofText? name with
      | none => .usageFault
      | some command => readNamed outer command rest

end ReleaseMatrix.Cli
