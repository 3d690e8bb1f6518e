import ReleaseMatrix.Host.Basic
import ReleaseMatrix.FileTree.Change
import ReleaseMatrix.Shell.Script

/- The state of a running shell. -/
namespace ReleaseMatrix.Shell

inductive Sink where
  | out
  | err
  | captured
  | file (loc : Location)
  | nowhere
  deriving DecidableEq, Repr

structure Options where
  strict : Bool := false
  needsSet : Bool := false
  traced : Bool := false
  noNames : Bool := false

structure State where
  tree : FileTree
  directory : Path
  vars : Environment
  exported : List String
  name : String
  reader : String
  args : List String
  functions : List (String × Command)
  depth : Nat
  loops : Nat
  /-- the variables that the present function has of its own, with what they hid -/
  hidden : List (String × Option String)
  traps : List (Nat × String)
  status : Nat
  input : Bytes
  /-- what has been written, the last byte first -/
  out : Bytes
  err : Bytes
  captured : Bytes
  sinks : List (Nat × Sink)
  options : Options

namespace State

def standardSinks : List (Nat × Sink) := [(1, .out), (2, .err)]

def standardVariables : List (String × String) := [("IFS", " \t\n"), ("OPTIND", "1")]

def start (p : Process) (name : String) (args : List String) (t : FileTree) : State :=
  { tree := t
    directory := p.directory
    vars := p.env
    exported := p.env.toList.map Prod.fst
    name := name
    reader := ""
    args := args
    functions := []
    depth := 0
    loops := 0
    hidden := []
    traps := []
    status := 0
    input := p.input
    out := []
    err := []
    captured := []
    sinks := standardSinks
    options := {} }

def sink (s : State) (descriptor : Nat) : Sink := (s.sinks.lookup descriptor).getD .nowhere

def bind (s : State) (descriptor : Nat) (sink : Sink) : State :=
  { s with sinks := (descriptor, sink) :: s.sinks }

def append (t : FileTree) (loc : Location) (bytes : Bytes) : FileTree :=
  match t.entry? loc with
  | some (.file content executable) => t.put loc (.file (content ++ bytes) executable)
  | _ => t

def emitTo (s : State) (bytes : Bytes) : Sink → State
  | .out => { s with out := bytes.reverse ++ s.out }
  | .err => { s with err := bytes.reverse ++ s.err }
  | .captured => { s with captured := bytes.reverse ++ s.captured }
  | .file loc => { s with tree := append s.tree loc bytes }
  | .nowhere => s

def emit (s : State) (descriptor : Nat) (bytes : Bytes) : State :=
  s.emitTo bytes (s.sink descriptor)

def print (s : State) (text : String) : State := s.emit 1 (Utf8.encode text)

def fail (s : State) (status : Nat) (message : String) : State :=
  { s.emit 2 (Utf8.encode (message ++ "\n")) with status := status }

def done (s : State) : State := { s with status := 0 }

def complain (s : State) (line status : Nat) (message : String) : State :=
  s.fail status (s.name ++ ": " ++ Decimal.ofNat line ++ ": " ++ message)

def refuse (s : State) (line status : Nat) (message : String) : State :=
  s.complain line status (s.reader ++ message)

def resolve (s : State) (path : String) : Path := if path = "" then ⟨""⟩ else s.directory.join ⟨path⟩

def set (s : State) (name value : String) : State := { s with vars := s.vars.set name value }

def unset (s : State) (name : String) : State :=
  { s with vars := s.vars.unset name, exported := s.exported.filter (· != name) }

def share (s : State) (name : String) : State :=
  if s.exported.contains name then s else { s with exported := name :: s.exported }

def setShared (s : State) (name value : String) : State := (s.set name value).share name

def reset (s : State) (name : String) : Option String → State
  | some value => s.set name value
  | none => { s with vars := s.vars.unset name }

def resetAll (s : State) (before : List (String × Option String)) : State :=
  before.foldl (fun s v => s.reset v.1 v.2) s

def turn (s : State) (on : Bool) (letters : List Char) : State :=
  let o := s.options
  { s with options :=
    { strict := if letters.contains 'e' then on else o.strict
      needsSet := if letters.contains 'u' then on else o.needsSet
      traced := if letters.contains 'x' then on else o.traced
      noNames := if letters.contains 'f' then on else o.noNames } }

def environment (s : State) : Environment :=
  .ofList (s.vars.toList.filter fun v => s.exported.contains v.1)

def processNumber : String := "4242"

def optionLetters (o : Options) : String :=
  String.ofList ([(o.needsSet, 'u'), (o.traced, 'x'), (o.noNames, 'f'), (o.strict, 'e')].filterMap
    fun p => if p.1 then some p.2 else none)

def separators (s : State) : List Char := ((s.vars.get? "IFS").getD " \t\n").toList

def parameter? (s : State) (name : String) : Option String :=
  match name with
  | "#" => some (Decimal.ofNat s.args.length)
  | "?" => some (Decimal.ofNat s.status)
  | "$" => some processNumber
  | "0" => some s.name
  | "-" => some (optionLetters s.options)
  | "!" => none
  | "@" => if s.args.isEmpty then none else some (Text.joinWith " " s.args)
  | "*" =>
    if s.args.isEmpty then none
    else some (Text.joinWith (String.ofList (s.separators.take 1)) s.args)
  | _ =>
    match Decimal.natural? 10 name.toList with
    | some n => s.args[n - 1]?
    | none => s.vars.get? name

end State

def errorText (e : IoError) : String :=
  match Text.cut? '(' e.message.toList with
  | some (told, _) => String.ofList (Text.trimRight told)
  | none => e.message

def openingText (missing : String) : IoError → String
  | .notFound => missing
  | .notDirectory => missing
  | e => errorText e

end ReleaseMatrix.Shell
