import ReleaseMatrix.Shell.Condition
import ReleaseMatrix.Shell.Printing

/- The programs for files and texts that scripts rely on. -/
namespace ReleaseMatrix.Shell

abbrev Utility := List String → State → State

def splitOptions : List String → List Char × List String
  | [] => ([], [])
  | arg :: rest =>
    match arg.toList with
    | ['-', '-'] => ([], rest)
    | '-' :: c :: cs =>
      let (letters, rest) := splitOptions rest
      (c :: cs ++ letters, rest)
    | _ => ([], arg :: rest)

def report (s : State) (program detail : String) : State := s.fail 1 (program ++ ": " ++ detail)

def quoted (path : String) : String := "'" ++ path ++ "'"

def change (s : State) (program attempt : String) (result : Except IoError FileTree) : State :=
  match result with
  | .ok tree => { s with tree := tree }
  | .error e => report s program (attempt ++ ": " ++ errorText e)

def contentOf (s : State) (path : String) : Except IoError Bytes :=
  if path = "-" then .ok s.input
  else if path = "/dev/null" then .ok []
  else s.tree.read (s.resolve path)

def inputsOf (paths : List String) : List String := if paths.isEmpty then ["-"] else paths

def useInput (s : State) (path : String) : State := if path = "-" then { s with input := [] } else s

def cat : Utility := fun args s =>
  let (_, paths) := splitOptions args
  (inputsOf paths).foldl (fun s path =>
    match contentOf s path with
    | .ok bytes => (useInput s path).emit 1 bytes
    | .error e => report s "cat" (path ++ ": " ++ errorText e)) s.done

def mkdir : Utility := fun args s =>
  let (options, paths) := splitOptions args
  paths.foldl (fun s path =>
    let attempt := "cannot create directory " ++ quoted path
    if options.contains 'p' then
      match s.tree.makeDirectories (s.resolve path) with
      | (tree, none) => { s with tree := tree }
      | (tree, some e) => report { s with tree := tree } "mkdir" (attempt ++ ": " ++ errorText e)
    else change s "mkdir" attempt (s.tree.makeDirectory (s.resolve path))) s.done

def eraseTree (t : FileTree) (p : Path) : Except IoError FileTree :=
  match t.open? p, t.locate p with
  | .error e, _ => .error e
  | _, .error e => .error e
  | .ok _, .ok loc => .ok (t.eraseAll loc)

def rm : Utility := fun args s =>
  let (options, paths) := splitOptions args
  let force := options.contains 'f'
  let deep := options.contains 'r' || options.contains 'R'
  paths.foldl (fun s path =>
    let p := s.resolve path
    if force && !s.tree.exists? p then s
    else
      let result := if deep then eraseTree s.tree p else s.tree.remove p
      change s "rm" ("cannot remove " ++ quoted path) result) s.done

def rmdir : Utility := fun args s =>
  let (_, paths) := splitOptions args
  paths.foldl (fun s path =>
    let p := s.resolve path
    let result : Except IoError FileTree :=
      match s.tree.open? p, s.tree.locate p with
      | .ok .directory, .ok loc =>
        if (s.tree.children loc).isEmpty then .ok (s.tree.erase loc) else .error .notEmpty
      | .ok _, _ => .error .notDirectory
      | .error e, _ => .error e
    change s "rmdir" ("failed to remove " ++ quoted path) result) s.done

def placeIn (s : State) (target source : String) : Path :=
  let p := s.resolve target
  if s.tree.isDirectory p then p.join ⟨((Path.mk source).fileName).getD source⟩ else p

def putFile (t : FileTree) (p : Path) (content : Bytes) (executable : Bool) :
    Except IoError FileTree :=
  let isNew := !t.exists? p
  match t.write p content with
  | .error e => .error e
  | .ok made =>
    match made.locate p with
    | .ok loc => .ok (if isNew then made.put loc (.file content executable) else made)
    | .error e => .error e

def graft (t : FileTree) (source target : Location) : FileTree :=
  t.toList.foldl (fun t e =>
    if source.isSuffixOf e.1 then
      t.put (e.1.take (e.1.length - source.length) ++ target) e.2
    else t) t

def copyEntry (deep : Bool) (t : FileTree) (source target : Path) : Except IoError FileTree :=
  match t.open? source with
  | .error e => .error e
  | .ok (.file content executable) => putFile t target content executable
  | .ok .directory =>
    if !deep then .error .isDirectory
    else match t.locate source, t.locate target with
      | .ok a, .ok b => .ok (graft t a b)
      | .error e, _ => .error e
      | _, .error e => .error e

def moveEntry (t : FileTree) (source target : Path) : Except IoError FileTree :=
  match t.open? source, t.locate source, t.locate target with
  | .ok .directory, .ok a, .ok b => .ok ((graft t a b).eraseAll a)
  | .ok _, _, _ => t.rename source target
  | .error e, _, _ => .error e

def transferFault (program : String) (t : FileTree) (source : Path) (target : Path) (name : String)
    (e : IoError) : String :=
  match t.open? source with
  | .error _ => "cannot stat " ++ quoted name ++ ": " ++ errorText e
  | .ok .directory => "-r not specified; omitting directory " ++ quoted name
  | .ok _ =>
    if program = "cp" then
      "cannot create regular file " ++ quoted target.text ++ ": " ++ errorText e
    else "cannot move " ++ quoted name ++ " to " ++ quoted target.text ++ ": " ++ errorText e

def transfer (program : String) (act : FileTree → Path → Path → Except IoError FileTree) :
    Utility := fun args s =>
  let (_, paths) := splitOptions args
  match paths.reverse with
  | target :: last :: before =>
    (last :: before).reverse.foldl (fun s name =>
      let source := s.resolve name
      let place := placeIn s target name
      match act s.tree source place with
      | .ok tree => { s with tree := tree }
      | .error e =>
        let shown := if s.tree.isDirectory (s.resolve target) then (Path.mk target).join ⟨name⟩
          else ⟨target⟩
        report s program (transferFault program s.tree source shown name e)) s.done
  | _ => report s program "missing file operand"

def cp : Utility := fun args s =>
  let options := (splitOptions args).1
  let deep := options.any fun c => c == 'r' || c == 'R' || c == 'a'
  transfer "cp" (copyEntry deep) args s

def mv : Utility := fun args s => transfer "mv" moveEntry args s

def touch : Utility := fun args s =>
  let (_, paths) := splitOptions args
  paths.foldl (fun s path =>
    let p := s.resolve path
    if s.tree.exists? p then s
    else change s "touch" ("cannot touch " ++ quoted path) (s.tree.write p [])) s.done

def modeRuns? (mode : String) : Option Bool :=
  match Decimal.natural? 8 mode.toList with
  | some n => some (n / 64 % 2 == 1)
  | none =>
    let who := mode.toList.takeWhile fun c => "ugoa".toList.contains c
    let concerned := who.isEmpty || who.contains 'u' || who.contains 'a'
    match mode.toList.drop who.length with
    | sign :: letters =>
      if !concerned then none
      else if sign = '=' then some (letters.contains 'x')
      else if letters.contains 'x' then some (sign == '+')
      else none
    | [] => none

def chmod : Utility := fun args s =>
  match args with
  | mode :: paths =>
    paths.foldl (fun s path =>
      let p := s.resolve path
      match s.tree.open? p, s.tree.locate p with
      | .ok (.file content executable), .ok loc =>
        { s with tree := s.tree.put loc (.file content ((modeRuns? mode).getD executable)) }
      | .ok _, _ => s
      | .error e, _ => report s "chmod" ("cannot access " ++ quoted path ++ ": " ++ errorText e)) s.done
  | [] => report s "chmod" "missing operand"

def ls : Utility := fun args s =>
  let (options, paths) := splitOptions args
  (if paths.isEmpty then ["."] else paths).foldl (fun s path =>
    let p := s.resolve path
    match s.tree.open? p, s.tree.locate p with
    | .ok .directory, .ok loc =>
      let all := options.contains 'a'
      let names := (if all then [".", ".."] else []) ++
        (s.tree.children loc).filter fun n => all || !n.startsWith "."
      s.print (String.join (names.map fun n => n ++ "\n"))
    | .ok _, _ => s.print (path ++ "\n")
    | .error e, _ =>
      s.fail 2 ("ls: cannot access " ++ quoted path ++ ": " ++ errorText e)) s.done

def tee : Utility := fun args s =>
  let (_, paths) := splitOptions args
  let bytes := s.input
  paths.foldl (fun s path => change s "tee" path (s.tree.write (s.resolve path) bytes))
    ({ s with input := [] }.emit 1 bytes).done

def basename : Utility := fun args s =>
  match args with
  | path :: ending =>
    let name := ((Path.mk path).components.getLast?.map Path.Component.text).getD ""
    let suffix := (ending.head?.getD "").toList
    let cs := name.toList
    let cut := if suffix.isSuffixOf cs && suffix.length < cs.length
      then cs.take (cs.length - suffix.length) else cs
    (s.print (String.ofList cut ++ "\n")).done
  | [] => report s "basename" "missing operand"

def dirname : Utility := fun args s =>
  match args with
  | path :: _ =>
    let dir := (((Path.mk path).parent).map Path.text).getD path
    (s.print ((if dir = "" then "." else dir) ++ "\n")).done
  | [] => report s "dirname" "missing operand"

/-- Where a shell keeps a variable: by a sum over the bytes of the name. -/
def shelf (name : String) : Nat :=
  let bytes := (Utf8.encode name).map UInt8.toNat
  bytes.foldl (· + ·) (16 * bytes.headD 0) % 39

def listed (e : Environment) : List (String × String) :=
  e.toList.mergeSort fun a b => shelf a.1 ≤ shelf b.1

def printEnvironment (e : Environment) (s : State) : State :=
  (s.print (String.join ((listed e).map fun v => v.1 ++ "=" ++ v.2 ++ "\n"))).done

def environmentFor (e : Environment) : List String → Environment × List String
  | [] => (e, [])
  | "-u" :: name :: rest => environmentFor (e.unset name) rest
  | arg :: rest =>
    if arg = "-i" ∨ arg = "-" then environmentFor ∅ rest
    else match Text.cut? '=' arg.toList with
      | some (name, value) =>
        environmentFor (e.set (String.ofList name) (String.ofList value)) rest
      | none => (e, arg :: rest)

def printVariables : Utility := fun args s =>
  match args with
  | [] => printEnvironment s.environment s
  | names =>
    let values := names.filterMap s.environment.get?
    let s := s.print (String.join (values.map (· ++ "\n")))
    { s with status := if values.length = names.length then 0 else 1 }

end ReleaseMatrix.Shell
