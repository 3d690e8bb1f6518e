import ReleaseMatrix.Shell.State

/- Conditions on texts, numbers and files. -/
namespace ReleaseMatrix.Shell

abbrev Verdict := Except String Bool

def number (s : String) : Except String Int :=
  match Decimal.integer? (Text.trimList s.toList) with
  | some n => .ok n
  | none => .error ("Illegal number: " ++ s)

def compareNumbers (a b : String) (f : Int → Int → Bool) : Verdict := do
  return f (← number a) (← number b)

def binaryTest? (op : String) : Option (String → String → Verdict) :=
  match op with
  | "=" => some fun a b => .ok (a == b)
  | "!=" => some fun a b => .ok (a != b)
  | "-eq" => some fun a b => compareNumbers a b (· == ·)
  | "-ne" => some fun a b => compareNumbers a b (· != ·)
  | "-lt" => some fun a b => compareNumbers a b (· < ·)
  | "-le" => some fun a b => compareNumbers a b (· ≤ ·)
  | "-gt" => some fun a b => compareNumbers a b (· > ·)
  | "-ge" => some fun a b => compareNumbers a b (· ≥ ·)
  | _ => none

def unaryTest? (s : State) (op : String) : Option (String → Bool) :=
  let file (f : Path → Bool) : Option (String → Bool) := some fun p => f (s.resolve p)
  match op with
  | "-n" => some (· != "")
  | "-z" => some (· == "")
  | "-e" => file s.tree.exists?
  | "-f" => file s.tree.isFile
  | "-d" => file s.tree.isDirectory
  | "-r" => file s.tree.exists?
  | "-w" => file s.tree.exists?
  | "-x" => file fun p => s.tree.isExecutable p || s.tree.isDirectory p
  | "-s" => file fun p =>
    match s.tree.open? p with
    | .ok e => 0 < e.size
    | .error _ => false
  | "-h" => some fun _ => false
  | "-L" => some fun _ => false
  | "-t" => some fun _ => false
  | _ => none

mutual

def anyOf (s : State) : Nat → List String → Except String (Bool × List String)
  | 0, _ => .error "argument expected"
  | fuel + 1, args => do
    let (b, rest) ← allOf s fuel args
    match rest with
    | "-o" :: rest =>
      let (c, rest) ← anyOf s fuel rest
      return (b || c, rest)
    | rest => return (b, rest)

def allOf (s : State) : Nat → List String → Except String (Bool × List String)
  | 0, _ => .error "argument expected"
  | fuel + 1, args => do
    let (b, rest) ← single s fuel args
    match rest with
    | "-a" :: rest =>
      let (c, rest) ← allOf s fuel rest
      return (b && c, rest)
    | rest => return (b, rest)

def single (s : State) : Nat → List String → Except String (Bool × List String)
  | 0, _ => .error "argument expected"
  | fuel + 1, args => do
    match args with
    | a :: op :: b :: rest =>
      match binaryTest? op with
      | some f => return (← f a b, rest)
      | none => lone s fuel args
    | _ => lone s fuel args

def lone (s : State) : Nat → List String → Except String (Bool × List String)
  | 0, _ => .error "argument expected"
  | fuel + 1, args => do
    match args with
    | [] => .error "argument expected"
    | [a] => return (a != "", [])
    | a :: b :: rest =>
      if a = "!" then
        let (c, rest) ← single s fuel (b :: rest)
        return (!c, rest)
      else if a = "(" then
        let (c, rest) ← anyOf s fuel (b :: rest)
        match rest with
        | ")" :: rest => return (c, rest)
        | _ => .error "closing paren expected"
      else match unaryTest? s a with
        | some f => return (f b, rest)
        | none => return (a != "", b :: rest)

end

def condition (s : State) (args : List String) : Verdict :=
  if args.isEmpty then .ok false
  else do
    let (b, rest) ← anyOf s (8 * (args.length + 1)) args
    match rest with
    | [] => return b
    | a :: _ => .error (a ++ ": unexpected operator")

/-- Status 0 where a condition holds, 1 where it does not, 2 where there is none. -/
def test (line : Nat) (name : String) (args : List String) (s : State) : State :=
  match condition s args with
  | .ok b => { s with status := if b then 0 else 1 }
  | .error e => s.complain line 2 (name ++ ": " ++ e)

def bracketTest (line : Nat) (args : List String) (s : State) : State :=
  if args.getLast? = some "]" then test line "[" args.dropLast s
  else s.complain line 2 "[: missing ]"

end ReleaseMatrix.Shell
