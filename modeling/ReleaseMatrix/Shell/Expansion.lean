import ReleaseMatrix.Shell.Arithmetic
import ReleaseMatrix.Shell.Lexer
import ReleaseMatrix.Shell.Pattern
import ReleaseMatrix.Shell.State

/- What words stand for: parameters, outputs of commands and numbers put in, then cut into fields
   at blanks, then matched against the names of files. -/
namespace ReleaseMatrix.Shell

inductive Origin where
  | written
  | expanded
  | quoted
  deriving DecidableEq, Repr

inductive Item where
  | char (c : Char) (origin : Origin)
  | cut
  | keep
  deriving DecidableEq, Repr

abbrev Expanding := StateT State (Except String)

abbrev Substitution := Nat → List Char → State → State × Bytes

def quoteItem : Item → Item
  | .char c _ => .char c .quoted
  | item => item

def valueItems (quoted : Bool) (value : List Char) : List Item :=
  if quoted then .keep :: value.map fun c => .char c .quoted
  else value.map fun c => .char c .expanded

def fieldItems (quoted : Bool) : List String → List Item
  | [] => []
  | [v] => valueItems quoted v.toList
  | v :: rest => valueItems quoted v.toList ++ .cut :: fieldItems quoted rest

def itemChars (items : List Item) : List Char :=
  items.filterMap fun item => match item with
    | .char c _ => some c
    | .cut => some ' '
    | .keep => none

def itemPattern (items : List Item) : Pattern :=
  items.filterMap fun item => match item with
    | .char c origin => some ⟨c, origin == .quoted⟩
    | _ => none

def isFieldBlank (c : Char) : Bool := c == ' ' || c == '\t' || c == '\n'

/-- Cuts items into fields at the separators. Of these, blanks in a row cut once, also around
    another separator, which by itself ends a field even if that is empty. `field` is the one that
    has begun, and `ended` says that blanks have just ended one. -/
def fieldsFrom (separators : List Char) (field : Option Pattern) (ended : Bool) :
    List Item → List Pattern
  | [] => field.toList
  | .keep :: rest => fieldsFrom separators (some (field.getD [])) false rest
  | .cut :: rest => field.toList ++ fieldsFrom separators none false rest
  | .char c origin :: rest =>
    if origin = .expanded && separators.contains c then
      if isFieldBlank c then
        field.toList ++ fieldsFrom separators none (ended || field.isSome) rest
      else
        let fields := if ended then [] else [field.getD []]
        fields ++ fieldsFrom separators none false rest
    else fieldsFrom separators (some (field.getD [] ++ [⟨c, origin == .quoted⟩])) false rest

def writtenText (bytes : Bytes) : List Char :=
  ((Utf8.decodeLossy bytes).toList.reverse.dropWhile (· == '\n')).reverse

def lookupNumber (s : State) (name : String) : Int :=
  ((s.parameter? name).bind fun v => Decimal.integer? (Text.trimList v.toList)).getD 0

def isMissing (colon : Bool) : Option String → Bool
  | none => true
  | some v => colon && v == ""

def expandWord (run : Substitution) : Nat → Word → Expanding (List Item)
  | 0, _ => throw "word too deep"
  | fuel + 1, w => do
    let mut items := []
    for part in w do
      items := items ++ (← expandPart fuel part)
    return items
where
  inner (fuel line : Nat) (quoted : Bool) (text : List Char) : Expanding (List Item) := do
    let items ← expandWord run fuel ((wordOf line quoted text).toOption.getD [.text text true])
    return if quoted then .keep :: items.map quoteItem else items
  value (s : State) (name : String) (quoted : Bool) : List Item :=
    if name = "@" ∨ (name = "*" ∧ !quoted) then fieldItems quoted s.args
    else valueItems quoted ((s.parameter? name).getD "").toList
  pattern (fuel line : Nat) (text : List Char) : Expanding Pattern := do
    return itemPattern (← inner fuel line false text)
  present (name : String) : Expanding State := do
    let s ← get
    if s.options.needsSet ∧ name ≠ "@" ∧ name ≠ "*" ∧ s.parameter? name = none then
      throw (name ++ ": parameter not set")
    return s
  text (name : String) : Expanding (List Char) := do
    return (((← present name).parameter? name).getD "").toList
  expandParameter (fuel line : Nat) (name : String) (quoted : Bool) :
      Treatment → Expanding (List Item)
    | .senseless => throw "Bad substitution"
    | .plain => do return value (← present name) name quoted
    | .length => do
      let s ← present name
      let size :=
        if name = "@" ∨ name = "*" then s.args.length else ((s.parameter? name).getD "").length
      return valueItems quoted (Decimal.digits size)
    | .default colon word => do
      if isMissing colon ((← get).parameter? name) then inner fuel line quoted word
      else return value (← get) name quoted
    | .assign colon word => do
      if isMissing colon ((← get).parameter? name) then
        let items ← inner fuel line quoted word
        modify fun s => s.set name (String.ofList (itemChars items))
      return value (← get) name quoted
    | .alternate colon word => do
      if isMissing colon ((← get).parameter? name) then return (if quoted then [.keep] else [])
      else inner fuel line quoted word
    | .demand colon word => do
      if isMissing colon ((← get).parameter? name) then
        let items ← inner fuel line true word
        let told := String.ofList (itemChars items)
        let missing := "parameter not set" ++ if colon then " or null" else ""
        throw (name ++ ": " ++ if told = "" then missing else told)
      return value (← get) name quoted
    | .cutStart longest p => do
      let p ← pattern fuel line p
      return valueItems quoted (cutStart longest p (← text name))
    | .cutEnd longest p => do
      let p ← pattern fuel line p
      return valueItems quoted (cutEnd longest p (← text name))
  expandPart (fuel : Nat) : Part → Expanding (List Item)
    | .text chars quoted =>
      if quoted then return .keep :: chars.map fun c => .char c .quoted
      else return chars.map fun c => .char c .written
    | .parameter line name treatment quoted => expandParameter fuel line name quoted treatment
    | .output line script quoted => do
      let (after, bytes) := run line script (← get)
      set after
      return valueItems quoted (writtenText bytes)
    | .arithmetic line expression quoted => do
      let items ← expandWord run fuel ((documentOf line expression).toOption.getD [])
      match Arithmetic.evaluate (lookupNumber (← get)) (itemChars items) with
      | some n => return valueItems quoted (Decimal.ofInt n).toList
      | none => throw ("arithmetic expression: expecting primary: \"" ++
          String.ofList expression ++ "\"")

def wordFuel : Nat := 64

def expandItems (run : Substitution) (w : Word) : Expanding (List Item) :=
  expandWord run wordFuel w

def expandText (run : Substitution) (w : Word) : Expanding String := do
  return String.ofList (itemChars (← expandItems run w))

def expandPattern (run : Substitution) (w : Word) : Expanding Pattern := do
  return itemPattern (← expandItems run w)

def splitPattern : Pattern → List Pattern
  | [] => [[]]
  | m :: rest =>
    match splitPattern rest with
    | piece :: more => if m.char = '/' then [] :: piece :: more else (m :: piece) :: more
    | [] => [[m]]

def startsWithDot (cs : List Char) : Bool := cs.head? == some '.'

def acceptsName (p : Pattern) (name : String) : Bool :=
  p.accepts name.toList && (!startsWithDot name.toList || startsWithDot (textOf p))

def filesFrom (t : FileTree) (base : Path) (shown : String) : List Pattern → List String
  | [] => []
  | p :: rest =>
    let names :=
      if hasWildcard p then
        match t.locate base with
        | .ok loc => if t.isDirectory base then (t.children loc).filter (acceptsName p) else []
        | .error _ => []
      else [String.ofList (textOf p)]
    names.flatMap fun name =>
      let path := if name = "" then base else base.join ⟨name⟩
      if rest.isEmpty then if t.exists? path then [shown ++ name] else []
      else filesFrom t path (shown ++ name ++ "/") rest

def fileNames (s : State) (p : Pattern) : List String :=
  let found :=
    if hasWildcard p && !s.options.noNames then
      match splitPattern p with
      | [] :: rest => filesFrom s.tree ⟨"/"⟩ "/" rest
      | pieces => filesFrom s.tree s.directory "" pieces
    else []
  if found.isEmpty then [String.ofList (textOf p)] else found

def expandFields (run : Substitution) (words : List Word) : Expanding (List String) := do
  let mut fields := []
  for w in words do
    let items ← expandItems run w
    let s ← get
    fields := fields ++ (fieldsFrom s.separators none false items).flatMap (fileNames s)
  return fields

end ReleaseMatrix.Shell
