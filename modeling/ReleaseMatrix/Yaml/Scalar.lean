import ReleaseMatrix.Yaml.Cursor

/- The text of YAML scalars: plain, quoted, and in blocks. -/
namespace ReleaseMatrix.Yaml

structure Gap where
  broken : Bool := false
  spaces : List Char := []
  first : List Char := []
  more : List Char := []

def Gap.text (g : Gap) : List Char :=
  if !g.broken then g.spaces
  else if g.first == ['\n'] then (if g.more.isEmpty then [' '] else g.more)
  else g.first ++ g.more

def gapFuel (indent : Nat) : Nat → Gap → Cursor → Option (Gap × Cursor)
  | 0, g, cur => some (g, cur)
  | fuel + 1, g, cur =>
    match cur.rest with
    | [] => some (g, cur)
    | c :: _ =>
      if isBlank c then
        if g.broken && cur.column < indent && c == '\t' then none
        else
          let g := if g.broken then g else { g with spaces := g.spaces ++ [c] }
          gapFuel indent fuel g (cur.forward 1)
      else match lineBreak? cur.rest with
        | some (text, size) =>
          let g := if g.broken then { g with more := g.more ++ text }
            else { g with broken := true, spaces := [], first := text }
          gapFuel indent fuel g (cur.nextLine size)
        | none => some (g, cur)

def gap? (indent : Nat) (g : Gap) (cur : Cursor) : Option (Gap × Cursor) :=
  gapFuel indent (cur.rest.length + 1) g cur

/-- The characters of a plain scalar up to a blank or to what ends it. Between brackets a colon
   in front of a bracket or comma is refused. -/
def plainPart? (flow : Bool) : List Char → Option (List Char)
  | [] => some []
  | c :: rest =>
    let bracket (c : Char) : Bool :=
      c == ',' || c == '[' || c == ']' || c == '\x7b' || c == '\x7d'
    if isBlank c || isBreak c then some []
    else if flow && c == ':' && rest.head?.any (fun d => bracket d || d == '?') then none
    else if c == ':' && blankOrEnd rest then some []
    else if flow && bracket c then some []
    else (plainPart? flow rest).map (c :: ·)

structure PlainText where
  text : List Char
  after : Cursor
  broken : Bool

def plainFuel (flow : Bool) (indent : Nat) : Nat → List Char → Gap → Cursor → Option PlainText
  | 0, acc, g, cur => some ⟨acc, cur, g.broken⟩
  | fuel + 1, acc, g, cur =>
    if cur.atDocumentMark || cur.head? == some '#' then some ⟨acc, cur, g.broken⟩
    else match plainPart? flow cur.rest with
      | none => none
      | some part =>
        let acc := if part.isEmpty then acc else acc ++ g.text ++ part
        let broken := g.broken && part.isEmpty
        let cur := cur.forward part.length
        if cur.rest.isEmpty || !blankOrEnd cur.rest then some ⟨acc, cur, broken⟩
        else match gap? indent {} cur with
          | none => none
          | some (g, cur) =>
            if !flow && cur.column < indent then some ⟨acc, cur, g.broken⟩
            else plainFuel flow indent fuel acc g cur

def plain? (flow : Bool) (indent : Nat) (cur : Cursor) : Option PlainText :=
  plainFuel flow indent (cur.rest.length + 1) [] {} cur

def escapeChar? : Char → Option Char
  | '0' => some '\x00'
  | 'a' => some '\x07'
  | 'b' => some '\x08'
  | 't' => some '\t'
  | '\t' => some '\t'
  | 'n' => some '\n'
  | 'v' => some '\x0b'
  | 'f' => some '\x0c'
  | 'r' => some '\r'
  | 'e' => some '\x1b'
  | ' ' => some ' '
  | '"' => some '"'
  | '/' => some '/'
  | '\\' => some '\\'
  | 'N' => some '\x85'
  | '_' => some '\xa0'
  | 'L' => some '\u2028'
  | 'P' => some '\u2029'
  | _ => none

def escapeWidth? : Char → Option Nat
  | 'x' => some 2
  | 'u' => some 4
  | 'U' => some 8
  | _ => none

def escape? : List Char → Option (Char × Nat)
  | [] => none
  | c :: rest =>
    match escapeWidth? c with
    | none => (escapeChar? c).map fun e => (e, 1)
    | some width =>
      if rest.length < width then none
      else (Decimal.natural? 16 (rest.take width)).bind fun n =>
        if n.isValidChar then some (Char.ofNat n, width + 1) else none

def quotedPartFuel (single : Bool) : Nat → List Char → Cursor → Option (List Char × Cursor × Bool)
  | 0, _, _ => none
  | fuel + 1, acc, cur =>
    match cur.rest with
    | [] => some (acc.reverse, cur, false)
    | c :: rest =>
      if isBlank c || isBreak c then some (acc.reverse, cur, false)
      else if single then
        if c == '\'' then
          if rest.head? == some '\'' then quotedPartFuel single fuel ('\'' :: acc) (cur.forward 2)
          else some (acc.reverse, cur, false)
        else quotedPartFuel single fuel (c :: acc) (cur.forward 1)
      else if c == '"' then some (acc.reverse, cur, false)
      else if c == '\\' then
        match lineBreak? rest with
        | some (_, size) => some (acc.reverse, (cur.forward 1).nextLine size, true)
        | none =>
          match escape? rest with
          | none => none
          | some (e, size) => quotedPartFuel single fuel (e :: acc) (cur.forward (size + 1))
      else quotedPartFuel single fuel (c :: acc) (cur.forward 1)

def quotedFuel (single : Bool) : Nat → List Char → Cursor → Option (List Char × Cursor)
  | 0, _, _ => none
  | fuel + 1, acc, cur =>
    if cur.atDocumentMark || cur.rest.isEmpty then none
    else match quotedPartFuel single (cur.rest.length + 1) [] cur with
      | none => none
      | some (part, cur, joined) =>
        let acc := acc ++ part
        if cur.head? == some (if single then '\'' else '"') then some (acc, cur.forward 1)
        else match gap? 0 { broken := joined } cur with
          | none => none
          | some (g, cur) => quotedFuel single fuel (acc ++ g.text) cur

def quoted? (single : Bool) (cur : Cursor) : Option (List Char × Cursor) :=
  quotedFuel single (cur.rest.length + 1) [] cur

inductive Chomping where
  | strip
  | clip
  | keep
  deriving DecidableEq, Repr

structure BlockHeader where
  chomping : Chomping := .clip
  increment : Nat := 0

def chomping? : List Char → Option Chomping
  | '+' :: _ => some .keep
  | '-' :: _ => some .strip
  | _ => none

def increment? : List Char → Option (Option Nat)
  | c :: _ =>
    match Decimal.digit? c with
    | some 0 => none
    | some n => some (some n)
    | none => some none
  | [] => some none

def blockHeader? (cur : Cursor) : Option (BlockHeader × Cursor) :=
  match chomping? cur.rest with
  | some chomping =>
    let cur := cur.forward 1
    match increment? cur.rest with
    | none => none
    | some none => some (⟨chomping, 0⟩, cur)
    | some (some n) => some (⟨chomping, n⟩, cur.forward 1)
  | none =>
    match increment? cur.rest with
    | none => none
    | some none => some ({}, cur)
    | some (some n) =>
      let cur := cur.forward 1
      match chomping? cur.rest with
      | some chomping => some (⟨chomping, n⟩, cur.forward 1)
      | none => some (⟨.clip, n⟩, cur)

/-- Reads indentation and empty lines: the line breaks, the widest indentation met, and the place
   of the next text. An indentation of 0 is one that is not known yet. -/
def blockBreaksFuel (indent : Nat) :
    Nat → List Char → Nat → Cursor → Option (List Char × Nat × Cursor)
  | 0, breaks, widest, cur => some (breaks, widest, cur)
  | fuel + 1, breaks, widest, cur =>
    let spaces := (cur.rest.takeWhile (· == ' ')).length
    let cur := cur.forward (if indent = 0 then spaces else min spaces (indent - cur.column))
    let widest := max widest cur.column
    if (indent = 0 || cur.column < indent) && cur.head? == some '\t' then none
    else match lineBreak? cur.rest with
      | some (text, size) => blockBreaksFuel indent fuel (breaks ++ text) widest (cur.nextLine size)
      | none => some (breaks, widest, cur)

def blockBreaks? (indent : Nat) (cur : Cursor) : Option (List Char × Nat × Cursor) :=
  blockBreaksFuel indent (cur.rest.length + 1) [] 0 cur

/-- The lines of a block scalar. `first` is the break after the last line and `more` are those
   that follow it; `led` tells that the last line started with a blank. -/
structure BlockLines where
  text : List Char := []
  first : List Char := []
  more : List Char := []
  led : Bool := false

/-- A line break between two lines that start without a blank is folded. -/
def BlockLines.joint (b : BlockLines) (folded blankStart : Bool) : List Char :=
  if folded && b.first == ['\n'] && !b.led && !blankStart then
    if b.more.isEmpty then [' '] else b.more
  else b.first ++ b.more

def blockLinesFuel (folded : Bool) (indent : Nat) :
    Nat → BlockLines → Cursor → Option (BlockLines × Cursor)
  | 0, b, cur => some (b, cur)
  | fuel + 1, b, cur =>
    if cur.column ≠ indent || cur.rest.isEmpty then some (b, cur)
    else
      let blankStart := cur.head?.any isBlank
      let (line, cur) := cur.readWhile fun c => !isBreak c
      let text := b.text ++ b.joint folded blankStart ++ line
      let (first, cur) := match lineBreak? cur.rest with
        | some (br, size) => (br, cur.nextLine size)
        | none => ([], cur)
      match blockBreaks? indent cur with
      | none => none
      | some (more, _, cur) => blockLinesFuel folded indent fuel ⟨text, first, more, blankStart⟩ cur

def BlockLines.chomped (b : BlockLines) : Chomping → List Char
  | .strip => b.text
  | .clip => b.text ++ b.first
  | .keep => b.text ++ b.first ++ b.more

/-- The text of a block scalar after its indicator. `outer` is the indentation around it, less
   than zero at the top. -/
def block? (folded : Bool) (outer : Int) (cur : Cursor) : Option (List Char × Cursor) := do
  let (header, cur) ← blockHeader? cur
  let cur ← cur.endLine?
  let asked := if header.increment = 0 then 0 else (max outer 0).toNat + header.increment
  let (breaks, widest, cur) ← blockBreaks? asked cur
  let indent := if asked = 0 then max widest (max (outer + 1).toNat 1) else asked
  let (lines, cur) ← blockLinesFuel folded indent (cur.rest.length + 1) { more := breaks } cur
  some (lines.chomped header.chomping, cur)

end ReleaseMatrix.Yaml
