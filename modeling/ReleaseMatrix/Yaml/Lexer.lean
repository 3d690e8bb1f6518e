import ReleaseMatrix.Text.Utf8
import ReleaseMatrix.Yaml.Basic
import ReleaseMatrix.Yaml.Scalar

/- Cutting a YAML text into tokens. The ends of indented blocks are tokens, and a key that is
   known as one only by the colon after it gets its token put in front of it then. -/
namespace ReleaseMatrix.Yaml

structure PossibleKey where
  number : Nat
  index : Nat
  line : Nat
  column : Nat
  required : Bool
  deriving Repr

structure Lexer where
  cursor : Cursor
  tokens : List Token := []
  indent : Int := -1
  outer : List Int := []
  keys : List (Option PossibleKey) := [none]
  keyAllowed : Bool := true
  finished : Bool := false

namespace Lexer

def inFlow (l : Lexer) : Bool := 1 < l.keys.length

def emit (l : Lexer) (t : Token) : Lexer := { l with tokens := t :: l.tokens }

def insert (l : Lexer) (number : Nat) (t : Token) : Lexer :=
  let (late, early) := l.tokens.splitAt (l.tokens.length - number)
  { l with tokens := late ++ t :: early }

def move (l : Lexer) (cur : Cursor) : Lexer := { l with cursor := cur }

def dropKey (l : Lexer) : Option Lexer :=
  match l.keys with
  | some key :: rest => if key.required then none else some { l with keys := none :: rest }
  | _ => some l

def keyLimit : Nat := 1024

def isStale (l : Lexer) (key : PossibleKey) : Bool :=
  key.line < l.cursor.line || key.index + keyLimit < l.cursor.index

def dropStale (l : Lexer) : Option Lexer :=
  let stale := l.keys.filterMap fun key => key.filter l.isStale
  if stale.any PossibleKey.required then none
  else some { l with keys := l.keys.map fun key => key.filter fun k => !l.isStale k }

def noteKey (l : Lexer) : Option Lexer :=
  if l.keyAllowed then
    l.dropKey.map fun l =>
      let cur := l.cursor
      let required := !l.inFlow && l.indent == cur.column
      let key : PossibleKey := ⟨l.tokens.length, cur.index, cur.line, cur.column, required⟩
      { l with keys := some key :: l.keys.tail }
  else some l

def openBlock (l : Lexer) (column number : Nat) (t : Token) : Lexer :=
  if l.inFlow || column ≤ l.indent then l
  else { l.insert number t with indent := column, outer := l.indent :: l.outer }

def closeBlocksFrom (column : Int) : List Int → Lexer → Lexer
  | [], l => l
  | up :: outer, l =>
    if l.indent ≤ column then l
    else closeBlocksFrom column outer { l.emit .blockEnd with indent := up, outer := outer }

def closeBlocks (l : Lexer) (column : Int) : Lexer :=
  if l.inFlow then l else closeBlocksFrom column l.outer l

/-- To the next token, past blanks, comments and line ends. A tab does not indent: outside of
   brackets it is passed over only where no key can start. -/
def skipFillFuel : Nat → Lexer → Lexer
  | 0, l => l
  | fuel + 1, l =>
    let tabs := l.inFlow || !l.keyAllowed
    let cur := (l.cursor.skipWhile fun c => c == ' ' || (tabs && c == '\t')).skipComment
    match lineBreak? cur.rest with
    | some (_, size) =>
      skipFillFuel fuel
        { l with cursor := cur.nextLine size, keyAllowed := l.keyAllowed || !l.inFlow }
    | none => l.move cur

def skipFill (l : Lexer) : Lexer := skipFillFuel (l.cursor.rest.length + 1) l

def isUriChar (brackets : Bool) (c : Char) : Bool :=
  isWordChar c || ";/?:@&=+$.%!~*'()".toList.contains c ||
    (brackets && (c == ',' || c == '[' || c == ']'))

def uriByte? : List Char → Option (UInt8 × List Char)
  | '%' :: a :: b :: rest => (Decimal.natural? 16 [a, b]).map fun n => (n.toUInt8, rest)
  | _ => none

def uriEscape? (cs : List Char) : Option (Char × List Char) :=
  (uriByte? cs).bind fun (b, rest) =>
    if b < 0x80 then some (Char.ofNat b.toNat, rest)
    else (Utf8.lead? b).bind fun (_, _, more) =>
      let step (acc : Option (Bytes × List Char)) (_ : Nat) : Option (Bytes × List Char) :=
        acc.bind fun (bytes, rest) => (uriByte? rest).map fun (c, rest) => (bytes ++ [c], rest)
      ((List.range more).foldl step (some ([b], rest))).bind fun (bytes, rest) =>
        (Utf8.decode? bytes).bind fun s => s.toList.head?.map fun c => (c, rest)

def uriFuel (brackets : Bool) : Nat → List Char → Option (List Char × Nat)
  | 0, _ => some ([], 0)
  | fuel + 1, cs =>
    match cs with
    | [] => some ([], 0)
    | c :: rest =>
      if !isUriChar brackets c then some ([], 0)
      else if c == '%' then
        (uriEscape? cs).bind fun (c, after) =>
          (uriFuel brackets fuel after).map fun (text, size) =>
            (c :: text, size + (cs.length - after.length))
      else (uriFuel brackets fuel rest).map fun (text, size) => (c :: text, size + 1)

def uri? (brackets : Bool) (cur : Cursor) : Option (String × Cursor) :=
  (uriFuel brackets (cur.rest.length + 1) cur.rest).map fun (text, size) =>
    (String.ofList text, cur.forward size)

def handle? (cur : Cursor) : Option (String × Cursor) :=
  if cur.head? = some '!' then
    let (word, cur) := (cur.forward 1).readWhile isWordChar
    if cur.head? = some '!' then some (String.ofList ('!' :: word ++ ['!']), cur.forward 1)
    else some (String.ofList ('!' :: word), cur)
  else none

def isFullHandle (handle : String) : Bool :=
  handle == "!" || (2 ≤ handle.length && handle.toList.getLast? == some '!')

def tagDirective? (cur : Cursor) : Option (Token × Cursor) := do
  let (handle, cur) ← handle? cur.skipBlanks
  if !isFullHandle handle then none
  if !cur.head?.any isBlank then none
  let (text, cur) ← uri? true cur.skipBlanks
  if text = "" || !blankOrEnd cur.rest then none
  some (.tagPrefix handle text, cur)

def versionNumber? (cur : Cursor) : Option (List Char × Cursor) :=
  let (ds, cur) := cur.readWhile fun c => (Decimal.digit? c).isSome
  if ds.isEmpty || 9 < ds.length then none else some (ds, cur)

def versionDirective? (cur : Cursor) : Option (Token × Cursor) := do
  let (major, cur) ← versionNumber? cur.skipBlanks
  if cur.head? ≠ some '.' then none
  let (minor, cur) ← versionNumber? (cur.forward 1)
  some (.version major minor, cur)

def directive? (cur : Cursor) : Option (Token × Cursor) := do
  let (name, cur) := (cur.forward 1).readWhile isWordChar
  if !blankOrEnd cur.rest then none
  let (t, cur) ← if name = "YAML".toList then versionDirective? cur
    else if name = "TAG".toList then tagDirective? cur
    else none
  let cur ← cur.endLine?
  some (t, cur)

def endsName (cs : List Char) : Bool :=
  blankOrEnd cs || cs.head?.any fun c => "?:,]\x7d%@`".toList.contains c

def name? (cur : Cursor) : Option (String × Cursor) :=
  let (name, cur) := (cur.forward 1).readWhile isWordChar
  if name.isEmpty || !endsName cur.rest then none else some (String.ofList name, cur)

def tagParts? (cur : Cursor) : Option ((String × String) × Cursor) :=
  match cur.rest with
  | '!' :: '<' :: _ => do
    let (text, cur) ← uri? true (cur.forward 2)
    if text = "" || cur.head? ≠ some '>' then none
    some (("", text), cur.forward 1)
  | _ => do
    let (handle, cur) ← handle? cur
    if handle ≠ "!" && isFullHandle handle then
      let (text, cur) ← uri? false cur
      if text = "" then none
      some ((handle, text), cur)
    else
      let (text, cur) ← uri? false cur
      let text := String.ofList (handle.toList.drop 1) ++ text
      some (if text = "" then ("", "!") else ("!", text), cur)

def tag? (flow : Bool) (cur : Cursor) : Option (Token × Cursor) := do
  let ((handle, text), cur) ← tagParts? cur
  if (flow && cur.head? = some ',') || blankOrEnd cur.rest then some (.tag handle text, cur) else none

def mark (l : Lexer) (t : Token) : Lexer := (l.emit t).move (l.cursor.forward 1)

def openFlow (l : Lexer) (t : Token) : Option Lexer :=
  l.noteKey.map fun l => { l.mark t with keys := none :: l.keys, keyAllowed := true }

def closeFlow (l : Lexer) (t : Token) : Option Lexer :=
  l.dropKey.map fun l =>
    { l.mark t with keys := if l.inFlow then l.keys.tail else l.keys, keyAllowed := false }

def flowEntry (l : Lexer) : Option Lexer :=
  l.dropKey.map fun l => { l.mark .flowEntry with keyAllowed := true }

def startEntry (l : Lexer) (block : Token) : Option Lexer :=
  if l.inFlow then some l
  else if l.keyAllowed then some (l.openBlock l.cursor.column l.tokens.length block)
  else none

def blockEntry (l : Lexer) : Option Lexer :=
  (l.startEntry .blockSequenceStart).bind fun l =>
    l.dropKey.map fun l => { l.mark .blockEntry with keyAllowed := true }

def explicitKey (l : Lexer) : Option Lexer :=
  (l.startEntry .blockMappingStart).bind fun l =>
    l.dropKey.map fun l => { l.mark .key with keyAllowed := !l.inFlow }

def value (l : Lexer) : Option Lexer :=
  match l.keys with
  | some key :: rest =>
    let l := (l.insert key.number .key).openBlock key.column key.number .blockMappingStart
    some { l.mark .value with keys := none :: rest, keyAllowed := false }
  | _ =>
    (l.startEntry .blockMappingStart).map fun l =>
      { l.mark .value with keyAllowed := !l.inFlow }

def keyPart (l : Lexer) (read : Cursor → Option (Token × Cursor)) : Option Lexer :=
  l.noteKey.bind fun l =>
    (read l.cursor).map fun (t, cur) => { (l.emit t).move cur with keyAllowed := false }

def quotedScalar (l : Lexer) (single : Bool) : Option Lexer :=
  l.keyPart fun cur =>
    (quoted? single (cur.forward 1)).map fun (text, cur) =>
      (.scalar .quoted (String.ofList text), cur)

def plainScalar (l : Lexer) : Option Lexer :=
  l.noteKey.bind fun l =>
    (plain? l.inFlow (l.indent + 1).toNat l.cursor).map fun p =>
      { (l.emit (.scalar .plain (String.ofList p.text))).move p.after with keyAllowed := p.broken }

def blockScalar (l : Lexer) (folded : Bool) : Option Lexer :=
  l.dropKey.bind fun l =>
    (block? folded l.indent (l.cursor.forward 1)).map fun (text, cur) =>
      let t := Token.scalar (if folded then .folded else .literal) (String.ofList text)
      { (l.emit t).move cur with keyAllowed := true }

def leaveBlocks (l : Lexer) : Option Lexer :=
  (l.closeBlocks (-1)).dropKey.map fun l => { l with keyAllowed := false }

def documentMark (l : Lexer) (t : Token) : Option Lexer :=
  l.leaveBlocks.map fun l => (l.emit t).move (l.cursor.forward 3)

def directive (l : Lexer) : Option Lexer :=
  l.leaveBlocks.bind fun l =>
    (directive? l.cursor).map fun (t, cur) => (l.emit t).move cur

def finish (l : Lexer) : Option Lexer :=
  l.leaveBlocks.map fun l => { l with finished := true }

def startsPlain (flow : Bool) : List Char → Bool
  | [] => false
  | c :: rest =>
    !(isBlank c || isBreak c || "-?:,[]\x7b\x7d#&*!|>'\"%@`".toList.contains c) ||
      (c == '-' && !rest.head?.any isBlank) ||
      (!flow && (c == '?' || c == ':') && !blankOrEnd rest)

def tokenHere (l : Lexer) : Option Lexer :=
  let cur := l.cursor
  match cur.rest with
  | [] => l.finish
  | c :: rest =>
    if c == '%' && cur.column == 0 then l.directive
    else if cur.atDocumentStart then l.documentMark .documentStart
    else if cur.atDocumentEnd then l.documentMark .documentEnd
    else if c == '[' then l.openFlow .flowSequenceStart
    else if c == '\x7b' then l.openFlow .flowMappingStart
    else if c == ']' then l.closeFlow .flowSequenceEnd
    else if c == '\x7d' then l.closeFlow .flowMappingEnd
    else if c == ',' then l.flowEntry
    else if c == '-' && blankOrEnd rest then l.blockEntry
    else if c == '?' && (l.inFlow || blankOrEnd rest) then l.explicitKey
    else if c == ':' && (l.inFlow || blankOrEnd rest) then l.value
    else if c == '*' then
      l.keyPart fun cur => (name? cur).map fun (name, cur) => (.reference name, cur)
    else if c == '&' then
      l.keyPart fun cur => (name? cur).map fun (name, cur) => (.anchor name, cur)
    else if c == '!' then l.keyPart (tag? l.inFlow)
    else if c == '|' && !l.inFlow then l.blockScalar false
    else if c == '>' && !l.inFlow then l.blockScalar true
    else if c == '\'' then l.quotedScalar true
    else if c == '"' then l.quotedScalar false
    else if startsPlain l.inFlow cur.rest then l.plainScalar
    else none

def next (l : Lexer) : Option Lexer :=
  l.skipFill.dropStale.bind fun l => (l.closeBlocks l.cursor.column).tokenHere

def runFuel : Nat → Lexer → Option Lexer
  | 0, _ => none
  | fuel + 1, l => if l.finished then some l else l.next.bind (runFuel fuel)

end Lexer

/-- All tokens of a text. Each step but the last takes a character. -/
def tokens? (s : String) : Option (List Token) :=
  let cs := match s.toList with
    | '\ufeff' :: rest => rest
    | cs => cs
  if cs.all isAllowed then
    (Lexer.runFuel (cs.length + 3) { cursor := { rest := cs } }).map fun l => l.tokens.reverse
  else none

end ReleaseMatrix.Yaml
