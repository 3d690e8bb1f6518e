import ReleaseMatrix.Text.Decimal

/- A place in a YAML text: what is left of it, and how far in text and line the place is. -/
namespace ReleaseMatrix.Yaml

structure Cursor where
  rest : List Char
  index : Nat := 0
  line : Nat := 0
  column : Nat := 0
  deriving Repr

def isAllowed (c : Char) : Bool :=
  let n := c.toNat
  n == 9 || n == 10 || n == 13 || (0x20 ≤ n && n ≤ 0x7E) || n == 0x85 ||
    (0xA0 ≤ n && n ≤ 0xD7FF) || (0xE000 ≤ n && n ≤ 0xFFFD) || 0x10000 ≤ n

def isBlank (c : Char) : Bool := c == ' ' || c == '\t'

def isBreak (c : Char) : Bool :=
  c == '\n' || c == '\r' || c == '\x85' || c == '\u2028' || c == '\u2029'

def isWordChar (c : Char) : Bool := (Decimal.digitIn? 36 c).isSome || c == '_' || c == '-'

def blankOrEnd : List Char → Bool
  | [] => true
  | c :: _ => isBlank c || isBreak c

def breakOrEnd : List Char → Bool
  | [] => true
  | c :: _ => isBreak c

def lineBreak? : List Char → Option (List Char × Nat)
  | '\r' :: '\n' :: _ => some (['\n'], 2)
  | c :: _ =>
    if c == '\n' || c == '\r' || c == '\x85' then some (['\n'], 1)
    else if c == '\u2028' || c == '\u2029' then some ([c], 1)
    else none
  | [] => none

namespace Cursor

def forward (cur : Cursor) (n : Nat) : Cursor :=
  { cur with rest := cur.rest.drop n, index := cur.index + n, column := cur.column + n }

def nextLine (cur : Cursor) (size : Nat) : Cursor :=
  ⟨cur.rest.drop size, cur.index + size, cur.line + 1, 0⟩

def head? (cur : Cursor) : Option Char := cur.rest.head?

def skipWhile (cur : Cursor) (p : Char → Bool) : Cursor :=
  cur.forward (cur.rest.takeWhile p).length

def skipBlanks (cur : Cursor) : Cursor := cur.skipWhile isBlank

def skipComment (cur : Cursor) : Cursor :=
  if cur.head? = some '#' then cur.skipWhile fun c => !isBreak c else cur

def readWhile (cur : Cursor) (p : Char → Bool) : List Char × Cursor :=
  (cur.rest.takeWhile p, cur.skipWhile p)

def skipBreak (cur : Cursor) : Cursor :=
  match lineBreak? cur.rest with
  | some (_, size) => cur.nextLine size
  | none => cur

def endLine? (cur : Cursor) : Option Cursor :=
  let cur := cur.skipBlanks.skipComment
  if breakOrEnd cur.rest then some cur.skipBreak else none

def triple (mark : Char) (cs : List Char) : Bool :=
  cs.take 3 == [mark, mark, mark] && blankOrEnd (cs.drop 3)

def atDocumentStart (cur : Cursor) : Bool := cur.column == 0 && triple '-' cur.rest

def atDocumentEnd (cur : Cursor) : Bool := cur.column == 0 && triple '.' cur.rest

def atDocumentMark (cur : Cursor) : Bool := cur.atDocumentStart || cur.atDocumentEnd

end Cursor
end ReleaseMatrix.Yaml
