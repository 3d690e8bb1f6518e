/- Text as a list of characters: blanks, trimming, cutting at a separator, joining, lines. -/
namespace ReleaseMatrix.Text

/-- The characters with the White_Space property. -/
def isBlank (c : Char) : Bool :=
  let n := c.toNat
  (0x9 ≤ n && n ≤ 0xD) || n == 0x20 || n == 0x85 || n == 0xA0 || n == 0x1680 ||
    (0x2000 ≤ n && n ≤ 0x200A) || n == 0x2028 || n == 0x2029 || n == 0x202F ||
    n == 0x205F || n == 0x3000

def trimLeft (cs : List Char) : List Char := cs.dropWhile isBlank
def trimRight (cs : List Char) : List Char := (cs.reverse.dropWhile isBlank).reverse
def trimList (cs : List Char) : List Char := trimRight (trimLeft cs)
def trim (s : String) : String := String.ofList (trimList s.toList)

def allBlank (s : String) : Bool := s.toList.all isBlank

def cut? (sep : Char) : List Char → Option (List Char × List Char)
  | [] => none
  | c :: cs => if c = sep then some ([], cs) else (cut? sep cs).map fun p => (c :: p.1, p.2)

def splitAll (sep : Char) : List Char → List (List Char)
  | [] => [[]]
  | c :: cs =>
    if c = sep then [] :: splitAll sep cs
    else match splitAll sep cs with
      | [] => [[c]]
      | piece :: rest => (c :: piece) :: rest

def joinWith (sep : String) : List String → String
  | [] => ""
  | [s] => s
  | s :: rest => s ++ sep ++ joinWith sep rest

def startsWith (pattern cs : List Char) : Bool := pattern.isPrefixOf cs

def contains (s : String) (c : Char) : Bool := s.toList.contains c

/-- Every occurrence from left to right of a non-empty pattern gives way to another text;
   `skip` counts the characters of an occurrence that are still to be dropped. -/
def replaceFrom (pattern by_ : List Char) : Nat → List Char → List Char
  | _, [] => []
  | skip + 1, _ :: cs => replaceFrom pattern by_ skip cs
  | 0, c :: cs =>
    if startsWith pattern (c :: cs) then by_ ++ replaceFrom pattern by_ (pattern.length - 1) cs
    else c :: replaceFrom pattern by_ 0 cs

def replace (s pattern by_ : String) : String :=
  String.ofList (replaceFrom pattern.toList by_.toList 0 s.toList)

def dropTrailingReturn (line : List Char) : List Char :=
  match line.reverse with
  | '\r' :: rest => rest.reverse
  | _ => line

def lines (s : String) : List String :=
  let pieces := splitAll '\n' s.toList
  let ended := pieces.dropLast.map dropTrailingReturn
  let last := pieces.getLast?.getD []
  (if last.isEmpty then ended else ended ++ [last]).map String.ofList

def padLeft (width : Nat) (s : String) : String :=
  String.ofList (List.replicate (width - s.length) ' ') ++ s

def padRight (width : Nat) (s : String) : String :=
  s ++ String.ofList (List.replicate (width - s.length) ' ')

end ReleaseMatrix.Text
