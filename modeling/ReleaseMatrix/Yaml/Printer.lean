import ReleaseMatrix.Json.Printer

/- Values written as YAML blocks, two blanks to a level. -/
namespace ReleaseMatrix.Yaml

def marks : List Char :=
  [',', '[', ']', '\x7b', '\x7d', '#', '&', '*', '!', '|', '>', '\'', '"', '%', '@', '\x60']

/-- A text on one line that is not written like a number, a flag or null: it is quoted where it is
    empty or begins with a mark. -/
def textChars (s : String) : List Char :=
  match s.toList with
  | [] => ['\'', '\'']
  | c :: cs =>
    if marks.contains c
    then '\'' :: ((c :: cs).flatMap (fun d => if d = '\'' then ['\'', '\''] else [d]) ++ ['\''])
    else c :: cs

def indented (line : List Char) : List Char := ' ' :: ' ' :: line

def itemLines : List (List Char) → List (List Char)
  | [] => []
  | line :: rest => ('-' :: ' ' :: line) :: rest.map indented

/-- A value behind its key. What has lines of its own stands below; a list is not indented there. -/
def fieldLines (key : String) (j : Json) (lines : List (List Char)) : List (List Char) :=
  let front := textChars key ++ [':']
  match j with
  | .list (_ :: _) => front :: lines
  | .object (_ :: _) => front :: lines.map indented
  | _ => lines.map fun line => front ++ ' ' :: line

mutual

def lines : Json → List (List Char)
  | .null => ["null".toList]
  | .bool b => [(if b then "true" else "false").toList]
  | .integer n => [(Decimal.ofInt n).toList]
  | .decimal negative digits places => [(Json.decimalText negative digits places).toList]
  | .text s => [textChars s]
  | .list [] => [['[', ']']]
  | .list (j :: rest) => listLines (j :: rest)
  | .object [] => [['\x7b', '\x7d']]
  | .object (f :: rest) => objectLines (f :: rest)

def listLines : List Json → List (List Char)
  | [] => []
  | j :: rest => itemLines (lines j) ++ listLines rest

def objectLines : List (String × Json) → List (List Char)
  | [] => []
  | (key, j) :: rest => fieldLines key j (lines j) ++ objectLines rest

end

def print (j : Json) : String := String.ofList ((lines j).flatMap fun line => line ++ ['\n'])

end ReleaseMatrix.Yaml
