import ReleaseMatrix.Toml.Scalar
import ReleaseMatrix.Toml.Text

/- Reading a TOML document. -/
namespace ReleaseMatrix.Toml

def skipBlanks (cs : List Char) : List Char := cs.dropWhile isBlank

def skipComment : List Char → List Char
  | '#' :: rest => rest.dropWhile isPlain
  | cs => cs

def lineEnd? (cs : List Char) : Option (List Char) :=
  match skipComment (skipBlanks cs) with
  | [] => some []
  | rest => newline? rest

def skipFillFuel : Nat → List Char → List Char
  | 0, cs => cs
  | fuel + 1, cs =>
    match dropSpaceFuel cs.length cs with
    | '#' :: rest => skipFillFuel fuel (rest.dropWhile isPlain)
    | rest => rest

def skipFill (cs : List Char) : List Char := skipFillFuel (cs.length + 1) cs

def isBareKeyChar (c : Char) : Bool :=
  (Decimal.digitIn? 36 c).isSome || c == '_' || c == '-'

def simpleKey? (cs : List Char) : Reading String :=
  match cs with
  | '"' :: rest => quoted? rest
  | '\'' :: rest => literal? rest
  | _ =>
    match cs.span isBareKeyChar with
    | ([], _) => none
    | (key, rest) => some (String.ofList key, rest)

def keyPathFuel : Nat → List Char → Reading (List String)
  | 0, _ => none
  | fuel + 1, cs =>
    (simpleKey? (skipBlanks cs)).bind fun (key, rest) =>
      match skipBlanks rest with
      | '.' :: rest => (keyPathFuel fuel rest).map fun (keys, rest) => (key :: keys, rest)
      | rest => some ([key], rest)

def depthLimit : Nat := 80

def keyPath? (cs : List Char) : Reading (List String × String) :=
  (keyPathFuel (cs.length + 1) cs).bind fun (keys, rest) =>
    match keys.reverse with
    | [] => none
    | key :: path => if depthLimit ≤ keys.length then none else some ((path.reverse, key), rest)

mutual

def valueFuel : Nat → Nat → List Char → Reading Toml
  | 0, _, _ => none
  | fuel + 1, depth, cs =>
    match cs with
    | '"' :: _ => (text? cs).map fun (s, rest) => (.text s, rest)
    | '\'' :: _ => (text? cs).map fun (s, rest) => (.text s, rest)
    | '[' :: rest =>
      if depthLimit ≤ depth + 1 then none
      else (itemsFuel fuel (depth + 1) [] rest).map fun (items, rest) => (.list items, rest)
    | '\x7b' :: rest =>
      if depthLimit ≤ depth + 1 then none
      else match skipBlanks rest with
        | '\x7d' :: rest => some (.table [], rest)
        | rest =>
          (pairsFuel fuel (depth + 1) [] rest).map fun (fields, rest) =>
            (.table (fieldsToml fields), rest)
    | _ =>
      let (front, rest) := scalarSpan cs
      (scalar? front).map fun v => (v, rest)

def itemsFuel : Nat → Nat → List Toml → List Char → Reading (List Toml)
  | 0, _, _, _ => none
  | fuel + 1, depth, acc, cs =>
    match skipFill cs with
    | ']' :: rest => some (acc.reverse, rest)
    | cs =>
      (valueFuel fuel depth cs).bind fun (item, rest) =>
        match skipFill rest with
        | ',' :: rest => itemsFuel fuel depth (item :: acc) rest
        | ']' :: rest => some ((item :: acc).reverse, rest)
        | _ => none

def pairsFuel : Nat → Nat → Fields → List Char → Reading Fields
  | 0, _, _, _ => none
  | fuel + 1, depth, acc, cs =>
    (keyPath? cs).bind fun ((path, key), rest) =>
      match rest with
      | '=' :: rest =>
        (valueFuel fuel depth (skipBlanks rest)).bind fun (v, rest) =>
          (assign path key v acc).bind fun acc =>
            match skipBlanks rest with
            | ',' :: rest => pairsFuel fuel depth acc rest
            | '\x7d' :: rest => some (acc, rest)
            | _ => none
      | _ => none

end

def value? (cs : List Char) : Reading Toml := valueFuel (2 * cs.length + 2) 0 cs

def header? (closing : List Char) (cs : List Char) : Reading (List String) :=
  (keyPath? cs).bind fun ((path, key), rest) =>
    if closing.isPrefixOf rest then
      (lineEnd? (rest.drop closing.length)).map fun rest => (path ++ [key], rest)
    else none

def pair? (b : Building) (cs : List Char) : Reading Building :=
  (keyPath? cs).bind fun ((path, key), rest) =>
    match rest with
    | '=' :: rest =>
      (value? (skipBlanks rest)).bind fun (v, rest) =>
        (lineEnd? rest).bind fun rest => (b.assign path key v).map fun b => (b, rest)
    | _ => none

/-- One line after another; each takes a character, so the length bounds their number. -/
def linesFuel : Nat → Building → List Char → Option Building
  | 0, _, _ => none
  | fuel + 1, b, cs =>
    match skipBlanks cs with
    | [] => some b
    | '#' :: _ => (lineEnd? cs).bind fun rest => linesFuel fuel b rest
    | '[' :: '[' :: rest =>
      (header? [']', ']'] rest).bind fun (path, rest) =>
        (b.openItem path).bind fun b => linesFuel fuel b rest
    | '[' :: rest =>
      (header? [']'] rest).bind fun (path, rest) =>
        (b.openTable path).bind fun b => linesFuel fuel b rest
    | rest =>
      match newline? rest with
      | some rest => linesFuel fuel b rest
      | none => (pair? b rest).bind fun (b, rest) => linesFuel fuel b rest

def dropByteOrderMark : List Char → List Char
  | '\ufeff' :: rest => rest
  | cs => cs

def parse? (s : String) : Option Toml :=
  (linesFuel (s.length + 1) {} (dropByteOrderMark s.toList)).bind fun b =>
    b.close.map fun fields => .table (fieldsToml fields)

end ReleaseMatrix.Toml
