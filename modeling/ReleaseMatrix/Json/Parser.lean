import ReleaseMatrix.Json.Basic

/- Reading JSON text. -/
namespace ReleaseMatrix.Json

abbrev Reading (α : Type) := Option (α × List Char)

def isSpace (c : Char) : Bool := c == ' ' || c == '\n' || c == '\r' || c == '\t'

def skipSpace (cs : List Char) : List Char := cs.dropWhile isSpace

def hexQuad? : List Char → Reading Nat
  | a :: b :: c :: d :: rest => (Decimal.natural? 16 [a, b, c, d]).map fun n => (n, rest)
  | _ => none

def simpleEscape? : Char → Option Char
  | '"' => some '"'
  | '\\' => some '\\'
  | '/' => some '/'
  | 'b' => some (Char.ofNat 8)
  | 'f' => some (Char.ofNat 12)
  | 'n' => some '\n'
  | 'r' => some '\r'
  | 't' => some '\t'
  | _ => none

def unicodeEscape? (cs : List Char) : Reading Char :=
  (hexQuad? cs).bind fun (high, rest) =>
    if 0xD800 ≤ high ∧ high < 0xDC00 then
      match rest with
      | '\\' :: 'u' :: rest =>
        (hexQuad? rest).bind fun (low, rest) =>
          if 0xDC00 ≤ low ∧ low < 0xE000 then
            some (Char.ofNat (0x10000 + (high - 0xD800) * 0x400 + (low - 0xDC00)), rest)
          else none
      | _ => none
    else if 0xDC00 ≤ high ∧ high < 0xE000 then none
    else some (Char.ofNat high, rest)

def stringFuel : Nat → List Char → List Char → Reading String
  | 0, _, _ => none
  | fuel + 1, acc, cs =>
    match cs with
    | [] => none
    | '"' :: rest => some (String.ofList acc.reverse, rest)
    | '\\' :: 'u' :: rest =>
      (unicodeEscape? rest).bind fun (c, rest) => stringFuel fuel (c :: acc) rest
    | '\\' :: e :: rest => (simpleEscape? e).bind fun c => stringFuel fuel (c :: acc) rest
    | c :: rest => if c.toNat < 32 then none else stringFuel fuel (c :: acc) rest

def string? (cs : List Char) : Reading String := stringFuel (cs.length + 1) [] cs

def leadingDigits (cs : List Char) : List Char × List Char := cs.span fun c => '0' ≤ c && c ≤ '9'

def fraction? : List Char → Option (Option (List Char) × List Char)
  | '.' :: rest =>
    match leadingDigits rest with
    | ([], _) => none
    | (ds, rest) => some (some ds, rest)
  | cs => some (none, cs)

def exponent? : List Char → Option (Option Int × List Char)
  | c :: rest =>
    if c = 'e' ∨ c = 'E' then
      let (negative, rest) := match rest with
        | '-' :: rest => (true, rest)
        | '+' :: rest => (false, rest)
        | rest => (false, rest)
      match leadingDigits rest with
      | ([], _) => none
      | (ds, rest) => (Decimal.natural? 10 ds).map fun n => (some (if negative then -(n : Int) else n), rest)
    else some (none, c :: rest)
  | [] => some (none, [])

def scaled (negative : Bool) (digits places : Nat) (exponent : Int) : Json :=
  if exponent ≤ places then .decimal negative digits (places - exponent).toNat
  else .decimal negative (digits * Nat.pow 10 (exponent - places).toNat) 0

def sign : List Char → Bool × List Char
  | '-' :: rest => (true, rest)
  | cs => (false, cs)

/-- A number is an integer unless it has a point or an exponent or is a negative zero. -/
def magnitude? (negative : Bool) (cs : List Char) : Reading Json :=
  match leadingDigits cs with
  | ([], _) => none
  | ('0' :: _ :: _, _) => none
  | (whole, rest) =>
    (fraction? rest).bind fun (part, rest) =>
      (exponent? rest).bind fun (power, rest) =>
        (Decimal.natural? 10 (whole ++ part.getD [])).map fun n =>
          if part.isSome || power.isSome || (negative && n == 0) then
            (scaled negative n (part.getD []).length (power.getD 0), rest)
          else (.integer (if negative then -(n : Int) else n), rest)

def number? (cs : List Char) : Reading Json :=
  let (negative, rest) := sign cs
  magnitude? negative rest

def word? (word : String) (value : Json) (cs : List Char) : Reading Json :=
  if word.toList.isPrefixOf cs then some (value, cs.drop word.length) else none

mutual

/- `depth` counts how many more lists and objects may open in one another. -/
def valueFuel : Nat → Nat → List Char → Reading Json
  | 0, _, _ => none
  | fuel + 1, depth, cs =>
    match skipSpace cs with
    | 'n' :: rest => word? "null" .null ('n' :: rest)
    | 't' :: rest => word? "true" (.bool true) ('t' :: rest)
    | 'f' :: rest => word? "false" (.bool false) ('f' :: rest)
    | '"' :: rest => (string? rest).map fun (s, rest) => (.text s, rest)
    | '[' :: rest =>
      if depth = 0 then none
      else
        match skipSpace rest with
        | ']' :: rest => some (.list [], rest)
        | rest => (itemsFuel fuel (depth - 1) [] rest).map fun (items, rest) => (.list items, rest)
    | '\x7b' :: rest =>
      if depth = 0 then none
      else
        match skipSpace rest with
        | '\x7d' :: rest => some (.object [], rest)
        | rest => (fieldsFuel fuel (depth - 1) [] rest).map fun (fields, rest) => (.object fields, rest)
    | rest => number? rest

def itemsFuel : Nat → Nat → List Json → List Char → Reading (List Json)
  | 0, _, _, _ => none
  | fuel + 1, depth, acc, cs =>
    (valueFuel fuel depth cs).bind fun (item, rest) =>
      match skipSpace rest with
      | ',' :: rest => itemsFuel fuel depth (item :: acc) rest
      | ']' :: rest => some ((item :: acc).reverse, rest)
      | _ => none

def fieldsFuel : Nat → Nat → List (String × Json) → List Char → Reading (List (String × Json))
  | 0, _, _, _ => none
  | fuel + 1, depth, acc, cs =>
    match skipSpace cs with
    | '"' :: rest =>
      (string? rest).bind fun (key, rest) =>
        match skipSpace rest with
        | ':' :: rest =>
          (valueFuel fuel depth rest).bind fun (value, rest) =>
            match skipSpace rest with
            | ',' :: rest => fieldsFuel fuel depth ((key, value) :: acc) rest
            | '\x7d' :: rest => some (((key, value) :: acc).reverse, rest)
            | _ => none
        | _ => none
    | _ => none

end

/-- How deep lists and objects may stand in one another: a text that nests deeper is refused, so that
    the stack of its reader is safe. -/
def maxDepth : Nat := 127

/-- One value with blanks around it. Each step of the reading takes a character, so the length of the
    text bounds their number. -/
def parse? (s : String) : Option Json :=
  match valueFuel (s.length + 1) maxDepth s.toList with
  | some (j, rest) => if skipSpace rest = [] then some j else none
  | none => none

end ReleaseMatrix.Json
