import ReleaseMatrix.Json.Basic
import ReleaseMatrix.Text

/- JSON text, on one line or indented by two spaces a level. -/
namespace ReleaseMatrix.Json

def hexDigit (n : Nat) : Char := if n < 10 then Char.ofNat (48 + n) else Char.ofNat (87 + n)

def escapeChar (c : Char) : List Char :=
  if c = '"' then ['\\', '"']
  else if c = '\\' then ['\\', '\\']
  else if c = '\n' then ['\\', 'n']
  else if c = '\r' then ['\\', 'r']
  else if c = '\t' then ['\\', 't']
  else if c.toNat = 8 then ['\\', 'b']
  else if c.toNat = 12 then ['\\', 'f']
  else if c.toNat < 32 then ['\\', 'u', '0', '0', hexDigit (c.toNat / 16), hexDigit (c.toNat % 16)]
  else [c]

def quoteChars (cs : List Char) : List Char := '"' :: (cs.flatMap escapeChar ++ ['"'])

def quote (s : String) : String := String.ofList (quoteChars s.toList)

def decimalText (negative : Bool) (digits places : Nat) : String :=
  let ds := (Decimal.zeroPadded (places + 1) digits).toList
  let (whole, part) := ds.splitAt (ds.length - places)
  let part := (part.reverse.dropWhile (· == '0')).reverse
  (if negative then "-" else "") ++ String.ofList whole ++ "." ++
    (if part.isEmpty then "0" else String.ofList part)

mutual

def render : Json → String
  | .null => "null"
  | .bool b => if b then "true" else "false"
  | .integer n => Decimal.ofInt n
  | .decimal negative digits places => decimalText negative digits places
  | .text s => quote s
  | .list items => "[" ++ Text.joinWith "," (renderItems items) ++ "]"
  | .object fields => "\x7b" ++ Text.joinWith "," (renderFields fields) ++ "\x7d"

def renderItems : List Json → List String
  | [] => []
  | j :: rest => render j :: renderItems rest

def renderFields : List (String × Json) → List String
  | [] => []
  | (k, j) :: rest => (quote k ++ ":" ++ render j) :: renderFields rest

end

def indent (level : Nat) : String := String.ofList (List.replicate (2 * level) ' ')

def block (level : Nat) (opening closing : String) (items : List String) : String :=
  if items.isEmpty then opening ++ closing
  else opening ++ "\n" ++
    Text.joinWith ",\n" (items.map (indent (level + 1) ++ ·)) ++ "\n" ++ indent level ++ closing

mutual

def prettyAt (level : Nat) : Json → String
  | .list items => block level "[" "]" (prettyItems level items)
  | .object fields => block level "\x7b" "\x7d" (prettyFields level fields)
  | .null => "null"
  | .bool b => if b then "true" else "false"
  | .integer n => Decimal.ofInt n
  | .decimal negative digits places => decimalText negative digits places
  | .text s => quote s

def prettyItems (level : Nat) : List Json → List String
  | [] => []
  | j :: rest => prettyAt (level + 1) j :: prettyItems level rest

def prettyFields (level : Nat) : List (String × Json) → List String
  | [] => []
  | (k, j) :: rest => (quote k ++ ": " ++ prettyAt (level + 1) j) :: prettyFields level rest

end

def pretty (j : Json) : String := prettyAt 0 j

end ReleaseMatrix.Json
