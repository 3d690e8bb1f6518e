import ReleaseMatrix.Text.Decimal

/- TOML text between quotes or apostrophes, on one line or over several. -/
namespace ReleaseMatrix.Toml

abbrev Reading (α : Type) := Option (α × List Char)

def isPlain (c : Char) : Bool := c == '\t' || (32 ≤ c.toNat && c.toNat != 127)

def simpleEscape? : Char → Option Char
  | 'b' => some (Char.ofNat 8)
  | 't' => some '\t'
  | 'n' => some '\n'
  | 'f' => some (Char.ofNat 12)
  | 'r' => some '\r'
  | '"' => some '"'
  | '\\' => some '\\'
  | _ => none

def numbered? (size : Nat) (cs : List Char) : Reading Char :=
  if cs.length < size then none
  else (Decimal.natural? 16 (cs.take size)).bind fun n =>
    if n.isValidChar then some (Char.ofNat n, cs.drop size) else none

def escape? : List Char → Reading Char
  | 'u' :: rest => numbered? 4 rest
  | 'U' :: rest => numbered? 8 rest
  | c :: rest => (simpleEscape? c).map fun e => (e, rest)
  | [] => none

def quotedFuel : Nat → List Char → List Char → Reading String
  | 0, _, _ => none
  | fuel + 1, acc, cs =>
    match cs with
    | [] => none
    | '"' :: rest => some (String.ofList acc.reverse, rest)
    | '\\' :: rest => (escape? rest).bind fun (c, rest) => quotedFuel fuel (c :: acc) rest
    | c :: rest => if isPlain c then quotedFuel fuel (c :: acc) rest else none

def quoted? (cs : List Char) : Reading String := quotedFuel (cs.length + 1) [] cs

def literal? (cs : List Char) : Reading String :=
  let (inner, rest) := cs.span fun c => c != '\''
  match rest with
  | '\'' :: rest => if inner.all isPlain then some (String.ofList inner, rest) else none
  | _ => none

def newline? : List Char → Option (List Char)
  | '\n' :: rest => some rest
  | '\r' :: '\n' :: rest => some rest
  | _ => none

def dropNewline (cs : List Char) : List Char := (newline? cs).getD cs

def isBlank (c : Char) : Bool := c == ' ' || c == '\t'

def dropSpaceFuel : Nat → List Char → List Char
  | 0, cs => cs
  | fuel + 1, cs =>
    match newline? cs with
    | some rest => dropSpaceFuel fuel rest
    | none =>
      match cs with
      | c :: rest => if isBlank c then dropSpaceFuel fuel rest else cs
      | [] => []

def lineJoin? (cs : List Char) : Option (List Char) :=
  (newline? (cs.dropWhile isBlank)).map fun rest => dropSpaceFuel rest.length rest

def quoteRun (quote : Char) (cs : List Char) : Nat := (cs.takeWhile (· == quote)).length

def blockFuel (quote : Char) (escapes : Bool) : Nat → List Char → List Char → Reading String
  | 0, _, _ => none
  | fuel + 1, acc, cs =>
    let run := quoteRun quote cs
    if 3 ≤ run then
      let inner := min (run - 3) 2
      some (String.ofList (List.replicate inner quote ++ acc).reverse, cs.drop (inner + 3))
    else
      match newline? cs with
      | some rest => blockFuel quote escapes fuel ('\n' :: acc) rest
      | none =>
        match cs with
        | [] => none
        | c :: rest =>
          if escapes && c == '\\' then
            match lineJoin? rest with
            | some rest => blockFuel quote escapes fuel acc rest
            | none => (escape? rest).bind fun (c, rest) => blockFuel quote escapes fuel (c :: acc) rest
          else if isPlain c then blockFuel quote escapes fuel (c :: acc) rest
          else none

def block? (quote : Char) (cs : List Char) : Reading String :=
  blockFuel quote (quote == '"') (cs.length + 1) [] (dropNewline cs)

def text? : List Char → Reading String
  | '"' :: '"' :: '"' :: rest => block? '"' rest
  | '"' :: rest => quoted? rest
  | '\'' :: '\'' :: '\'' :: rest => block? '\'' rest
  | '\'' :: rest => literal? rest
  | _ => none

end ReleaseMatrix.Toml
