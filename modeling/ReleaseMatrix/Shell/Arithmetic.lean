import ReleaseMatrix.Variant.Descriptor

/- Integer expressions. -/
namespace ReleaseMatrix.Shell.Arithmetic

abbrev Reading := Option (Int × List Char)

def skipBlanks (cs : List Char) : List Char := cs.dropWhile Text.isBlank

def truth (b : Bool) : Int := if b then 1 else 0

/-- The operators of two operands by their binding strength, the weakest first; of two operators
   that start alike the longer one comes first. -/
def levels : List (List (String × (Int → Int → Option Int))) :=
  let total (f : Int → Int → Int) : Int → Int → Option Int := fun a b => some (f a b)
  let natural (f : Nat → Nat → Nat) : Int → Int → Option Int := fun a b => some (f a.toNat b.toNat)
  let divided (f : Int → Int → Int) : Int → Int → Option Int :=
    fun a b => if b = 0 then none else some (f a b)
  [[("||", total fun a b => truth (a != 0 || b != 0))],
    [("&&", total fun a b => truth (a != 0 && b != 0))],
    [("|", natural Nat.lor)], [("^", natural Nat.xor)], [("&", natural Nat.land)],
    [("==", total fun a b => truth (a == b)), ("!=", total fun a b => truth (a != b))],
    [("<=", total fun a b => truth (a ≤ b)), (">=", total fun a b => truth (b ≤ a)),
      ("<", total fun a b => truth (a < b)), (">", total fun a b => truth (b < a))],
    [("<<", total fun a b => a * Int.pow 2 b.toNat), (">>", total fun a b => a / Int.pow 2 b.toNat)],
    [("+", total (· + ·)), ("-", total (· - ·))],
    [("*", total (· * ·)), ("/", divided Int.tdiv), ("%", divided Int.tmod)]]

def startsOperator (op : String) (cs : List Char) : Bool :=
  op.toList.isPrefixOf cs &&
    !(["|", "&", "<", ">"].contains op && (cs.drop 1).take 1 == op.toList)

def number? (cs : List Char) : Reading :=
  let word := cs.takeWhile Char.isAlphanum
  let rest := cs.drop word.length
  let value := match word with
    | '0' :: 'x' :: digits => Decimal.natural? 16 digits
    | '0' :: d :: digits => Decimal.natural? 8 (d :: digits)
    | digits => Decimal.natural? 10 digits
  value.map fun n => ((n : Int), rest)

mutual

def binary (lookup : String → Int) :
    Nat → List (List (String × (Int → Int → Option Int))) → List Char → Reading
  | 0, _, _ => none
  | fuel + 1, [], cs => unary lookup fuel cs
  | fuel + 1, ops :: tighter, cs =>
    (binary lookup fuel tighter cs).bind fun (left, rest) =>
      binaryFrom lookup fuel ops tighter left rest

def binaryFrom (lookup : String → Int) :
    Nat → List (String × (Int → Int → Option Int)) →
    List (List (String × (Int → Int → Option Int))) → Int → List Char → Reading
  | 0, _, _, _, _ => none
  | fuel + 1, ops, tighter, left, cs =>
    let cs := skipBlanks cs
    match ops.find? fun op => startsOperator op.1 cs with
    | none => some (left, cs)
    | some (op, apply) =>
      (binary lookup fuel tighter (cs.drop op.length)).bind fun (right, rest) =>
        (apply left right).bind fun value => binaryFrom lookup fuel ops tighter value rest

def unary (lookup : String → Int) : Nat → List Char → Reading
  | 0, _ => none
  | fuel + 1, cs =>
    match skipBlanks cs with
    | '-' :: rest => (unary lookup fuel rest).map fun (n, rest) => (-n, rest)
    | '+' :: rest => unary lookup fuel rest
    | '!' :: rest => (unary lookup fuel rest).map fun (n, rest) => (truth (n == 0), rest)
    | '~' :: rest => (unary lookup fuel rest).map fun (n, rest) => (-n - 1, rest)
    | '(' :: rest =>
      (binary lookup fuel levels rest).bind fun (n, rest) =>
        match skipBlanks rest with
        | ')' :: rest => some (n, rest)
        | _ => none
    | c :: rest =>
      if isKeyStart c then
        let name := (c :: rest).takeWhile isKeyRest
        some (lookup (String.ofList name), (c :: rest).drop name.length)
      else number? (c :: rest)
    | [] => none

end

def evaluate (lookup : String → Int) (cs : List Char) : Option Int :=
  if (skipBlanks cs).isEmpty then some 0
  else match binary lookup (16 * (cs.length + 1)) levels cs with
    | some (n, rest) => if (skipBlanks rest).isEmpty then some n else none
    | none => none

end ReleaseMatrix.Shell.Arithmetic
