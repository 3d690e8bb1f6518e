import ReleaseMatrix.Shell.State

/- The commands that print their arguments. -/
namespace ReleaseMatrix.Shell

structure Printed where
  bytes : Bytes
  final : Bool := false

def Printed.append (p q : Printed) : Printed :=
  if p.final then p else ⟨p.bytes ++ q.bytes, q.final⟩

def isOctal (c : Char) : Bool := '0' ≤ c && c ≤ '7'

def octalByte (digits : List Char) : UInt8 := (((Decimal.natural? 8 digits).getD 0) % 256).toUInt8

def simpleEscape? : Char → Option UInt8
  | 'a' => some 7
  | 'b' => some 8
  | 'f' => some 12
  | 'n' => some 10
  | 'r' => some 13
  | 't' => some 9
  | 'v' => some 11
  | '\\' => some 92
  | _ => none

/-- What a backslash and the characters after it stand for, and how many of them it takes. In an
   argument the digits follow a zero, and the letter c ends all printing. -/
def escape (inArgument : Bool) (cs : List Char) : Printed × Nat :=
  match cs with
  | [] => (⟨[92], false⟩, 0)
  | c :: rest =>
    if inArgument && c == 'c' then (⟨[], true⟩, 1)
    else if inArgument && c == '0' then
      let digits := (rest.take 3).takeWhile isOctal
      (⟨[octalByte digits], false⟩, 1 + digits.length)
    else if isOctal c then
      let digits := (cs.take 3).takeWhile isOctal
      (⟨[octalByte digits], false⟩, digits.length)
    else match simpleEscape? c with
      | some b => (⟨[b], false⟩, 1)
      | none => (⟨92 :: Utf8.encode (String.ofList [c]), false⟩, 1)

def charBytes (c : Char) : Bytes := Utf8.encode (String.ofList [c])

/-- A text with its escapes resolved; `skip` counts characters that an escape has taken. -/
def unescapeFrom (inArgument : Bool) : Nat → List Char → Printed
  | _, [] => ⟨[], false⟩
  | skip + 1, _ :: cs => unescapeFrom inArgument skip cs
  | 0, '\\' :: cs =>
    let (printed, taken) := escape inArgument cs
    printed.append (unescapeFrom inArgument taken cs)
  | 0, c :: cs => Printed.append ⟨charBytes c, false⟩ (unescapeFrom inArgument 0 cs)

def unescape (inArgument : Bool) (s : String) : Printed := unescapeFrom inArgument 0 s.toList

def echo (args : List String) (s : State) : State :=
  let (newline, args) := match args with
    | "-n" :: rest => (false, rest)
    | args => (true, args)
  let printed := unescape true (Text.joinWith " " args)
  (s.emit 1 (printed.bytes ++ if newline && !printed.final then [10] else [])).done

structure Conversion where
  text : String
  flags : List Char
  width : Option Nat
  precision : Option Nat
  letter : Char
  deriving Repr

inductive FormatItem where
  | text (bytes : Bytes) (final : Bool)
  | convert (c : Conversion)
  | cutOff

def conversion? (cs : List Char) : Option (Conversion × Nat) :=
  let flags := cs.takeWhile fun c => "-+ #0".toList.contains c
  let rest := cs.drop flags.length
  let width := rest.takeWhile Char.isDigit
  let rest := rest.drop width.length
  let (precision, size, rest) := match rest with
    | '.' :: more =>
      let digits := more.takeWhile Char.isDigit
      (some ((Decimal.natural? 10 digits).getD 0), digits.length + 1, more.drop digits.length)
    | _ => (none, 0, rest)
  let taken := flags.length + width.length + size + 1
  match rest with
  | letter :: _ =>
    some (⟨String.ofList ('%' :: cs.take taken), flags, Decimal.natural? 10 width, precision,
      letter⟩, taken)
  | [] => none

def formatItems : Nat → List Char → List FormatItem
  | _, [] => []
  | skip + 1, _ :: cs => formatItems skip cs
  | 0, '\\' :: cs =>
    let (printed, taken) := escape false cs
    .text printed.bytes printed.final :: formatItems taken cs
  | 0, '%' :: '%' :: cs => .text [37] false :: formatItems 0 cs
  | 0, '%' :: cs =>
    match conversion? cs with
    | some (c, taken) => .convert c :: formatItems taken cs
    | none => [.cutOff]
  | 0, c :: cs => .text (charBytes c) false :: formatItems 0 cs

def padded (c : Conversion) (bytes : Bytes) : Bytes :=
  let missing := c.width.getD 0 - bytes.length
  if c.flags.contains '-' then bytes ++ List.replicate missing 32
  else List.replicate missing 32 ++ bytes

inductive NumberFault where
  | missing
  | incomplete
  deriving DecidableEq, Repr

def NumberFault.message : NumberFault → String
  | .missing => "expected numeric value"
  | .incomplete => "not completely converted"

def leadingNumber (base : Nat) (cs : List Char) : Nat × Option NumberFault :=
  let digits := cs.takeWhile fun c => (Decimal.digitIn? base c).isSome
  ((Decimal.natural? base digits).getD 0,
    if digits.isEmpty then some .missing
    else if digits.length < cs.length then some .incomplete
    else none)

def leadingConstant (cs : List Char) : Nat × Option NumberFault :=
  match cs with
  | '0' :: 'x' :: d :: rest =>
    if (Decimal.digitIn? 16 d).isSome then leadingNumber 16 (d :: rest) else (0, some .incomplete)
  | '0' :: _ => leadingNumber 8 cs
  | _ => leadingNumber 10 cs

def constant (s : String) : Int × Option NumberFault :=
  match s.toList.dropWhile Text.isBlank with
  | [] => (0, none)
  | '\'' :: c :: _ => (c.toNat, none)
  | '"' :: c :: _ => (c.toNat, none)
  | '-' :: cs => ((-(leadingConstant cs).1 : Int), (leadingConstant cs).2)
  | '+' :: cs => ((leadingConstant cs).1, (leadingConstant cs).2)
  | cs => ((leadingConstant cs).1, (leadingConstant cs).2)

def baseOf (letter : Char) : Nat :=
  if letter = 'o' then 8 else if letter = 'x' ∨ letter = 'X' then 16 else 10

def numberText (c : Conversion) (n : Int) : String :=
  let digits := Nat.toDigits (baseOf c.letter) n.natAbs
  let digits := if c.letter = 'X' then digits.map Char.toUpper else digits
  let least := match c.precision with
    | some p => p
    | none => if c.flags.contains '0' && !c.flags.contains '-' then
        c.width.getD 0 - (if n < 0 then 1 else 0) else 0
  let sign := if n < 0 then "-" else if c.flags.contains '+' then "+" else ""
  sign ++ String.ofList (List.replicate (least - digits.length) '0' ++ digits)

structure FormatFault where
  status : Nat
  message : String

structure Formatting where
  printed : Printed
  args : List String
  faults : List FormatFault

def Formatting.stop (f : Formatting) (message : String) : Formatting :=
  { f with printed := { f.printed with final := true }, faults := f.faults ++ [⟨2, message⟩] }

/-- One pass over the items; missing arguments count as empty. -/
def formatPass : List FormatItem → Formatting → Formatting
  | [], f => f
  | item :: rest, f =>
    if f.printed.final then f
    else match item with
      | .text bytes final => formatPass rest { f with printed := f.printed.append ⟨bytes, final⟩ }
      | .cutOff => f.stop "missing format character"
      | .convert c =>
        let arg := f.args.head?.getD ""
        let next := { f with args := f.args.tail }
        let add (p : Printed) : Formatting := { next with printed := f.printed.append p }
        if c.letter = 's' then
          let bytes := Utf8.encode arg
          formatPass rest (add ⟨padded c (bytes.take (c.precision.getD bytes.length)), false⟩)
        else if c.letter = 'b' then
          let p := unescape true arg
          formatPass rest (add ⟨padded c p.bytes, p.final⟩)
        else if c.letter = 'c' then
          formatPass rest (add ⟨padded c ((Utf8.encode arg).take 1), false⟩)
        else if "diouxX".toList.contains c.letter then
          let (n, fault) := constant arg
          let faults := fault.toList.map fun e => ⟨1, arg ++ ": " ++ e.message⟩
          formatPass rest
            { add ⟨padded c (Utf8.encode (numberText c n)), false⟩ with
              faults := f.faults ++ faults }
        else f.stop (c.text ++ ": invalid directive")

def formatAll (items : List FormatItem) : Nat → Formatting → Formatting
  | 0, f => f
  | fuel + 1, f =>
    let next := formatPass items f
    if next.args.isEmpty || next.printed.final || next.args.length = f.args.length then next
    else formatAll items fuel next

def printf (line : Nat) (args : List String) (s : State) : State :=
  match args with
  | [] => s.complain line 2 "printf: usage: printf format [arg ...]"
  | format :: args =>
    let f := formatAll (formatItems 0 format.toList) (args.length + 1) ⟨⟨[], false⟩, args, []⟩
    let s := (s.emit 1 f.printed.bytes).done
    f.faults.foldl (fun s e => s.complain line e.status ("printf: " ++ e.message)) s

end ReleaseMatrix.Shell
