import ReleaseMatrix.Shell.Script

/- The tokens of a script: words with their quotes resolved, operators, ends of lines. -/
namespace ReleaseMatrix.Shell

inductive Token where
  | word (w : Word)
  | operator (text : String)
  | redirect (descriptor : Option Nat) (text : String)
  | document (w : Word)
  | newline
  | finish
  | broken (message : String)
  deriving Repr

structure Located where
  token : Token
  line : Nat
  deriving Repr

def backquote : Char := Char.ofNat 96

/-- What stands before a closing bracket that matches one already open; text between quotes, of
    the kinds that count, is passed over. -/
def balanced (quotes : List Char) (opening closing : Char) :
    Option Char → Nat → List Char → Option (List Char × List Char)
  | _, _, [] => none
  | some q, depth, c :: rest =>
    (balanced quotes opening closing (if c = q then none else some q) depth rest).map
      fun p => (c :: p.1, p.2)
  | none, depth, '\\' :: c :: rest =>
    (balanced quotes opening closing none depth rest).map fun p => ('\\' :: c :: p.1, p.2)
  | none, depth, c :: rest =>
    if c = closing then
      match depth with
      | 0 => some ([], rest)
      | depth + 1 =>
        (balanced quotes opening closing none depth rest).map fun p => (c :: p.1, p.2)
    else
      let quote := if quotes.contains c then some c else none
      let depth := if c = opening then depth + 1 else depth
      (balanced quotes opening closing quote depth rest).map fun p => (c :: p.1, p.2)

def isSpecial (c : Char) : Bool := "@*#?$!-0123456789".toList.contains c

def parameterName : List Char → Option (String × List Char)
  | [] => none
  | c :: rest =>
    if isKeyStart c then
      some (String.ofList (c :: rest.takeWhile isKeyRest), rest.dropWhile isKeyRest)
    else if isSpecial c then some (String.ofList [c], rest)
    else none

def treatment? : List Char → Option Treatment
  | [] => some .plain
  | ':' :: '-' :: w => some (.default true w)
  | ':' :: '=' :: w => some (.assign true w)
  | ':' :: '+' :: w => some (.alternate true w)
  | ':' :: '?' :: w => some (.demand true w)
  | '-' :: w => some (.default false w)
  | '=' :: w => some (.assign false w)
  | '+' :: w => some (.alternate false w)
  | '?' :: w => some (.demand false w)
  | '#' :: '#' :: w => some (.cutStart true w)
  | '#' :: w => some (.cutStart false w)
  | '%' :: '%' :: w => some (.cutEnd true w)
  | '%' :: w => some (.cutEnd false w)
  | _ => none

def bracedName (cs : List Char) : Option (String × List Char) :=
  let digits := cs.takeWhile Char.isDigit
  if digits.isEmpty then parameterName cs else some (String.ofList digits, cs.drop digits.length)

def braced (line : Nat) (quoted : Bool) (inner : List Char) : Part :=
  let plain := match bracedName inner with
    | some (name, rest) => Part.parameter line name ((treatment? rest).getD .senseless) quoted
    | none => .parameter line "" .senseless quoted
  match inner with
  | '#' :: rest =>
    match bracedName rest with
    | some (name, []) => .parameter line name .length quoted
    | _ => plain
  | _ => plain

def cutsValue (inner : List Char) : Bool :=
  match bracedName inner with
  | some (_, c :: _) => c == '#' || c == '%'
  | _ => false

abbrev Reading := Except String

def orBroken {α : Type} (message : String) : Option α → Reading α
  | some a => .ok a
  | none => .error message

def unterminated : String := "Unterminated quoted string"

/-- The text up to the closing brace. Between double quotes a single quote is text, except in a
    pattern. -/
def bracedText (quoted : Bool) (cs : List Char) : Reading (List Char × List Char) :=
  let quotes := if quoted && !cutsValue cs then ['"'] else ['"', '\'']
  let message := if quoted then unterminated else "Missing '\x7d'"
  orBroken message (balanced quotes '\x7b' '\x7d' none 0 cs)

def bracketedText? (cs : List Char) : Option (List Char × List Char) :=
  balanced ['"', '\''] '(' ')' none 0 cs

def outputText (cs : List Char) : Reading (List Char × List Char) :=
  orBroken "end of file unexpected (expecting \")\")" (bracketedText? cs)

def dollar (line : Nat) (quoted : Bool) : List Char → Reading (Part × List Char)
  | '(' :: '(' :: rest =>
    match bracketedText? rest with
    | some (inner, ')' :: rest) => .ok (.arithmetic line inner quoted, rest)
    | some _ => (outputText ('(' :: rest)).map fun p => (.output line p.1 quoted, p.2)
    | none => .error "Missing '))'"
  | '(' :: rest => (outputText rest).map fun p => (.output line p.1 quoted, p.2)
  | '\x7b' :: rest =>
    (bracedText quoted rest).map fun (inner, rest) => (braced line quoted inner, rest)
  | cs =>
    match parameterName cs with
    | some (name, rest) =>
      let first := name.toList.take 1
      if first.all isKeyStart then .ok (.parameter line name .plain quoted, rest)
      else .ok (.parameter line (String.ofList first) .plain quoted, cs.drop 1)
    | none => .ok (.text ['$'] quoted, cs)

def backquoted : List Char → Reading (List Char × List Char)
  | [] => .error "EOF in backquote substitution"
  | '\\' :: c :: rest =>
    let taken := if c = backquote ∨ c = '\\' ∨ c = '$' then [c] else ['\\', c]
    (backquoted rest).map fun p => (taken ++ p.1, p.2)
  | c :: rest =>
    if c = backquote then .ok ([], rest) else (backquoted rest).map fun p => (c :: p.1, p.2)

def countNewlines (before after : List Char) : Nat :=
  (before.take (before.length - after.length)).count '\n'

def backquotedLine : Nat := 1

def doubleQuoted (document : Bool) : Nat → Nat → List Char → Reading (List Part × List Char)
  | 0, _, _ => .error unterminated
  | _ + 1, _, [] => if document then .ok ([], []) else .error unterminated
  | fuel + 1, line, '\\' :: c :: rest =>
    let taken :=
      if c = '\n' then []
      else if c = '$' ∨ c = '\\' ∨ c = backquote ∨ (c = '"' ∧ !document) then [c]
      else ['\\', c]
    let next := if c = '\n' then line + 1 else line
    (doubleQuoted document fuel next rest).map fun p => (.text taken true :: p.1, p.2)
  | fuel + 1, line, c :: rest =>
    let go (part : Part) (after : List Char) : Reading (List Part × List Char) :=
      (doubleQuoted document fuel (line + countNewlines rest after) after).map
        fun p => (part :: p.1, p.2)
    if c = '"' ∧ !document then .ok ([], rest)
    else if c = '$' then (dollar line true rest).bind fun (part, after) => go part after
    else if c = backquote then
      (backquoted rest).bind fun (script, after) => go (.output backquotedLine script true) after
    else
      let next := if c = '\n' then line + 1 else line
      (doubleQuoted document fuel next rest).map fun p => (.text [c] true :: p.1, p.2)

def isBlankChar (c : Char) : Bool := c == ' ' || c == '\t'

def isOperatorChar (c : Char) : Bool := ";&|<>()\n".toList.contains c

def endsWord (c : Char) : Bool := isBlankChar c || isOperatorChar c

def orEmptyText (parts : List Part) : List Part :=
  if parts.isEmpty then [.text [] true] else parts

inductive Reach where
  | word
  | text
  | quotedText
  deriving DecidableEq

def wordParts (reach : Reach) : Nat → Nat → List Char → Reading (List Part × List Char)
  | 0, _, _ => .error unterminated
  | _ + 1, _, [] => .ok ([], [])
  | fuel + 1, line, '\\' :: c :: rest =>
    if c = '\n' then wordParts reach fuel (line + 1) rest
    else (wordParts reach fuel line rest).map fun p => (.text [c] true :: p.1, p.2)
  | fuel + 1, line, c :: rest =>
    let go (parts : List Part) (after : List Char) : Reading (List Part × List Char) :=
      (wordParts reach fuel (line + countNewlines rest after) after).map
        fun p => (parts ++ p.1, p.2)
    if reach = .word && endsWord c then .ok ([], c :: rest)
    else if c = '\'' ∧ reach ≠ .quotedText then
      (orBroken unterminated (Text.cut? '\'' rest)).bind fun (inner, after) =>
        go [.text inner true] after
    else if c = '"' then
      (doubleQuoted false fuel line rest).bind fun (inner, after) => go (orEmptyText inner) after
    else if c = '$' then
      (dollar line (reach = .quotedText) rest).bind fun (part, after) => go [part] after
    else if c = backquote then
      (backquoted rest).bind fun (script, after) =>
        go [.output backquotedLine script (reach = .quotedText)] after
    else
      let next := if c = '\n' then line + 1 else line
      (wordParts reach fuel next rest).map fun p => (.text [c] false :: p.1, p.2)

def wordOf (line : Nat) (quoted : Bool) (cs : List Char) : Reading Word :=
  (wordParts (if quoted then .quotedText else .text) (cs.length + 1) line cs).map Prod.fst

def documentOf (line : Nat) (cs : List Char) : Reading Word :=
  (doubleQuoted true (cs.length + 1) line cs).map Prod.fst

def operators : List String := ["&&", "||", ";;", ";", "&", "|", "(", ")"]

def redirections : List String := ["<<-", "<<", ">>", ">&", "<&", ">|", "<", ">"]

def firstOf (texts : List String) (cs : List Char) : Option (String × List Char) :=
  (texts.find? fun t => t.toList.isPrefixOf cs).map fun t => (t, cs.drop t.length)

def takeLines (delimiter : List Char) (stripTabs : Bool) :
    Nat → List Char → List Char × List Char
  | 0, cs => ([], cs)
  | fuel + 1, cs =>
    let shown (line : List Char) : List Char :=
      if stripTabs then line.dropWhile (· == '\t') else line
    match Text.cut? '\n' cs with
    | none => (if shown cs = delimiter then [] else shown cs, [])
    | some (line, rest) =>
      if shown line = delimiter then ([], rest)
      else
        let (more, rest) := takeLines delimiter stripTabs fuel rest
        (shown line ++ '\n' :: more, rest)

structure Announced where
  delimiter : List Char
  quoted : Bool
  stripTabs : Bool

def isQuotedWord (w : Word) : Bool := w.any fun p => match p with
  | .text _ quoted => quoted
  | _ => false

def documents : Nat → List Announced → List Char → Reading (List Word × List Char)
  | _, [], cs => .ok ([], cs)
  | line, a :: more, cs =>
    let (body, rest) := takeLines a.delimiter a.stripTabs (cs.length + 1) cs
    let word := if a.quoted then .ok [Part.text body true] else documentOf line body
    word.bind fun w =>
      (documents (line + countNewlines cs rest) more rest).map
        fun p => ((w ++ [.text [] true]) :: p.1, p.2)

/-- The tokens from a line on. A document takes the place of its delimiter, which is kept with
   the operator until the line has ended. -/
structure Scan where
  tokens : List Located
  announced : List Announced
  wantsDelimiter : Option Bool

def fillDocuments : List Located → List Word → List Located
  | [], _ => []
  | ⟨.document [], line⟩ :: rest, w :: ws => ⟨.document w, line⟩ :: fillDocuments rest ws
  | t :: rest, ws => t :: fillDocuments rest ws

def scan : Nat → Nat → Scan → List Char → List Located
  | 0, line, s, _ => (⟨.finish, line⟩ :: s.tokens).reverse
  | _ + 1, line, s, [] =>
    match documents line s.announced [] with
    | .ok (bodies, _) => fillDocuments s.tokens.reverse bodies ++ [⟨.finish, line⟩]
    | .error message => (⟨.broken message, line⟩ :: s.tokens).reverse
  | fuel + 1, line, s, c :: rest =>
    let cs := c :: rest
    let add (token : Token) : Scan := { s with tokens := ⟨token, line⟩ :: s.tokens }
    let breakOff (message : String) : List Located :=
      (⟨.broken message, line + cs.count '\n'⟩ :: s.tokens).reverse
    if isBlankChar c then scan fuel line s rest
    else if c = '\\' ∧ rest.take 1 = ['\n'] then scan fuel (line + 1) s (rest.drop 1)
    else if c = '#' then scan fuel line s (rest.dropWhile (· != '\n'))
    else if c = '\n' then
      match documents (line + 1) s.announced rest with
      | .error message => breakOff message
      | .ok (bodies, after) =>
        let filled := fillDocuments s.tokens.reverse bodies
        let next := line + 1 + countNewlines rest after
        scan fuel next ⟨⟨.newline, line⟩ :: filled.reverse, [], none⟩ after
    else
      let digits := cs.takeWhile Char.isDigit
      let afterDigits := cs.dropWhile Char.isDigit
      match firstOf redirections afterDigits with
      | some (text, rest) =>
        let s := add (.redirect (Decimal.natural? 10 digits) text)
        let wants := if text = "<<" then some false else if text = "<<-" then some true else none
        scan fuel line { s with wantsDelimiter := wants } rest
      | none =>
        match firstOf operators cs with
        | some (text, rest) => scan fuel line (add (.operator text)) rest
        | none =>
          match wordParts .word (cs.length + 1) line cs with
          | .error message => breakOff message
          | .ok (w, after) =>
            let next := line + countNewlines cs after
            match s.wantsDelimiter with
            | some stripTabs =>
              let announced : Announced :=
                ⟨((literal? w).getD "").toList, isQuotedWord w, stripTabs⟩
              let s := add (.document [])
              scan fuel next
                { s with announced := s.announced ++ [announced], wantsDelimiter := none } after
            | none => scan fuel next (add (.word w)) after

/-- The tokens of a script that starts in some line. Each step takes a character at least, so the
    length of the script bounds their number. -/
def tokens (line : Nat) (script : List Char) : List Located :=
  scan (script.length + 1) line ⟨[], [], none⟩ script

end ReleaseMatrix.Shell
