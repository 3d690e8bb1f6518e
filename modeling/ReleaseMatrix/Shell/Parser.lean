import ReleaseMatrix.Shell.Lexer

/- Commands out of tokens. -/
namespace ReleaseMatrix.Shell

structure ScriptFault where
  line : Nat
  message : String
  deriving DecidableEq, Repr

abbrev Parsing := Except ScriptFault

abbrev Parsed (α : Type) := α × List Located

def openingWords : List String := ["if", "while", "until", "for", "case", "\x7b", "!"]

def closingWords : List String := ["then", "do", "done", "fi", "else", "elif", "esac", "\x7d"]

def frontWord? : List Located → Option String
  | ⟨.word w, _⟩ :: _ => bare? w
  | _ => none

def shown (text : String) : String := "\"" ++ text ++ "\""

def Token.title : Token → String
  | .word w =>
    match bare? w with
    | some text => if (openingWords ++ closingWords).contains text then shown text else "word"
    | none => "word"
  | .operator text => shown text
  | .redirect _ _ => "redirection"
  | .document _ => "word"
  | .newline => "newline"
  | .finish => "end of file"
  | .broken message => message

def finishTitle : String := Token.title .finish

def unexpected (expected : Option String) : List Located → ScriptFault
  | ⟨.broken message, line⟩ :: _ => ⟨line, message⟩
  | [] => ⟨0, finishTitle ++ " unexpected"⟩
  | ⟨token, line⟩ :: _ =>
    let wanted := match expected with
      | some text => " (expecting " ++ text ++ ")"
      | none => ""
    let line := match token with
      | .newline => line + 1
      | _ => line
    ⟨line, token.title ++ " unexpected" ++ wanted⟩

def lineOf : List Located → Nat
  | [] => 0
  | t :: _ => t.line

def atEnd : List Located → Bool
  | [] => true
  | ⟨.finish, _⟩ :: _ => true
  | ⟨.operator text, _⟩ :: _ => text == ")" || text == ";;"
  | ts => (frontWord? ts).any closingWords.contains

def isFinished : List Located → Bool
  | [] => true
  | ⟨.finish, _⟩ :: _ => true
  | _ => false

def skipNewlines : List Located → List Located
  | ⟨.newline, _⟩ :: ts => skipNewlines ts
  | ts => ts

def hasWord (word : String) (ts : List Located) : Bool := frontWord? ts == some word

def expectWord (word : String) (ts : List Located) : Parsing (List Located) :=
  if hasWord word ts then .ok ts.tail else .error (unexpected (some (shown word)) ts)

def afterOperator? (text : String) : List Located → Option (List Located)
  | ⟨.operator t, _⟩ :: ts => if t = text then some ts else none
  | _ => none

def expectOperator (text : String) (ts : List Located) : Parsing (List Located) :=
  match afterOperator? text ts with
  | some rest => .ok rest
  | none => .error (unexpected (some (shown text)) ts)

def directionOf (text : String) : Direction :=
  if text = "<" then .read
  else if text = ">>" then .append
  else if text = ">&" ∨ text = "<&" then .duplicate
  else if text = "<<" ∨ text = "<<-" then .inline
  else .write

def redirectAt : List Located → Parsing (Parsed (Option Redirect))
  | ⟨.redirect d text, _⟩ :: ⟨.word w, _⟩ :: ts =>
    .ok (some ⟨d.getD (if text.startsWith "<" then 0 else 1), directionOf text, w⟩, ts)
  | ⟨.redirect d text, _⟩ :: ⟨.document w, _⟩ :: ts =>
    .ok (some ⟨d.getD 0, directionOf text, w⟩, ts)
  | ⟨.redirect _ _, _⟩ :: ts => .error (unexpected none ts)
  | ts => .ok (none, ts)

def redirectsAt : Nat → List Located → Parsing (Parsed (List Redirect))
  | 0, ts => .ok ([], ts)
  | fuel + 1, ts => do
    match ← redirectAt ts with
    | (some r, ts) =>
      let (more, ts) ← redirectsAt fuel ts
      return (r :: more, ts)
    | (none, ts) => return ([], ts)

def assignment? (name : List Char) : Word → Option (String × Word)
  | .text [c] false :: rest =>
    if c = '=' then if isEnvKey name then some (String.ofList name, rest) else none
    else assignment? (name ++ [c]) rest
  | _ => none

def simpleFrom (line : Nat) : Nat → List (String × Word) → List Word → List Redirect →
    List Located → Parsing (Parsed Command)
  | 0, _, _, _, ts => .error (unexpected none ts)
  | fuel + 1, assigns, words, reds, ts => do
    match ts with
    | ⟨.word w, _⟩ :: rest =>
      match (if words.isEmpty then assignment? [] w else none) with
      | some a => simpleFrom line fuel (assigns ++ [a]) words reds rest
      | none => simpleFrom line fuel assigns (words ++ [w]) reds rest
    | _ =>
      match ← redirectAt ts with
      | (some r, rest) => simpleFrom line fuel assigns words (reds ++ [r]) rest
      | (none, _) =>
        if assigns.isEmpty && words.isEmpty && reds.isEmpty then throw (unexpected none ts)
        return (.simple line assigns words reds, ts)

def wordsOf : List Located → List Word × List Located
  | ⟨.word w, _⟩ :: ts =>
    let (more, ts) := wordsOf ts
    (w :: more, ts)
  | ts => ([], ts)

def loopItems (ts : List Located) : Parsing (Parsed (Option (List Word))) :=
  let later := skipNewlines ts
  if hasWord "in" later then
    let (words, rest) := wordsOf later.tail
    match rest with
    | ⟨.operator ";", _⟩ :: rest => .ok (some words, skipNewlines rest)
    | ⟨.newline, _⟩ :: rest => .ok (some words, skipNewlines rest)
    | rest => .error (unexpected none rest)
  else .ok (none, skipNewlines ((afterOperator? ";" later).getD later))

def patternsOf : Nat → List Located → Parsing (Parsed (List Word))
  | 0, ts => .error (unexpected none ts)
  | fuel + 1, ⟨.word w, _⟩ :: ts =>
    match afterOperator? "|" ts with
    | some ts => (patternsOf fuel ts).map fun p => (w :: p.1, p.2)
    | none => (expectOperator ")" ts).map fun ts => ([w], ts)
  | _ + 1, ts => .error (unexpected (some (shown ")")) ts)

def specialCommands : List String :=
  [".", ":", "break", "continue", "eval", "exec", "exit", "export", "readonly", "return", "set",
    "shift", "times", "trap", "unset"]

def functionName (w : Word) : Option String :=
  (bare? w).filter fun name => isEnvKey name.toList && !specialCommands.contains name

mutual

def commands (mayBeEmpty : Bool) : Nat → List Located → Parsing (Parsed (List Command))
  | 0, ts => .error (unexpected none ts)
  | fuel + 1, ts => do
    let ts := skipNewlines ts
    if isFinished ts || (mayBeEmpty && atEnd ts) then return ([], ts)
    let (c, ts) ← andOr fuel ts
    match ts with
    | ⟨.operator op, _⟩ :: rest =>
      if op = ";" ∨ op = "&" then
        let (more, ts) ← commands true fuel rest
        return (c :: more, ts)
      return ([c], ts)
    | ⟨.newline, _⟩ :: rest =>
      let (more, ts) ← commands true fuel rest
      return (c :: more, ts)
    | _ => return ([c], ts)

def andOr : Nat → List Located → Parsing (Parsed Command)
  | 0, ts => .error (unexpected none ts)
  | fuel + 1, ts => do
    let (c, ts) ← pipeline fuel ts
    andOrFrom fuel c ts

def andOrFrom : Nat → Command → List Located → Parsing (Parsed Command)
  | 0, _, ts => .error (unexpected none ts)
  | fuel + 1, first, ts => do
    match afterOperator? "&&" ts, afterOperator? "||" ts with
    | some rest, _ =>
      let (c, ts) ← pipeline fuel (skipNewlines rest)
      andOrFrom fuel (.both first c) ts
    | _, some rest =>
      let (c, ts) ← pipeline fuel (skipNewlines rest)
      andOrFrom fuel (.either first c) ts
    | _, _ => return (first, ts)

def pipeline : Nat → List Located → Parsing (Parsed Command)
  | 0, ts => .error (unexpected none ts)
  | fuel + 1, ts => do
    let negated := hasWord "!" ts
    let (cs, ts) ← stages fuel (if negated then ts.tail else ts)
    match negated, cs with
    | false, [c] => return (c, ts)
    | _, cs => return (.pipe negated cs, ts)

def stages : Nat → List Located → Parsing (Parsed (List Command))
  | 0, ts => .error (unexpected none ts)
  | fuel + 1, ts => do
    let (c, ts) ← command fuel ts
    match afterOperator? "|" ts with
    | some rest =>
      let (more, ts) ← stages fuel (skipNewlines rest)
      return (c :: more, ts)
    | none => return ([c], ts)

def command : Nat → List Located → Parsing (Parsed Command)
  | 0, ts => .error (unexpected none ts)
  | fuel + 1, ts => do
    let word := frontWord? ts
    if (afterOperator? "(" ts).isSome || word.any openingWords.contains then
      let (c, rest) ← compound fuel (word.getD "(") ts
      let (reds, rest) ← redirectsAt rest.length rest
      return (if reds.isEmpty then c else .redirected (lineOf ts) c reds, rest)
    if word.any closingWords.contains then throw (unexpected none ts)
    match ts with
    | ⟨.word w, line⟩ :: ⟨.operator "(", _⟩ :: rest =>
      if (assignment? [] w).isSome then throw (unexpected none ts.tail)
      let rest ← expectOperator ")" rest
      match functionName w with
      | some name =>
        let (body, rest) ← command fuel (skipNewlines rest)
        return (.define name body, rest)
      | none => throw ⟨line, "Bad function name"⟩
    | _ => simpleFrom (lineOf ts) (ts.length + 1) [] [] [] ts

def compound : Nat → String → List Located → Parsing (Parsed Command)
  | 0, _, ts => .error (unexpected none ts)
  | fuel + 1, word, ts => do
    let rest := ts.tail
    match word with
    | "(" =>
      let (body, rest) ← commands false fuel rest
      return (.subshell (.sequence body), ← expectOperator ")" rest)
    | "if" => conditional fuel rest
    | "while" => looping fuel false rest
    | "until" => looping fuel true rest
    | "for" => iteration fuel (lineOf ts) rest
    | "case" => selection fuel (lineOf ts) rest
    | "\x7b" =>
      let (body, rest) ← commands false fuel rest
      return (.sequence body, ← expectWord "\x7d" rest)
    | _ => throw (unexpected none ts)

def conditional : Nat → List Located → Parsing (Parsed Command)
  | 0, ts => .error (unexpected none ts)
  | fuel + 1, ts => do
    let (condition, ts) ← commands false fuel ts
    let (body, ts) ← commands false fuel (← expectWord "then" ts)
    if hasWord "elif" ts then
      let (otherwise, ts) ← conditional fuel ts.tail
      return (.choose (.sequence condition) (.sequence body) otherwise, ts)
    if hasWord "else" ts then
      let (otherwise, ts) ← commands false fuel ts.tail
      return (.choose (.sequence condition) (.sequence body) (.sequence otherwise),
        ← expectWord "fi" ts)
    return (.choose (.sequence condition) (.sequence body) empty, ← expectWord "fi" ts)

def body : Nat → List Located → Parsing (Parsed Command)
  | 0, ts => .error (unexpected none ts)
  | fuel + 1, ts => do
    let (cs, ts) ← commands false fuel (← expectWord "do" ts)
    return (.sequence cs, ← expectWord "done" ts)

def looping : Nat → Bool → List Located → Parsing (Parsed Command)
  | 0, _, ts => .error (unexpected none ts)
  | fuel + 1, untilTrue, ts => do
    let (condition, ts) ← commands false fuel ts
    let (c, ts) ← body fuel ts
    return (.loop untilTrue (.sequence condition) c, ts)

def iteration : Nat → Nat → List Located → Parsing (Parsed Command)
  | 0, _, ts => .error (unexpected none ts)
  | fuel + 1, line, ts => do
    match (frontWord? ts).filter fun name => isEnvKey name.toList with
    | some name =>
      let (items, ts) ← loopItems ts.tail
      let (c, ts) ← body fuel ts
      return (.each line name items c, ts)
    | none => throw ⟨(unexpected none ts).line, "Bad for loop variable"⟩

def selection : Nat → Nat → List Located → Parsing (Parsed Command)
  | 0, _, ts => .error (unexpected none ts)
  | fuel + 1, line, ts => do
    match ts with
    | ⟨.word w, _⟩ :: ts =>
      let (arms, ts) ← arms fuel (skipNewlines (← expectWord "in" (skipNewlines ts)))
      return (.select line w arms, ts)
    | _ => throw (unexpected (some "word") ts)

def arms : Nat → List Located → Parsing (Parsed (List (List Word × Command)))
  | 0, ts => .error (unexpected none ts)
  | fuel + 1, ts => do
    if hasWord "esac" ts then return ([], ts.tail)
    let (patterns, ts) ← patternsOf (ts.length + 1) ((afterOperator? "(" ts).getD ts)
    let (cs, ts) ← commands true fuel ts
    if hasWord "esac" ts then return ([(patterns, .sequence cs)], ts.tail)
    let (more, ts) ← arms fuel (skipNewlines (← expectOperator ";;" ts))
    return ((patterns, .sequence cs) :: more, ts)

end

/-- The commands of the first line and what follows them; none at the end of the script. Every
    token is reached after a few nested steps at most. -/
def firstLine (ts : List Located) : Parsing (Parsed (Option Command)) :=
  let ts := skipNewlines ts
  if isFinished ts then .ok (none, ts)
  else lineFrom (ts.length + 1) [] ts
where
  lineFrom : Nat → List Command → List Located → Parsing (Parsed (Option Command))
    | 0, _, ts => .error (unexpected none ts)
    | fuel + 1, before, ts => do
      let (c, rest) ← andOr (8 * ts.length + 8) ts
      let all := before ++ [c]
      match rest with
      | ⟨.operator op, _⟩ :: more =>
        if op ≠ ";" ∧ op ≠ "&" then throw (unexpected none rest)
        match more with
        | ⟨.newline, _⟩ :: _ => return (some (.sequence all), more)
        | ⟨.finish, _⟩ :: _ => return (some (.sequence all), more)
        | _ => lineFrom fuel all more
      | ⟨.newline, _⟩ :: _ => return (some (.sequence all), rest)
      | ⟨.finish, _⟩ :: _ => return (some (.sequence all), rest)
      | _ => throw (unexpected none rest)

end ReleaseMatrix.Shell
