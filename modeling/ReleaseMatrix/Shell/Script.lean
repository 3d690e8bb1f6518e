import ReleaseMatrix.Text.Decimal
import ReleaseMatrix.Variant.Descriptor

/- Shell scripts as they are read: words with what they expand, and commands. -/
namespace ReleaseMatrix.Shell

/-- What becomes of the value of a parameter. The words in it are still text. -/
inductive Treatment where
  | plain
  | length
  | default (colon : Bool) (word : List Char)
  | assign (colon : Bool) (word : List Char)
  | alternate (colon : Bool) (word : List Char)
  | demand (colon : Bool) (word : List Char)
  | cutStart (longest : Bool) (pattern : List Char)
  | cutEnd (longest : Bool) (pattern : List Char)
  | senseless
  deriving Repr, Inhabited

/-- A part of a word; what is quoted is neither split nor matched against file names. Parts that
    hold text still to be read know the line it starts in. -/
inductive Part where
  | text (chars : List Char) (quoted : Bool)
  | parameter (line : Nat) (name : String) (treatment : Treatment) (quoted : Bool)
  | output (line : Nat) (script : List Char) (quoted : Bool)
  | arithmetic (line : Nat) (expression : List Char) (quoted : Bool)
  deriving Repr, Inhabited

abbrev Word := List Part

def Part.literal? : Part → Option (List Char)
  | .text chars _ => some chars
  | _ => none

def literal? (w : Word) : Option String :=
  (w.mapM Part.literal?).map fun pieces => String.ofList pieces.flatten

def bare? (w : Word) : Option String :=
  if w.all fun p => match p with
    | .text _ quoted => !quoted
    | _ => false
  then literal? w else none

inductive Direction where
  | read
  | write
  | append
  | duplicate
  | inline
  deriving DecidableEq, Repr

structure Redirect where
  descriptor : Nat
  direction : Direction
  target : Word
  deriving Repr

inductive Command where
  | simple (line : Nat) (assigns : List (String × Word)) (words : List Word)
      (redirects : List Redirect)
  | pipe (negated : Bool) (stages : List Command)
  | both (first second : Command)
  | either (first second : Command)
  | sequence (commands : List Command)
  | subshell (body : Command)
  | choose (condition body otherwise : Command)
  | loop (untilTrue : Bool) (condition body : Command)
  | each (line : Nat) (name : String) (items : Option (List Word)) (body : Command)
  | select (line : Nat) (subject : Word) (arms : List (List Word × Command))
  | define (name : String) (body : Command)
  | redirected (line : Nat) (body : Command) (redirects : List Redirect)
  deriving Inhabited

def empty : Command := .sequence []

end ReleaseMatrix.Shell
