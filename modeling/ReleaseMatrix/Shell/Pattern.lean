/- Patterns for texts and file names. A quoted character stands for itself. -/
namespace ReleaseMatrix.Shell

structure Marked where
  char : Char
  quoted : Bool
  deriving DecidableEq, Repr

abbrev Pattern := List Marked

def Marked.isOpen (m : Marked) (c : Char) : Bool := m.char == c && !m.quoted

def hasWildcard (p : Pattern) : Bool :=
  p.any fun m => m.isOpen '*' || m.isOpen '?' || m.isOpen '['

def textOf (p : Pattern) : List Char := p.map Marked.char

def members : Nat → Pattern → Option (List (Char × Char) × Pattern)
  | 0, _ => none
  | _ + 1, [] => none
  | fuel + 1, m :: rest =>
    if m.isOpen ']' then some ([], rest)
    else match rest with
      | dash :: high :: more =>
        if dash.isOpen '-' && !high.isOpen ']' then
          (members fuel more).map fun p => ((m.char, high.char) :: p.1, p.2)
        else (members fuel rest).map fun p => ((m.char, m.char) :: p.1, p.2)
      | _ => (members fuel rest).map fun p => ((m.char, m.char) :: p.1, p.2)

def bracket? (p : Pattern) : Option ((Char → Bool) × Pattern) :=
  let negated := match p with
    | m :: _ => m.isOpen '!' || m.isOpen '^'
    | [] => false
  let p := if negated then p.tail else p
  let parsed : Option (List (Char × Char) × Pattern) := match p with
    | m :: rest =>
      if m.isOpen ']' then
        (members (rest.length + 1) rest).map fun q => ((']', ']') :: q.1, q.2)
      else members (p.length + 1) p
    | [] => none
  parsed.map fun (ranges, rest) =>
    (fun c => (ranges.any fun r => r.1 ≤ c && c ≤ r.2) != negated, rest)

def matchesFuel : Nat → Pattern → List Char → Bool
  | 0, _, _ => false
  | _ + 1, [], s => s.isEmpty
  | fuel + 1, m :: p, s =>
    if m.isOpen '*' then
      matchesFuel fuel p s || match s with
        | [] => false
        | _ :: s => matchesFuel fuel (m :: p) s
    else match s with
      | [] => false
      | c :: s =>
        if m.isOpen '?' then matchesFuel fuel p s
        else match (if m.isOpen '[' then bracket? p else none) with
          | some (accepts, p) => accepts c && matchesFuel fuel p s
          | none => m.char == c && matchesFuel fuel p s

def Pattern.accepts (p : Pattern) (s : List Char) : Bool := matchesFuel (p.length + s.length + 1) p s

def acceptedStarts (p : Pattern) (s : List Char) : List Nat :=
  (List.range (s.length + 1)).filter fun n => p.accepts (s.take n)

def acceptedEnds (p : Pattern) (s : List Char) : List Nat :=
  (List.range (s.length + 1)).filter fun n => p.accepts (s.drop (s.length - n))

def pick (longest : Bool) (counts : List Nat) : Nat :=
  (if longest then counts.getLast? else counts.head?).getD 0

def cutStart (longest : Bool) (p : Pattern) (s : List Char) : List Char :=
  s.drop (pick longest (acceptedStarts p s))

def cutEnd (longest : Bool) (p : Pattern) (s : List Char) : List Char :=
  s.take (s.length - pick longest (acceptedEnds p s))

end ReleaseMatrix.Shell
