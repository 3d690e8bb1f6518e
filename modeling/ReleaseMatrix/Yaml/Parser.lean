import ReleaseMatrix.Yaml.Lexer

/- Nodes from tokens. -/
namespace ReleaseMatrix.Yaml

abbrev Prefixes := List (String × String)

def defaultPrefixes : Prefixes := [("!", "!"), ("!!", "tag:yaml.org,2002:")]

structure Source where
  tokens : List Token
  anchors : List (String × Nat) := []

namespace Source

def head? (s : Source) : Option Token := s.tokens.head?

def skip (s : Source) : Source := { s with tokens := s.tokens.tail }

/-- A new anchor has the number of names that there are; a name that is used again gets the
   number of the next new one. -/
def define (s : Source) (name : String) : Nat × Source :=
  let number := s.anchors.length
  (number, { s with anchors := s.anchors.filter (fun a => a.1 != name) ++ [(name, number)] })

def numberOf? (s : Source) (name : String) : Option Nat :=
  (s.anchors.find? fun a => a.1 == name).map Prod.snd

end Source

abbrev Parsed (α : Type) := Option (α × Source)

def fullTag? (prefixes : Prefixes) (handle text : String) : Option String :=
  if handle = "" then some text
  else (prefixes.find? fun p => p.1 == handle).map fun p => p.2 ++ text

structure Properties where
  anchor : Option String := none
  tag : Option (String × String) := none

def properties (s : Source) : Properties × Source :=
  match s.tokens with
  | .anchor name :: .tag handle text :: rest =>
    (⟨some name, some (handle, text)⟩, { s with tokens := rest })
  | .tag handle text :: .anchor name :: rest =>
    (⟨some name, some (handle, text)⟩, { s with tokens := rest })
  | .anchor name :: rest => (⟨some name, none⟩, { s with tokens := rest })
  | .tag handle text :: rest => (⟨none, some (handle, text)⟩, { s with tokens := rest })
  | _ => ({}, s)

def marks? (prefixes : Prefixes) (p : Properties) (s : Source) : Parsed Marks :=
  let tag := match p.tag with
    | none => some none
    | some (handle, text) => (fullTag? prefixes handle text).map some
  tag.map fun tag =>
    match p.anchor with
    | none => (⟨none, tag⟩, s)
    | some name =>
      let (number, s) := s.define name
      (⟨some number, tag⟩, s)

def emptyNode (marks : Marks) : Node := .scalar marks .plain ""

def scalarMarks (m : Marks) : Marks := { m with tag := m.tag.filter (· != "!") }

mutual

/- `indentless` allows a sequence whose dashes stand right below the key in front of it. -/
def nodeFuel (prefixes : Prefixes) : Nat → Bool → Bool → Source → Parsed Node
  | 0, _, _, _ => none
  | fuel + 1, block, indentless, s =>
    match s.head? with
    | some (.reference name) => (s.numberOf? name).map fun number => (.reference number, s.skip)
    | _ =>
      let (p, s) := properties s
      (marks? prefixes p s).bind fun (marks, s) =>
        let sequence (r : Parsed (List Node)) : Parsed Node :=
          r.map fun (items, s) => (.sequence marks items, s)
        let mapping (r : Parsed (List (Node × Node))) : Parsed Node :=
          r.map fun (pairs, s) => (.mapping marks pairs, s)
        match s.head? with
        | some (.scalar style text) => some (.scalar (scalarMarks marks) style text, s.skip)
        | some .flowSequenceStart => sequence (flowItemsFuel prefixes fuel true s.skip)
        | some .flowMappingStart => mapping (flowPairsFuel prefixes fuel true s.skip)
        | head =>
          if indentless && head == some .blockEntry then
            sequence (indentlessFuel prefixes fuel s)
          else if block && head == some .blockSequenceStart then
            sequence (blockItemsFuel prefixes fuel s.skip)
          else if block && head == some .blockMappingStart then
            mapping (blockPairsFuel prefixes fuel s.skip)
          else if marks.anchor.isSome || marks.tag.isSome then some (emptyNode marks, s)
          else none

def nodeUnlessFuel (prefixes : Prefixes) :
    Nat → List Token → Bool → Bool → Source → Parsed Node
  | 0, _, _, _, _ => none
  | fuel + 1, stops, block, indentless, s =>
    if s.head?.any stops.contains then some (emptyNode {}, s)
    else nodeFuel prefixes fuel block indentless s

def blockItemsFuel (prefixes : Prefixes) : Nat → Source → Parsed (List Node)
  | 0, _ => none
  | fuel + 1, s =>
    match s.head? with
    | some .blockEntry =>
      (nodeUnlessFuel prefixes fuel [.blockEntry, .blockEnd] true false s.skip).bind
        fun (item, s) => (blockItemsFuel prefixes fuel s).map fun (items, s) => (item :: items, s)
    | some .blockEnd => some ([], s.skip)
    | _ => none

def indentlessFuel (prefixes : Prefixes) : Nat → Source → Parsed (List Node)
  | 0, _ => none
  | fuel + 1, s =>
    match s.head? with
    | some .blockEntry =>
      (nodeUnlessFuel prefixes fuel [.blockEntry, .key, .value, .blockEnd] true false s.skip).bind
        fun (item, s) => (indentlessFuel prefixes fuel s).map fun (items, s) => (item :: items, s)
    | _ => some ([], s)

def blockValueFuel (prefixes : Prefixes) : Nat → Source → Parsed Node
  | 0, _ => none
  | fuel + 1, s =>
    match s.head? with
    | some .value => nodeUnlessFuel prefixes fuel [.key, .value, .blockEnd] true true s.skip
    | _ => some (emptyNode {}, s)

def blockPairsFuel (prefixes : Prefixes) : Nat → Source → Parsed (List (Node × Node))
  | 0, _ => none
  | fuel + 1, s =>
    match s.head? with
    | some .key =>
      (nodeUnlessFuel prefixes fuel [.key, .value, .blockEnd] true true s.skip).bind fun (k, s) =>
        (blockValueFuel prefixes fuel s).bind fun (v, s) =>
          (blockPairsFuel prefixes fuel s).map fun (pairs, s) => ((k, v) :: pairs, s)
    | some .blockEnd => some ([], s.skip)
    | _ => none

def flowPairFuel (prefixes : Prefixes) : Nat → Source → Parsed Node
  | 0, _ => none
  | fuel + 1, s =>
    let stops : List Token := [.value, .flowEntry, .flowSequenceEnd]
    let key :=
      if s.head?.any stops.contains then some (emptyNode {}, s.skip)
      else nodeFuel prefixes fuel false false s
    key.bind fun (k, s) =>
      match s.head? with
      | some .value =>
        (nodeUnlessFuel prefixes fuel [.flowEntry, .flowSequenceEnd] false false s.skip).map
          fun (v, s) => (.mapping {} [(k, v)], s)
      | _ => some (.mapping {} [(k, emptyNode {})], s)

def flowItemsFuel (prefixes : Prefixes) : Nat → Bool → Source → Parsed (List Node)
  | 0, _, _ => none
  | fuel + 1, first, s =>
    if s.head? = some .flowSequenceEnd then some ([], s.skip)
    else
      let next := if first then some s
        else if s.head? = some .flowEntry then some s.skip
        else none
      next.bind fun s =>
        match s.head? with
        | some .flowSequenceEnd => some ([], s.skip)
        | some .key =>
          (flowPairFuel prefixes fuel s.skip).bind fun (item, s) =>
            (flowItemsFuel prefixes fuel false s).map fun (items, s) => (item :: items, s)
        | _ =>
          (nodeFuel prefixes fuel false false s).bind fun (item, s) =>
            (flowItemsFuel prefixes fuel false s).map fun (items, s) => (item :: items, s)

def flowValueFuel (prefixes : Prefixes) : Nat → Source → Parsed Node
  | 0, _ => none
  | fuel + 1, s =>
    match s.head? with
    | some .value =>
      nodeUnlessFuel prefixes fuel [.flowEntry, .flowMappingEnd] false false s.skip
    | _ => some (emptyNode {}, s)

def flowPairsFuel (prefixes : Prefixes) : Nat → Bool → Source → Parsed (List (Node × Node))
  | 0, _, _ => none
  | fuel + 1, first, s =>
    if s.head? = some .flowMappingEnd then some ([], s.skip)
    else
      let next := if first then some s
        else if s.head? = some .flowEntry then some s.skip
        else none
      next.bind fun s =>
        match s.head? with
        | some .flowMappingEnd => some ([], s.skip)
        | some .key =>
          (nodeUnlessFuel prefixes fuel [.value, .flowEntry, .flowMappingEnd] false false s.skip).bind
            fun (k, s) =>
              (flowValueFuel prefixes fuel s).bind fun (v, s) =>
                (flowPairsFuel prefixes fuel false s).map fun (pairs, s) => ((k, v) :: pairs, s)
        | _ =>
          (nodeFuel prefixes fuel false false s).bind fun (k, s) =>
            (flowPairsFuel prefixes fuel false s).map fun (pairs, s) =>
              ((k, emptyNode {}) :: pairs, s)

end

structure Directives where
  versioned : Bool := false
  prefixes : Prefixes := []

/-- Directives in front of a document: one version at most, and no handle twice. -/
def directives? : Directives → List Token → Option (Directives × List Token)
  | d, .version major minor :: rest =>
    let known := Decimal.natural? 10 major == some 1 &&
      (Decimal.natural? 10 minor == some 1 || Decimal.natural? 10 minor == some 2)
    if d.versioned || !known then none else directives? { d with versioned := true } rest
  | d, .tagPrefix handle text :: rest =>
    if d.prefixes.any fun p => p.1 == handle then none
    else directives? { d with prefixes := d.prefixes ++ [(handle, text)] } rest
  | d, rest => some (d, rest)

def isDirective : Token → Bool
  | .version _ _ => true
  | .tagPrefix _ _ => true
  | _ => false

def atEnd (tokens : List Token) : Bool := tokens.all (· == .documentEnd)

def content? (prefixes : Prefixes) (tokens : List Token) : Option Document :=
  let source : Source := { tokens := tokens }
  let empty : Bool := match tokens with
    | [] => true
    | t :: _ => t == .documentStart || t == .documentEnd || isDirective t
  let node := if empty then some (emptyNode {}, source)
    else nodeFuel prefixes (3 * tokens.length + 3) true false source
  node.bind fun (root, s) => if atEnd s.tokens then some ⟨some root⟩ else none

def parse? (s : String) : Option Document :=
  (tokens? s).bind fun tokens =>
    match tokens with
    | [] => some ⟨none⟩
    | t :: _ =>
      if t == .documentStart || isDirective t then
        (directives? {} tokens).bind fun (d, rest) =>
          match rest with
          | .documentStart :: rest => content? (d.prefixes ++ defaultPrefixes) rest
          | _ => none
      else if t == .documentEnd then none
      else
        (nodeFuel defaultPrefixes (3 * tokens.length + 3) true false { tokens := tokens }).bind
          fun (root, s) => if atEnd s.tokens then some ⟨some root⟩ else none

end ReleaseMatrix.Yaml
