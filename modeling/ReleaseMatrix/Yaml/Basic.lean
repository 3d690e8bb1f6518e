/- The marks of a YAML text, and the nodes of a document. -/
namespace ReleaseMatrix.Yaml

inductive Style where
  | plain
  | quoted
  | literal
  | folded
  deriving DecidableEq, Repr

inductive Token where
  | version (major minor : List Char)
  | tagPrefix (handle text : String)
  | documentStart
  | documentEnd
  | blockSequenceStart
  | blockMappingStart
  | blockEnd
  | flowSequenceStart
  | flowSequenceEnd
  | flowMappingStart
  | flowMappingEnd
  | blockEntry
  | flowEntry
  | key
  | value
  | reference (name : String)
  | anchor (name : String)
  | tag (handle text : String)
  | scalar (style : Style) (text : String)
  deriving DecidableEq, Repr

structure Marks where
  anchor : Option Nat := none
  tag : Option String := none
  deriving DecidableEq, Repr

inductive Node where
  | scalar (marks : Marks) (style : Style) (text : String)
  | sequence (marks : Marks) (items : List Node)
  | mapping (marks : Marks) (pairs : List (Node × Node))
  | reference (anchor : Nat)
  deriving Inhabited, Repr

/-- A text without any document has no root. -/
structure Document where
  root : Option Node
  deriving Inhabited, Repr

namespace Node

def anchored (anchor : Option Nat) (node : Node) : List (Nat × Node) :=
  match anchor with
  | some number => [(number, node)]
  | none => []

mutual

def anchors : Node → List (Nat × Node)
  | scalar marks style text => anchored marks.anchor (scalar marks style text)
  | sequence marks items => anchored marks.anchor (sequence marks items) ++ anchorsIn items
  | mapping marks pairs => anchored marks.anchor (mapping marks pairs) ++ anchorsInPairs pairs
  | reference _ => []

def anchorsIn : List Node → List (Nat × Node)
  | [] => []
  | node :: rest => node.anchors ++ anchorsIn rest

def anchorsInPairs : List (Node × Node) → List (Nat × Node)
  | [] => []
  | (k, v) :: rest => k.anchors ++ v.anchors ++ anchorsInPairs rest

end

def follow (table : List (Nat × Node)) : Node → Option Node
  | reference number => (table.reverse.find? fun p => p.1 == number).map Prod.snd
  | node => some node

end Node
end ReleaseMatrix.Yaml
