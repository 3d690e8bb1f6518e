import ReleaseMatrix.Config.Reader
import ReleaseMatrix.Yaml.Parser

/- Configurations in YAML. -/
namespace ReleaseMatrix

namespace Yaml

def isNullWord (s : String) : Bool := s == "null" || s == "Null" || s == "NULL" || s == "~"

def flagWord? (s : String) : Option Bool :=
  if s = "true" ∨ s = "True" ∨ s = "TRUE" then some true
  else if s = "false" ∨ s = "False" ∨ s = "FALSE" then some false
  else none

def unsigned? (cs : List Char) : Option Nat :=
  let digits := match cs with
    | '+' :: rest => rest
    | cs => cs
  match digits with
  | '0' :: 'x' :: rest => Decimal.natural? 16 rest
  | '0' :: 'o' :: rest => Decimal.natural? 8 rest
  | '0' :: 'b' :: rest => Decimal.natural? 2 rest
  | '0' :: _ :: _ => none
  | _ => Decimal.natural? 10 digits

def tagName (word : String) : String := "tag:yaml.org,2002:" ++ word

/-- The text of a scalar that may be other than text: a plain one, or one in a literal block with
   the tag of the kind that is asked for. -/
def Node.word? (kind : String) : Node → Option String
  | .scalar marks style text =>
    if style = .plain then some text
    else if style = .literal ∧ marks.tag = some (tagName kind) then some text
    else none
  | _ => none

def Node.text? : Node → Option String
  | .scalar _ _ text => some text
  | _ => none

def Node.isEmptyPlain : Node → Bool
  | .scalar _ style text => style == .plain && text == ""
  | _ => false

def Node.items? : Node → Option (List Node)
  | .sequence _ items => some items
  | node => if node.isEmptyPlain then some [] else none

def Node.present? : Node → Option Bool
  | .scalar marks .plain text =>
    match marks.tag with
    | none => some (text != "" && !isNullWord text)
    | some tag =>
      if tag = tagName "null" then (if isNullWord text then some false else none) else some true
  | _ => some true

def namedPairs? (follow : Node → Option Node) : List (Node × Node) → Option (List (String × Node))
  | [] => some []
  | (k, v) :: rest =>
    match (follow k).bind Node.text?, namedPairs? follow rest with
    | some name, some fields => some ((name, v) :: fields)
    | _, _ => none

def Node.fieldsOf? (follow : Node → Option Node) : Node → Option (Section Node)
  | .mapping _ pairs => (namedPairs? follow pairs).map .named
  | node => if node.isEmptyPlain then some (.named []) else none

def dataView (table : List (Nat × Node)) : DataView Node :=
  let follow := Node.follow table
  { text? := fun node => (follow node).bind Node.text?
    flag? := fun node => (follow node).bind fun n => (n.word? "bool").bind flagWord?
    count? := fun node =>
      (follow node).bind fun n =>
        ((n.word? "int").bind fun s => unsigned? s.toList).filter (· ≤ Decimal.maxNat32)
    items? := fun node => (follow node).bind Node.items?
    fieldsOf? := fun node => (follow node).bind (Node.fieldsOf? follow)
    present? := fun node => (follow node).bind Node.present? }

end Yaml

def Config.ofYaml? (s : String) : Option Config :=
  (Yaml.parse? s).bind fun document =>
    match document.root with
    | none => some {}
    | some root => (Yaml.dataView root.anchors).config? root

end ReleaseMatrix
