import ReleaseMatrix.Text.Decimal

/- JSON values. Objects keep the order of their fields. -/
namespace ReleaseMatrix

inductive Json where
  | null
  | bool (b : Bool)
  | integer (n : Int)
  /- `digits` divided by ten to the power `places`; zero has a sign too -/
  | decimal (negative : Bool) (digits places : Nat)
  | text (s : String)
  | list (items : List Json)
  | object (fields : List (String × Json))
  deriving Inhabited, BEq, Repr

namespace Json

def ofNat (n : Nat) : Json := .integer n

def ofOption {α : Type} (f : α → Json) : Option α → Json
  | none => .null
  | some a => f a

def ofTexts (items : List String) : Json := .list (items.map .text)

def field? (fields : List (String × Json)) (key : String) : Option Json :=
  (fields.reverse.find? fun f => f.1 == key).map Prod.snd

def get? : Json → String → Option Json
  | .object fields, key => field? fields key
  | _, _ => none

def asText? : Json → Option String
  | .text s => some s
  | _ => none

def asBool? : Json → Option Bool
  | .bool b => some b
  | _ => none

def asNat? : Json → Option Nat
  | .integer (.ofNat n) => some n
  | _ => none

def asList? : Json → Option (List Json)
  | .list items => some items
  | _ => none

def asObject? : Json → Option (List (String × Json))
  | .object fields => some fields
  | _ => none

def insertField (key : String) (value : Json) : List (String × Json) → List (String × Json)
  | [] => [(key, value)]
  | f :: rest =>
    if key < f.1 then (key, value) :: f :: rest
    else if key = f.1 then (key, value) :: rest
    else f :: insertField key value rest

def sortFields (fields : List (String × Json)) : List (String × Json) :=
  fields.foldl (fun acc f => insertField f.1 f.2 acc) []

mutual

/-- Every object with its fields in the order of their keys, the last of repeated keys kept. -/
def sorted : Json → Json
  | .list items => .list (sortedItems items)
  | .object fields => .object (sortFields (sortedFields fields))
  | j => j

def sortedItems : List Json → List Json
  | [] => []
  | j :: rest => sorted j :: sortedItems rest

def sortedFields : List (String × Json) → List (String × Json)
  | [] => []
  | (k, j) :: rest => (k, sorted j) :: sortedFields rest

end

end Json
end ReleaseMatrix
