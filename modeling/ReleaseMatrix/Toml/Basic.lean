/- TOML values, and the tables of a document while they are being filled. -/
namespace ReleaseMatrix

inductive Toml where
  | text (s : String)
  | integer (n : Int)
  | bool (b : Bool)
  | float
  | time
  | list (items : List Toml)
  | table (fields : List (String × Toml))
  deriving Inhabited, Repr

namespace Toml

inductive Origin where
  | written
  | header
  | dotted
  deriving DecidableEq, Repr

inductive Node where
  | value (v : Toml)
  | table (origin : Origin) (fields : List (String × Node))
  /-- an array of tables: the tables before the last one, latest first, and the last one -/
  | tables (earlier : List (List (String × Node))) (last : List (String × Node))
  deriving Inhabited

abbrev Fields := List (String × Node)

def lookup (key : String) (fields : Fields) : Option Node :=
  (fields.find? fun f => f.1 == key).map Prod.snd

def store (key : String) (node : Node) : Fields → Fields
  | [] => [(key, node)]
  | f :: rest => if f.1 == key then (key, node) :: rest else f :: store key node rest

/-- Changes the table that a path of keys leads to, making the tables on the way. A dotted path
   does not enter a table that is written out; no path enters a value. -/
def changeAt {β : Type} (dotted : Bool) (change : Origin → Fields → Option (Fields × β)) :
    List String → Origin → Fields → Option (Fields × β)
  | [], origin, fields => change origin fields
  | key :: path, _, fields =>
    match lookup key fields with
    | none =>
      let origin := if dotted then Origin.dotted else .header
      (changeAt dotted change path origin []).map fun (inner, b) =>
        (store key (.table origin inner) fields, b)
    | some (.value _) => none
    | some (.table origin inner) =>
      if dotted && origin == .written then none
      else (changeAt dotted change path origin inner).map fun (inner, b) =>
        (store key (.table origin inner) fields, b)
    | some (.tables earlier last) =>
      (changeAt dotted change path .written last).map fun (last, b) =>
        (store key (.tables earlier last) fields, b)

/-- Gives a value to a key that may be dotted. The table the dots lead to must have come to be by
   dots, and the last key must be new. -/
def assign (path : List String) (key : String) (v : Toml) (fields : Fields) : Option Fields :=
  let put (origin : Origin) (inner : Fields) : Option (Fields × Unit) :=
    if !path.isEmpty && origin != .dotted then none
    else match lookup key inner with
      | some _ => none
      | none => some (inner ++ [(key, .value v)], ())
  (changeAt true put path .written fields).map Prod.fst

structure Building where
  root : Fields := []
  header : List String := []
  inArray : Bool := false
  current : Fields := []

namespace Building

def close (b : Building) : Option Fields :=
  match b.header.reverse with
  | [] => some b.current
  | key :: parents =>
    let put (_ : Origin) (fields : Fields) : Option (Fields × Unit) :=
      match lookup key fields, b.inArray with
      | none, true => some (store key (.tables [] b.current) fields, ())
      | some (.tables earlier last), true =>
        some (store key (.tables (last :: earlier) b.current) fields, ())
      | none, false => some (store key (.table .written b.current) fields, ())
      | _, _ => none
    (changeAt false put parents.reverse .written b.root).map Prod.fst

/-- Starts the table of a header. A table that only lies on the way to others is taken up with
   what it holds; any other use of the key is refused. -/
def openTable (b : Building) (path : List String) : Option Building :=
  match path.reverse with
  | [] => none
  | key :: parents =>
    let take (_ : Origin) (fields : Fields) : Option (Fields × Fields) :=
      match lookup key fields with
      | none => some (fields, [])
      | some (.table .header inner) => some (fields.filter fun f => f.1 != key, inner)
      | some _ => none
    b.close.bind fun root =>
      (changeAt false take parents.reverse .written root).map fun (root, inner) =>
        ⟨root, path, false, inner⟩

def openItem (b : Building) (path : List String) : Option Building :=
  match path.reverse with
  | [] => none
  | key :: parents =>
    let check (_ : Origin) (fields : Fields) : Option (Fields × Unit) :=
      match lookup key fields with
      | none => some (fields, ())
      | some (.tables _ _) => some (fields, ())
      | some _ => none
    b.close.bind fun root =>
      (changeAt false check parents.reverse .written root).map fun (root, _) =>
        ⟨root, path, true, []⟩

def assign (b : Building) (path : List String) (key : String) (v : Toml) : Option Building :=
  (Toml.assign path key v b.current).map fun fields => { b with current := fields }

end Building

mutual

def Node.toToml : Node → Toml
  | .value v => v
  | .table _ fields => .table (fieldsToml fields)
  | .tables earlier last => .list ((tablesToml earlier).reverse ++ [.table (fieldsToml last)])

def fieldsToml : List (String × Node) → List (String × Toml)
  | [] => []
  | (key, node) :: rest => (key, node.toToml) :: fieldsToml rest

def tablesToml : List (List (String × Node)) → List Toml
  | [] => []
  | fields :: rest => .table (fieldsToml fields) :: tablesToml rest

end

end Toml
end ReleaseMatrix
