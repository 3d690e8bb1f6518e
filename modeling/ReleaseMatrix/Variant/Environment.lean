import Std.Data.ExtTreeMap
import ReleaseMatrix.Text

/- Environment variables, one value a name, in the order of their names. -/
namespace ReleaseMatrix

structure Environment where
  vars : Std.ExtTreeMap String String

namespace Environment

def empty : Environment := ⟨∅⟩

instance : EmptyCollection Environment := ⟨empty⟩
instance : Inhabited Environment := ⟨empty⟩

def get? (e : Environment) (key : String) : Option String := e.vars[key]?

def contains (e : Environment) (key : String) : Bool := e.vars.contains key

def set (e : Environment) (key value : String) : Environment := ⟨e.vars.insert key value⟩

def unset (e : Environment) (key : String) : Environment := ⟨e.vars.erase key⟩

def setAll (e : Environment) (pairs : List (String × String)) : Environment :=
  pairs.foldl (fun e p => e.set p.1 p.2) e

def ofList (pairs : List (String × String)) : Environment := setAll ∅ pairs

def toList (e : Environment) : List (String × String) := e.vars.toList

def size (e : Environment) : Nat := e.vars.size

def isEmpty (e : Environment) : Bool := e.vars.isEmpty

end Environment
end ReleaseMatrix
