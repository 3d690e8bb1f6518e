import ReleaseMatrix.Config.Reader
import ReleaseMatrix.Toml.Parser

/- Configurations in TOML. -/
namespace ReleaseMatrix

namespace Toml

def asText? : Toml → Option String
  | .text s => some s
  | _ => none

def asFlag? : Toml → Option Bool
  | .bool b => some b
  | _ => none

def asCount? : Toml → Option Nat
  | .integer (.ofNat n) => if n ≤ Decimal.maxNat32 then some n else none
  | _ => none

def asItems? : Toml → Option (List Toml)
  | .list items => some items
  | _ => none

/-- A time is a group of fields too, none of which a configuration has. -/
def asSection? : Toml → Option (Section Toml)
  | .table fields => some (.named fields)
  | .list items => some (.positional items false)
  | .time => some (.named [])
  | _ => none

def dataView : DataView Toml where
  text? := asText?
  flag? := asFlag?
  count? := asCount?
  items? := asItems?
  fieldsOf? := asSection?
  present? _ := some true

end Toml

def Config.ofToml? (s : String) : Option Config := (Toml.parse? s).bind Toml.dataView.config?

end ReleaseMatrix
