import ReleaseMatrix.Json.Basic
import ReleaseMatrix.Section

/- Reading records out of JSON values. -/
namespace ReleaseMatrix.Json

def lastFields : List (String × Json) → List (String × Json)
  | [] => []
  | f :: rest => if rest.any fun g => g.1 == f.1 then lastFields rest else f :: lastFields rest

def count32? (j : Json) : Option Nat := j.asNat?.filter (· ≤ Decimal.maxNat32)

def isNull : Json → Bool
  | .null => true
  | _ => false

def fieldsOf? : Json → Option (Section Json)
  | .object fields => some (.named (lastFields fields))
  | .list items => some (.positional items true)
  | _ => none

def count64? (j : Json) : Option Nat := j.asNat?.filter (· ≤ Decimal.maxNat64)

def unlessNull? {α : Type} (read : Json → Option α) (j : Json) : Option (Option α) :=
  if j.isNull then some none else (read j).map some

def listOf? {α : Type} (read : Json → Option α) (j : Json) : Option (List α) :=
  j.asList?.bind fun items => items.mapM read

def texts? (j : Json) : Option (List String) := j.listOf? asText?

def record? (names : List String) (j : Json) : Option (Section Json) :=
  j.fieldsOf?.filter fun s => s.fits names

end ReleaseMatrix.Json
