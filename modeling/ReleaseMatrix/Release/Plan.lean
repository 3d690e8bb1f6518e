import ReleaseMatrix.Build.Error
import ReleaseMatrix.Config.Validation

/- Which variants a run builds, with the environment and the names of each. -/
namespace ReleaseMatrix

structure PlannedVariant where
  index : Nat
  variant : NormalizedVariant

namespace Release

def normalizeAll (n : Normalizer) (ambient : List (String × String)) :
    List (Nat × VariantDescriptor) → Except VariantError (List PlannedVariant)
  | [] => .ok []
  | (index, d) :: rest =>
    match n.normalize d ambient with
    | .error e => .error e
    | .ok v =>
      match normalizeAll n ambient rest with
      | .error e => .error e
      | .ok plan => .ok (⟨index, v⟩ :: plan)

def selection (c : Config) (index : Option Nat) : Except VariantError Catalog :=
  match c.catalog with
  | .error e => .error e
  | .ok catalog => catalog.narrow index

/-- A configuration that keeps the rules, a selection within the matrix, and an operating system
   for every selected variant; the first that fails is the error. -/
def plan (c : Config) (ambient : List (String × String)) (index : Option Nat) :
    Except BuildError (List PlannedVariant) :=
  match c.validate with
  | .error e => .error (.project e)
  | .ok () =>
    match selection c index with
    | .error e => .error (.variant e)
    | .ok catalog =>
      match normalizeAll c.normalizer ambient catalog.entries with
      | .error e => .error (.variant e)
      | .ok plan => .ok plan

end Release
end ReleaseMatrix
