import ReleaseMatrix.Variant.Catalog
import ReleaseMatrix.Variant.Environment

/- What a variant is built as: the environment its compiler runs in, the binary, the archive. -/
namespace ReleaseMatrix

namespace Key
def os : String := "GOOS"
def arch : String := "GOARCH"
def amd64Level : String := "GOAMD64"
def cgo : String := "CGO_ENABLED"
end Key

def defaultAmd64Level : String := "v3"

structure BuildTarget where
  os : String
  arch : Option String
  binaryName : String
  archiveName : String
  buildMode : Option String
  deriving DecidableEq, Repr

structure NormalizedVariant where
  label : String
  env : Environment
  target : BuildTarget

/-- What the names and the environment of a variant depend on besides its descriptor. -/
structure Normalizer where
  project : String
  amd64Level : String := defaultAmd64Level
  deriving DecidableEq, Repr

namespace Normalizer

/-- The ambient variables under the overrides; native interop is off, and an amd64 target whose
   descriptor names no level is built at the default one. -/
def environment (n : Normalizer) (d : VariantDescriptor) (ambient : List (String × String)) :
    Environment :=
  let overlaid := (Environment.ofList ambient).setAll (d.overrides.map fun o => (o.key, o.value))
  let fixed := overlaid.set Key.cgo "0"
  if fixed.get? Key.arch = some "amd64" ∧ d.contains Key.amd64Level = false then
    fixed.set Key.amd64Level n.amd64Level
  else fixed

def archiveName (n : Normalizer) (d : VariantDescriptor) : String :=
  Text.joinWith "-" (n.project :: d.values) ++ ".zip"

def binaryName (n : Normalizer) (os : String) : String :=
  if os = "windows" then n.project ++ ".exe" else n.project

def buildMode (os : String) : Option String :=
  if os = "linux" then some "-buildmode=pie" else none

def target (n : Normalizer) (d : VariantDescriptor) (env : Environment) :
    Except VariantError BuildTarget :=
  match env.get? Key.os with
  | none => .error (.missingTargetOs d.label)
  | some os =>
    if os = "" then .error (.missingTargetOs d.label)
    else .ok ⟨os, env.get? Key.arch, n.binaryName os, n.archiveName d, buildMode os⟩

def normalize (n : Normalizer) (d : VariantDescriptor) (ambient : List (String × String)) :
    Except VariantError NormalizedVariant :=
  let env := n.environment d ambient
  match n.target d env with
  | .error e => .error e
  | .ok target => .ok ⟨d.label, env, target⟩

end Normalizer
end ReleaseMatrix
