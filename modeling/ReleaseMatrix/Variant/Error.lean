import ReleaseMatrix.Text
import ReleaseMatrix.Text.Decimal

/- What can be wrong with a variant, a catalog of variants or a selection from one. -/
namespace ReleaseMatrix

inductive VariantError where
  | emptyKey (position : Nat)
  | emptyValue (key : String)
  | invalidKey (key : String)
  | malformed (item : String)
  | emptyDescriptor
  | emptyCatalog
  | indexOutOfRange (index size : Nat)
  | missingTargetOs (label : String)
  deriving DecidableEq, Repr

def VariantError.message : VariantError → String
  | .emptyKey position => "Variant override #" ++ Decimal.ofNat position ++ " has an empty key"
  | .emptyValue key => "Variant override '" ++ key ++ "' has an empty value"
  | .invalidKey key => "Invalid environment variable name in variant: '" ++ key ++ "'"
  | .malformed item => "Malformed variant override '" ++ item ++ "', expected KEY=VALUE"
  | .emptyDescriptor => "Variant descriptor has no overrides"
  | .emptyCatalog => "Variant catalog is empty"
  | .indexOutOfRange index size =>
    "Variant index " ++ Decimal.ofNat index ++ " is out of range (catalog has " ++
      Decimal.ofNat size ++ " variants, valid indexes 0..=" ++ Decimal.ofNat (size - 1) ++ ")"
  | .missingTargetOs label =>
    "Variant '" ++ label ++ "' does not resolve a target operating system (GOOS is unset)"

end ReleaseMatrix
