import ReleaseMatrix.FileTree.Error
import ReleaseMatrix.Variant.Error

/- What can be wrong with a configuration, and with a project as a whole. -/
namespace ReleaseMatrix

inductive ConfigError where
  | notFound (directory : Path)
  | unparsable (detail : String)
  | invalidValue (field detail : String)
  | yaml (detail : String)
  | toml (detail : String)
  | io (cause : IoError)
  deriving DecidableEq, Repr

def ConfigError.message : ConfigError → String
  | notFound directory => "Configuration file not found at " ++ directory.text
  | unparsable detail => "Failed to parse configuration: " ++ detail
  | invalidValue field detail => "Invalid configuration: " ++ field ++ " - " ++ detail
  | yaml detail => "YAML error: " ++ detail
  | toml detail => "TOML parsing error: " ++ detail
  | io cause => "IO error reading config: " ++ cause.message

inductive ProjectError where
  | config (e : ConfigError)
  | variant (e : VariantError)
  | io (cause : IoError)
  deriving DecidableEq, Repr

def ProjectError.message : ProjectError → String
  | config e => e.message
  | variant e => e.message
  | io cause => "IO error: " ++ cause.message

end ReleaseMatrix
