import ReleaseMatrix.Config.Error

/- What can go wrong while a release is built. -/
namespace ReleaseMatrix

inductive ArchiveError where
  | unsupportedLevel
  | duplicateName (name : String)
  | nameTooLong
  | io (cause : IoError)
  deriving DecidableEq, Repr

namespace ArchiveError

def message : ArchiveError → String
  | unsupportedLevel => "unsupported Zip archive: Unsupported compression level"
  | duplicateName name => "invalid Zip archive: Duplicate filename: " ++ name
  | nameTooLong => "invalid Zip archive: File name too long"
  | io cause => "i/o error: " ++ cause.message

def causes : ArchiveError → List String
  | io cause => [cause.message]
  | _ => []

end ArchiveError

inductive BuildError where
  | toolNotFound (tool hint : String)
  | commandFailed (command : String) (exitCode : Option Int) (stdout stderr : String)
  | generation (detail : String)
  | generationCaused (detail : String) (cause : BuildError)
  | artifactNotFound (expected : Path)
  | outputDirectory (path : Path) (cause : IoError)
  | companionFile (path : Path) (cause : IoError)
  | archive (cause : ArchiveError)
  | timestamp (detail : String)
  | variant (e : VariantError)
  | project (e : ProjectError)
  | io (cause : IoError)
  deriving DecidableEq, Repr

namespace BuildError

def describeExit : Option Int → String
  | some code => "exit code " ++ Decimal.ofInt code
  | none => "terminated by signal"

def tailLines : Nat := 5

def tailText (stderr : String) : String :=
  let written := (Text.lines stderr).filter fun line => !Text.allBlank line
  if written.isEmpty then ""
  else "\n" ++ Text.joinWith "\n" (written.drop (written.length - tailLines))

def message : BuildError → String
  | toolNotFound tool hint => "Required tool '" ++ tool ++ "' not found. " ++ hint
  | commandFailed command exitCode _ stderr =>
    "Command failed (" ++ describeExit exitCode ++ "): " ++ command ++ tailText stderr
  | generation detail => "Config generation failed: " ++ detail
  | generationCaused detail _ => "Config generation failed: " ++ detail
  | artifactNotFound expected => "Expected artifact not found at " ++ expected.text
  | outputDirectory path cause =>
    "Cannot prepare output directory " ++ path.text ++ ": " ++ cause.message
  | companionFile path cause => "Cannot read " ++ path.text ++ ": " ++ cause.message
  | archive cause => "Archive error: " ++ cause.message
  | timestamp detail => "Invalid build timestamp: " ++ detail
  | variant e => e.message
  | project e => e.message
  | io cause => "IO error: " ++ cause.message

end BuildError

def ProjectError.causes : ProjectError → List String
  | config (.io cause) => [cause.message]
  | config (.yaml detail) => [detail]
  | config (.toml detail) => [detail]
  | config _ => []
  | variant _ => []
  | io cause => [cause.message]

namespace BuildError

def causes : BuildError → List String
  | generationCaused _ cause => cause.message :: cause.causes
  | outputDirectory _ cause => [cause.message]
  | companionFile _ cause => [cause.message]
  | archive cause => cause.message :: cause.causes
  | project e => e.causes
  | io cause => [cause.message]
  | _ => []

/-- Whether an error ends the whole run, not only the work on one variant. -/
def isFatal : BuildError → Bool
  | toolNotFound _ _ => true
  | generation _ => true
  | generationCaused _ _ => true
  | outputDirectory _ _ => true
  | timestamp _ => true
  | variant _ => true
  | project _ => true
  | _ => false

def exitCode : BuildError → Int
  | project (.config _) => 2
  | toolNotFound _ _ => 3
  | variant _ => 5
  | project (.variant _) => 5
  | timestamp _ => 5
  | generation _ => 10
  | generationCaused _ _ => 10
  | outputDirectory _ _ => 7
  | commandFailed _ code _ _ => code.getD 1
  | artifactNotFound _ => 13
  | companionFile _ _ => 14
  | archive _ => 14
  | io _ => 7
  | project (.io _) => 7

end BuildError

/-- How a run can end without a result: with an error, or because a valid time format has an item
   without a written form. -/
inductive Failure where
  | error (e : BuildError)
  | unprintableTime
  deriving DecidableEq, Repr

end ReleaseMatrix
