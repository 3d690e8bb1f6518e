import ReleaseMatrix.Config.Basic
import ReleaseMatrix.Config.Error
import ReleaseMatrix.Time.Format

/- The rules a configuration has to keep, checked in a fixed order: project, build, generator,
   package, variants. -/
namespace ReleaseMatrix.Config

def invalid (field detail : String) : Except ProjectError Unit :=
  .error (.config (.invalidValue field detail))

def amd64Levels : List String := ["v1", "v2", "v3", "v4"]

def maxCompressionLevel : Nat := 9

/-- A path without components, or with none but dots. -/
def isProjectRoot (p : Path) : Bool := p.components.all fun c => decide (c = .current)

def checkProject (p : ProjectConfig) : Except ProjectError Unit :=
  if Text.allBlank p.name then invalid "project.name" "name cannot be empty"
  else if Text.contains p.name '/' || Text.contains p.name '\\' then
    invalid "project.name" "name cannot contain path separators"
  else if Text.allBlank p.version then invalid "project.version" "version cannot be empty"
  else .ok ()

def checkBuild (b : BuildConfig) : Except ProjectError Unit :=
  if b.outputDir.text = "" then
    invalid "build.output_dir" "output directory cannot be empty"
  else if isProjectRoot b.outputDir then
    invalid "build.output_dir" "output directory must differ from the project root"
  else if Text.allBlank b.compiler then invalid "build.compiler" "compiler cannot be empty"
  else if Text.allBlank b.versionSymbol then
    invalid "build.version_symbol" "symbol cannot be empty"
  else if Text.allBlank b.buildTimeSymbol then
    invalid "build.build_time_symbol" "symbol cannot be empty"
  else if b.buildTimeFormat = "" || !Time.Format.isValid b.buildTimeFormat then
    invalid "build.build_time_format" ("'" ++ b.buildTimeFormat ++ "' is not a valid strftime format")
  else if !amd64Levels.contains b.amd64Level then
    invalid "build.default_amd64_level" ("must be one of: " ++ Text.joinWith ", " amd64Levels)
  else .ok ()

def checkGenerator (g : GeneratorConfig) : Except ProjectError Unit :=
  if Text.allBlank g.program then invalid "config_gen.program" "program cannot be empty"
  else if Path.fileName ⟨g.output⟩ = some g.output then .ok ()
  else invalid "config_gen.output" "output must be a plain file name inside the output directory"

def checkPackage (p : PackageConfig) : Except ProjectError Unit :=
  if maxCompressionLevel < p.compressionLevel then
    invalid "package.compression_level"
      ("must be between 0 and " ++ Decimal.ofNat maxCompressionLevel)
  else .ok ()

def checkVariants (variants : List VariantDescriptor) : Except ProjectError Unit :=
  if variants.isEmpty then .error (.variant .emptyCatalog) else .ok ()

def validate (c : Config) : Except ProjectError Unit := do
  checkProject c.project
  checkBuild c.build
  checkGenerator c.generator
  checkPackage c.package
  checkVariants c.variants

end ReleaseMatrix.Config
