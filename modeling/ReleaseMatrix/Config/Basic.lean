import ReleaseMatrix.Path
import ReleaseMatrix.Variant.Target

/- The configuration of a release, with its defaults. -/
namespace ReleaseMatrix

structure ProjectConfig where
  name : String := "mosdns"
  version : String := "4.6.0"
  source : Path := ⟨"."⟩
  readme : Path := ⟨"README.md"⟩
  license : Path := ⟨"LICENSE"⟩
  deriving DecidableEq, Repr

structure BuildConfig where
  outputDir : Path := ⟨"release"⟩
  compiler : String := "go"
  pgoProfile : Option Path := some ⟨"default.pgo"⟩
  trimpath : Bool := true
  strip : Bool := true
  versionSymbol : String := "github.com/pmkol/mosdns-x/constant.Version"
  buildTimeSymbol : String := "github.com/pmkol/mosdns-x/constant.BuildTime"
  buildTimeFormat : String := "%y.%m.%d"
  amd64Level : String := defaultAmd64Level
  deriving DecidableEq, Repr

def sourcePlaceholder : String := "\x7bsource\x7d"

structure GeneratorConfig where
  program : String := "go"
  args : List String := ["run", sourcePlaceholder, "config", "gen", "config.yaml"]
  output : String := "config.yaml"
  deriving DecidableEq, Repr

structure PackageConfig where
  compressionLevel : Nat := 5
  deriving DecidableEq, Repr

structure Config where
  variants : List VariantDescriptor := builtinVariants
  project : ProjectConfig := {}
  build : BuildConfig := {}
  generator : GeneratorConfig := {}
  package : PackageConfig := {}
  deriving DecidableEq

namespace Config

def catalog (c : Config) : Except VariantError Catalog := Catalog.new c.variants

def normalizer (c : Config) : Normalizer := ⟨c.project.name, c.build.amd64Level⟩

def samePath? : Option Path → Option Path → Bool
  | some p, some q => p.same q
  | none, none => true
  | _, _ => false

/-- Equality up to the way paths are written. -/
def same (c d : Config) : Bool :=
  c.project.source.same d.project.source && c.project.readme.same d.project.readme &&
    c.project.license.same d.project.license && c.build.outputDir.same d.build.outputDir &&
    samePath? c.build.pgoProfile d.build.pgoProfile &&
    decide
      ({ c with
          project := { c.project with
            source := d.project.source, readme := d.project.readme, license := d.project.license }
          build := { c.build with
            outputDir := d.build.outputDir, pgoProfile := d.build.pgoProfile } } = d)

end Config
end ReleaseMatrix
