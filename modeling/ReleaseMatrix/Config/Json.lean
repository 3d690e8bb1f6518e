import ReleaseMatrix.Config.Reader
import ReleaseMatrix.Json.Section

/- Configurations as JSON values. -/
namespace ReleaseMatrix

def Json.dataView : DataView Json where
  text? := Json.asText?
  flag? := Json.asBool?
  count? := Json.count32?
  items? := Json.asList?
  fieldsOf? := Json.fieldsOf?
  present? j := some !j.isNull

namespace Config

def ofJson? (j : Json) : Option Config := Json.dataView.config? j

def pathJson (p : Path) : Json := .text p.text

def projectJson (p : ProjectConfig) : Json :=
  .object
    [("name", .text p.name), ("version", .text p.version), ("source", pathJson p.source),
      ("readme", pathJson p.readme), ("license", pathJson p.license)]

def buildJson (b : BuildConfig) : Json :=
  .object
    [("output_dir", pathJson b.outputDir), ("compiler", .text b.compiler),
      ("pgo_profile", Json.ofOption pathJson b.pgoProfile), ("trimpath", .bool b.trimpath),
      ("strip", .bool b.strip), ("version_symbol", .text b.versionSymbol),
      ("build_time_symbol", .text b.buildTimeSymbol),
      ("build_time_format", .text b.buildTimeFormat),
      ("default_amd64_level", .text b.amd64Level)]

def generatorJson (g : GeneratorConfig) : Json :=
  .object
    [("program", .text g.program), ("args", Json.ofTexts g.args), ("output", .text g.output)]

def packageJson (p : PackageConfig) : Json :=
  .object [("compression_level", Json.ofNat p.compressionLevel)]

def toJson (c : Config) : Json :=
  .object
    [("variants", .list (c.variants.map fun d => Json.ofTexts d.strings)),
      ("project", projectJson c.project), ("build", buildJson c.build),
      ("config_gen", generatorJson c.generator), ("package", packageJson c.package)]

end Config
end ReleaseMatrix
