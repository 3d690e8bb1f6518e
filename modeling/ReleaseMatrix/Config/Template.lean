import ReleaseMatrix.Config.Json
import ReleaseMatrix.Yaml.Printer

/- The configuration files that are written for a new project: every default spelled out. -/
namespace ReleaseMatrix

inductive ConfigFormat where
  | toml
  | yaml
  deriving DecidableEq, Repr

namespace ConfigFormat

def tomlLines : List String :=
  ["# Gantry release configuration",
   "",
   "# Release matrix, built in this order. `gantry build -i N` builds entry N only.",
   "variants = [",
   "    [\"GOOS=darwin\", \"GOARCH=amd64\"],",
   "    [\"GOOS=darwin\", \"GOARCH=arm64\"],",
   "    [\"GOOS=linux\", \"GOARCH=amd64\"],",
   "    [\"GOOS=linux\", \"GOARCH=amd64\", \"GOAMD64=v3\"],",
   "    [\"GOOS=linux\", \"GOARCH=amd64\", \"GOAMD64=v4\"],",
   "    [\"GOOS=linux\", \"GOARCH=arm64\"],",
   "    [\"GOOS=linux\", \"GOARCH=mipsle\", \"GOMIPS=softfloat\"],",
   "    [\"GOOS=linux\", \"GOARCH=mips64le\", \"GOMIPS64=hardfloat\"],",
   "    [\"GOOS=linux\", \"GOARCH=ppc64le\"],",
   "    [\"GOOS=freebsd\", \"GOARCH=amd64\"],",
   "    [\"GOOS=windows\", \"GOARCH=amd64\"],",
   "]",
   "",
   "[project]",
   "name = \"mosdns\"",
   "version = \"4.6.0\"",
   "source = \".\"",
   "readme = \"README.md\"",
   "license = \"LICENSE\"",
   "",
   "[build]",
   "output_dir = \"release\"",
   "compiler = \"go\"",
   "pgo_profile = \"default.pgo\"",
   "trimpath = true",
   "strip = true",
   "version_symbol = \"github.com/pmkol/mosdns-x/constant.Version\"",
   "build_time_symbol = \"github.com/pmkol/mosdns-x/constant.BuildTime\"",
   "build_time_format = \"%y.%m.%d\"",
   "# amd64 variants without GOAMD64 are built at this level",
   "default_amd64_level = \"v3\"",
   "",
   "[config_gen]",
   "program = \"go\"",
   "args = [\"run\", \"\x7bsource\x7d\", \"config\", \"gen\", \"config.yaml\"]",
   "output = \"config.yaml\"",
   "",
   "[package]",
   "compression_level = 5"]

def endLines (ls : List String) : String := ls.foldr (fun line rest => line ++ "\n" ++ rest) ""

def template : ConfigFormat → String
  | toml => endLines tomlLines
  | yaml => Yaml.print (Config.toJson {})

def fileName : ConfigFormat → String
  | toml => "gantry.toml"
  | yaml => "gantry.yaml"

end ConfigFormat
end ReleaseMatrix
