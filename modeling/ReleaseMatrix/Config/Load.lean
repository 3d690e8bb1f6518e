import ReleaseMatrix.Config.Template
import ReleaseMatrix.Config.Toml
import ReleaseMatrix.Config.Validation
import ReleaseMatrix.Config.Yaml
import ReleaseMatrix.FileTree.Change

/- Finding and loading the configuration of a project. -/
namespace ReleaseMatrix.Config

def fileNames : List String :=
  [ConfigFormat.toml.fileName, ConfigFormat.yaml.fileName, ".gantry.toml", ".gantry.yaml"]

def hostingDirectory : String := ".github"

/-- A file with the extension toml is read as TOML, any other as YAML. -/
def formatOf (p : Path) : ConfigFormat := if p.extension = some "toml" then .toml else .yaml

def wrongShape : String := "the document does not describe a configuration"

def parse (format : ConfigFormat) (text : String) : Except ConfigError Config :=
  match format with
  | .toml =>
    match ofToml? text with
    | some c => .ok c
    | none => .error (.toml wrongShape)
  | .yaml =>
    match ofYaml? text with
    | some c => .ok c
    | none => .error (.yaml wrongShape)

def load (t : FileTree) (p : Path) : Except ProjectError Config :=
  match t.readText p with
  | .error e => .error (.config (.io e))
  | .ok text =>
    match parse (formatOf p) text with
    | .error e => .error (.config e)
    | .ok c =>
      match c.validate with
      | .error e => .error e
      | .ok () => .ok c

def candidatesAt (level : Path) : List Path :=
  fileNames.flatMap fun name =>
    [level.join ⟨name⟩, (level.join ⟨hostingDirectory⟩).join ⟨name⟩]

def candidates (start : Path) : List Path := start.ancestors.flatMap candidatesAt

def find (t : FileTree) (start : Path) : Option Path := (candidates start).find? t.exists?

def projectRoot (file : Path) : Path :=
  let dir := file.parent.getD ⟨"."⟩
  if dir.fileName = some hostingDirectory then dir.parent.getD dir else dir

def loadFrom (t : FileTree) (start : Path) : Except ProjectError (Config × Path) :=
  match find t start with
  | none => .error (.config (.notFound start))
  | some file =>
    match load t file with
    | .error e => .error e
    | .ok c => .ok (c, file)

/-- Defaults apply only where there is no file; a file with a fault is an error. -/
def loadOrDefault (t : FileTree) (start : Path) : Except ProjectError (Config × Option Path) :=
  match loadFrom t start with
  | .ok (c, file) => .ok (c, some file)
  | .error (.config (.notFound _)) => .ok ({}, none)
  | .error e => .error e

def versionVariable : String := "GANTRY_VERSION"
def outputDirVariable : String := "GANTRY_OUTPUT_DIR"

/-- Version and output directory from the environment, unless empty there. -/
def override (c : Config) (lookup : String → Option String) : Config :=
  let version := ((lookup versionVariable).filter (· != "")).getD c.project.version
  let outputDir := (((lookup outputDirVariable).filter (· != "")).map Path.mk).getD c.build.outputDir
  { c with
    project := { c.project with version := version }
    build := { c.build with outputDir := outputDir } }

end ReleaseMatrix.Config
