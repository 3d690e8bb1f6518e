import ReleaseMatrix.Archive.Writer
import ReleaseMatrix.Build.Artifact
import ReleaseMatrix.Build.Tools
import ReleaseMatrix.Config.Basic

/- Packing a compiled variant together with the companion files of the project. -/
namespace ReleaseMatrix

structure Packager where
  layout : Layout
  readme : Path
  license : Path
  generated : String
  level : Nat
  deriving DecidableEq, Repr

namespace Packager

def readmeEntry : String := "README.md"
def licenseEntry : String := "LICENSE"
def binaryMode : Nat := 0o755
def fileMode : Nat := 0o644

def ofConfig (c : Config) (l : Layout) : Packager :=
  ⟨l, l.projectFile c.project.readme, l.projectFile c.project.license, c.generator.output,
    c.package.compressionLevel⟩

def entries (p : Packager) (v : NormalizedVariant) : List ArchiveEntry :=
  let binary := v.target.binaryName
  [⟨p.layout.outputFile ⟨binary⟩, binary, binaryMode⟩, ⟨p.readme, readmeEntry, fileMode⟩,
    ⟨p.layout.outputFile ⟨p.generated⟩, p.generated, fileMode⟩,
    ⟨p.license, licenseEntry, fileMode⟩]

def destination (p : Packager) (v : NormalizedVariant) : Path :=
  p.layout.outputFile ⟨v.target.archiveName⟩

def metadata (p : Packager) (v : NormalizedVariant) (s : Stamp) : ArtifactMetadata :=
  ⟨some s.version, some s.buildTime, some v.target.os, v.target.arch,
    (p.entries v).map ArchiveEntry.name⟩

def describe (p : Packager) (v : NormalizedVariant) (s : Stamp) (t : FileTree) : Artifact :=
  { (Artifact.new t (p.destination v) v.label).withDigest t with metadata := p.metadata v s }

def writing (p : Packager) (faults : Archive.Faults) (v : NormalizedVariant) (t : FileTree) :
    Archive.Writing :=
  Archive.writeUnder faults t (p.destination v) (p.entries v) p.level

def package (p : Packager) (faults : Archive.Faults) (v : NormalizedVariant) (s : Stamp)
    (t : FileTree) : FileTree × Except BuildError Artifact :=
  let w := p.writing faults v t
  let after := w.tree t
  match w.result with
  | .error e => (after, .error e)
  | .ok () => (after, .ok (p.describe v s after))

end Packager
end ReleaseMatrix
