import ReleaseMatrix.Digest.Sha256
import ReleaseMatrix.FileTree.Change
import ReleaseMatrix.Json.Section

/- The archives that a run makes, as they are described to others. -/
namespace ReleaseMatrix

structure ArtifactMetadata where
  version : Option String := none
  buildTime : Option String := none
  os : Option String := none
  arch : Option String := none
  entries : List String := []
  deriving DecidableEq, Repr

structure Artifact where
  path : Path
  variant : String
  size : Nat
  sha256 : Option String
  metadata : ArtifactMetadata
  deriving DecidableEq, Repr

namespace Artifact

def new (t : FileTree) (path : Path) (variant : String) : Artifact :=
  let size := match t.open? path with
    | .ok e => e.size
    | .error _ => 0
  ⟨path, variant, size, none, {}⟩

def withDigest (a : Artifact) (t : FileTree) : Artifact :=
  match t.read a.path with
  | .ok content => { a with sha256 := some (Sha256.text content) }
  | .error _ => a

def fileName (a : Artifact) : Option String := a.path.fileName

def metadataJson (m : ArtifactMetadata) : Json :=
  .object
    ([("version", Json.ofOption .text m.version), ("build_time", Json.ofOption .text m.buildTime),
      ("os", Json.ofOption .text m.os), ("arch", Json.ofOption .text m.arch)] ++
      if m.entries.isEmpty then [] else [("entries", Json.ofTexts m.entries)])

def toJson (a : Artifact) : Json :=
  .object
    [("path", .text a.path.text), ("variant", .text a.variant), ("size", Json.ofNat a.size),
      ("sha256", Json.ofOption .text a.sha256), ("metadata", metadataJson a.metadata)]

def metadataFields : List String := ["version", "build_time", "os", "arch", "entries"]

def optionalText? (j : Json) : Option (Option String) := j.unlessNull? Json.asText?

def metadataOfJson? (j : Json) : Option ArtifactMetadata := do
  let s ← j.record? metadataFields
  let version ← s.optional 0 "version" optionalText?
  let buildTime ← s.optional 1 "build_time" optionalText?
  let os ← s.optional 2 "os" optionalText?
  let arch ← s.optional 3 "arch" optionalText?
  let entries ← s.field 4 "entries" Json.texts? []
  some ⟨version, buildTime, os, arch, entries⟩

def fields : List String := ["path", "variant", "size", "sha256", "metadata"]

def ofJson? (j : Json) : Option Artifact := do
  let s ← j.record? fields
  let path ← s.required 0 "path" Json.asText?
  let variant ← s.required 1 "variant" Json.asText?
  let size ← s.required 2 "size" Json.count64?
  let sha256 ← s.optional 3 "sha256" optionalText?
  let metadata ← s.required 4 "metadata" metadataOfJson?
  some ⟨⟨path⟩, variant, size, sha256, metadata⟩

end Artifact
end ReleaseMatrix
