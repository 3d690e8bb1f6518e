import ReleaseMatrix.ByteSize
import ReleaseMatrix.Json.Parser
import ReleaseMatrix.Json.Printer
import ReleaseMatrix.Release.Summary

/- The result of an operation, written as text for people or as JSON for pipelines. -/
namespace ReleaseMatrix

inductive OutputFormat where
  | text
  | json
  deriving DecidableEq, Repr

structure ListedArtifact where
  path : String
  variant : String
  size : Nat
  sha256 : Option String
  deriving DecidableEq, Repr

structure Output where
  success : Bool
  message : String
  operation : String
  durationMs : Option Nat := none
  artifacts : List ListedArtifact := []
  planned : List String := []
  warnings : List String := []
  errors : List String := []
  outputs : Std.ExtTreeMap String String := ∅
  metadata : Std.ExtTreeMap String Json := ∅

namespace ListedArtifact

def ofArtifact (a : Artifact) : ListedArtifact := ⟨a.path.text, a.variant, a.size, a.sha256⟩

def toJson (a : ListedArtifact) : Json :=
  .object
    ([("path", .text a.path), ("variant", .text a.variant), ("size", Json.ofNat a.size)] ++
      (a.sha256.map fun digest => ("sha256", Json.text digest)).toList)

def fields : List String := ["path", "variant", "size", "sha256"]

def ofJson? (j : Json) : Option ListedArtifact := do
  let s ← j.record? fields
  let path ← s.required 0 "path" Json.asText?
  let variant ← s.required 1 "variant" Json.asText?
  let size ← s.required 2 "size" Json.count64?
  let sha256 ← s.optional 3 "sha256" Artifact.optionalText?
  some ⟨path, variant, size, sha256⟩

def lines (a : ListedArtifact) : List String :=
  ("  - " ++ a.path ++ " (" ++ ByteSize.text a.size ++ ")") ::
    (a.sha256.map fun digest => "    sha256 " ++ digest).toList

end ListedArtifact

namespace Output

def withDuration (o : Output) (ms : Nat) : Output := { o with durationMs := some ms }

def withArtifacts (o : Output) (artifacts : List Artifact) : Output :=
  { o with artifacts := o.artifacts ++ artifacts.map ListedArtifact.ofArtifact }

def withWarning (o : Output) (warning : String) : Output :=
  { o with warnings := o.warnings ++ [warning] }

def withError (o : Output) (error : String) : Output := { o with errors := o.errors ++ [error] }

def withOutput (o : Output) (key value : String) : Output :=
  { o with outputs := o.outputs.insert key value }

def withMetadata (o : Output) (key : String) (value : Json) : Output :=
  { o with metadata := o.metadata.insert key value.sorted }

def variants (count : Nat) : String := Decimal.ofNat count ++ " variant(s)"

def headline (s : Summary) : String :=
  let total := s.reports.length
  if s.dryRun then "Planned " ++ variants total
  else if s.isSuccess then "Packaged " ++ variants total
  else "Packaged " ++ Decimal.ofNat s.packagedCount ++ " of " ++ variants total ++ ", " ++
    Decimal.ofNat s.failedCount ++ " failed"

def dryRunWarning : String := "Dry run - no archives produced"

def plannedLine? (r : Report) : Option String :=
  match r.outcome with
  | .planned command => some ("[" ++ Decimal.ofNat r.index ++ "] " ++ command)
  | _ => none

def errorLine? (r : Report) : Option String :=
  r.outcome.error?.map fun e => r.archiveName ++ " (" ++ r.outcome.label ++ "): " ++ e

def ofSummary (s : Summary) : Output where
  success := s.dryRun || s.isSuccess
  message := headline s
  operation := "build"
  durationMs := some s.durationMs
  artifacts := s.artifacts.map ListedArtifact.ofArtifact
  planned := s.reports.filterMap plannedLine?
  warnings := if s.dryRun then [dryRunWarning] else []
  errors := s.reports.filterMap errorLine?
  outputs := .ofList
    [("version", s.version), ("build_time", s.buildTime), ("output_dir", s.outputDir.text)]
  metadata := .ofList [("variants", s.reportsJson.sorted)]

def passMark : String := "✓"
def failMark : String := "✗"
def warnMark : String := "⚠"

def titled (title : String) (lines : List String) : List String :=
  if lines.isEmpty then [] else "" :: title :: lines

def lines (o : Output) : List String :=
  [(if o.success then passMark else failMark) ++ " " ++ o.message] ++
    (o.durationMs.map fun ms => "  Duration: " ++ Decimal.ofNat ms ++ "ms").toList ++
    titled "Planned:" (o.planned.map fun command => "  " ++ command) ++
    titled "Artifacts:" (o.artifacts.flatMap ListedArtifact.lines) ++
    o.warnings.map (fun warning => warnMark ++ " " ++ warning) ++
    o.errors.map (fun error => failMark ++ " " ++ error)

def text (o : Output) : String := String.join (o.lines.map fun line => line ++ "\n")

def listField (name : String) (items : List Json) : List (String × Json) :=
  if items.isEmpty then [] else [(name, .list items)]

def mapField (name : String) (fields : List (String × Json)) : List (String × Json) :=
  if fields.isEmpty then [] else [(name, .object fields)]

/-- An order that the fields of the two maps may be written in: a map keeps none. -/
structure Order (o : Output) where
  outputs : List (String × String)
  metadata : List (String × Json)
  outputs_perm : outputs.Perm o.outputs.toList
  metadata_perm : metadata.Perm o.metadata.toList

def byKey (o : Output) : o.Order := ⟨o.outputs.toList, o.metadata.toList, .refl _, .refl _⟩

/-- Empty lists and maps are left out; a missing duration is null. -/
def toJsonIn (o : Output) (order : o.Order) : Json :=
  .object
    ([("success", .bool o.success), ("message", .text o.message), ("operation", .text o.operation),
        ("duration_ms", Json.ofOption Json.ofNat o.durationMs)] ++
      listField "artifacts" (o.artifacts.map ListedArtifact.toJson) ++
      listField "planned" (o.planned.map .text) ++ listField "warnings" (o.warnings.map .text) ++
      listField "errors" (o.errors.map .text) ++
      mapField "outputs" (order.outputs.map fun p => (p.1, .text p.2)) ++
      mapField "metadata" order.metadata)

def toJson (o : Output) : Json := o.toJsonIn o.byKey

def renderIn (o : Output) (order : o.Order) : OutputFormat → String
  | .text => o.text
  | .json => (o.toJsonIn order).pretty

def render (o : Output) (format : OutputFormat) : String := o.renderIn o.byKey format

def fields : List String :=
  ["success", "message", "operation", "duration_ms", "artifacts", "planned", "warnings", "errors",
    "outputs", "metadata"]

def outputsOfJson? (j : Json) : Option (Std.ExtTreeMap String String) := do
  let fields ← j.asObject?
  let pairs ← fields.mapM fun f => f.2.asText?.map fun s => (f.1, s)
  some (.ofList pairs)

def metadataOfJson? (j : Json) : Option (Std.ExtTreeMap String Json) :=
  j.asObject?.map fun fields => .ofList (fields.map fun f => (f.1, f.2.sorted))

def ofJson? (j : Json) : Option Output := do
  let s ← j.record? fields
  let success ← s.required 0 "success" Json.asBool?
  let message ← s.required 1 "message" Json.asText?
  let operation ← s.required 2 "operation" Json.asText?
  let durationMs ← s.optional 3 "duration_ms" (Json.unlessNull? Json.count64?)
  let artifacts ← s.field 4 "artifacts" (Json.listOf? ListedArtifact.ofJson?) []
  let planned ← s.field 5 "planned" Json.texts? []
  let warnings ← s.field 6 "warnings" Json.texts? []
  let errors ← s.field 7 "errors" Json.texts? []
  let outputs ← s.field 8 "outputs" outputsOfJson? ∅
  let metadata ← s.field 9 "metadata" metadataOfJson? ∅
  some ⟨success, message, operation, durationMs, artifacts, planned, warnings, errors, outputs,
    metadata⟩

def parse? (text : String) : Option Output := (Json.parse? text).bind ofJson?

end Output
end ReleaseMatrix
