import ReleaseMatrix.Build.Artifact

/- What became of each variant of a run, and of the run. -/
namespace ReleaseMatrix

inductive Outcome where
  | packaged (artifact : Artifact)
  | compileFailed (error : String)
  | packageFailed (error : String)
  | planned (command : String)
  deriving DecidableEq, Repr

namespace Outcome

def isFailure : Outcome → Bool
  | compileFailed _ => true
  | packageFailed _ => true
  | _ => false

def artifact? : Outcome → Option Artifact
  | packaged a => some a
  | _ => none

def error? : Outcome → Option String
  | compileFailed e => some e
  | packageFailed e => some e
  | _ => none

def label : Outcome → String
  | packaged _ => "packaged"
  | compileFailed _ => "compile failed"
  | packageFailed _ => "package failed"
  | planned _ => "planned"

def toJson : Outcome → Json
  | packaged a => .object [("status", .text "packaged"), ("artifact", a.toJson)]
  | compileFailed e => .object [("status", .text "compile_failed"), ("error", .text e)]
  | packageFailed e => .object [("status", .text "package_failed"), ("error", .text e)]
  | planned c => .object [("status", .text "planned"), ("command", .text c)]

end Outcome

structure Report where
  index : Nat
  variant : String
  archiveName : String
  binaryName : String
  outcome : Outcome
  durationMs : Nat
  deriving DecidableEq, Repr

def Report.toJson (r : Report) : Json :=
  .object
    [("index", Json.ofNat r.index), ("variant", .text r.variant),
      ("archive_name", .text r.archiveName), ("binary_name", .text r.binaryName),
      ("outcome", r.outcome.toJson), ("duration_ms", Json.ofNat r.durationMs)]

structure Summary where
  version : String
  buildTime : String
  outputDir : Path
  reports : List Report
  durationMs : Nat
  dryRun : Bool
  deriving DecidableEq, Repr

namespace Summary

def artifacts (s : Summary) : List Artifact := s.reports.filterMap fun r => r.outcome.artifact?

def failures (s : Summary) : List Report := s.reports.filter fun r => r.outcome.isFailure

def packagedCount (s : Summary) : Nat := s.artifacts.length

def failedCount (s : Summary) : Nat := s.failures.length

def isSuccess (s : Summary) : Bool := s.failedCount == 0

def reportsJson (s : Summary) : Json := .list (s.reports.map Report.toJson)

def toJson (s : Summary) : Json :=
  .object
    [("version", .text s.version), ("build_time", .text s.buildTime),
      ("output_dir", .text s.outputDir.text), ("reports", s.reportsJson),
      ("duration_ms", Json.ofNat s.durationMs), ("dry_run", .bool s.dryRun)]

end Summary
end ReleaseMatrix
