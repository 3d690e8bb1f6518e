import ReleaseMatrix.Build.Error
import ReleaseMatrix.Config.Basic
import ReleaseMatrix.Time.Printer

/- The version and the build time that every binary of a run carries. -/
namespace ReleaseMatrix

structure Stamp where
  version : String
  buildTime : String
  deriving DecidableEq, Repr

def epochVariable : String := "SOURCE_DATE_EPOCH"

namespace Stamp

/-- An epoch that is blank counts as none. -/
def pinned? (epoch : Option String) : Option String := (epoch.map Text.trim).filter (· != "")

def fault (detail : String) : Except Failure String := .error (.error (.timestamp detail))

def write (format : Time.Format) (zone : String) (time : Time.LocalTime) : Except Failure String :=
  match Time.Format.print zone time format with
  | some text => .ok text
  | none => .error .unprintableTime

/-- The epoch, in seconds, goes before the clock. The clock is in a zone without a name, the epoch in
    UTC. -/
def timeText (format : String) (epoch : Option String) (now : Time.LocalTime) :
    Except Failure String :=
  match Time.Format.parse? format with
  | none => fault ("'" ++ format ++ "' is not a valid strftime format")
  | some items =>
    match pinned? epoch with
    | none => write items (Time.zoneText now.offset) now
    | some raw =>
      match Decimal.int64? raw.toList with
      | none => fault (epochVariable ++ "='" ++ raw ++ "' is not an integer")
      | some seconds =>
        match Time.Moment.ofSeconds? seconds with
        | none => fault (epochVariable ++ "=" ++ Decimal.ofInt seconds ++ " is out of range")
        | some moment => write items "UTC" (.utc moment)

def ofConfig (c : Config) (epoch : Option String) (now : Time.LocalTime) : Except Failure Stamp :=
  match timeText c.build.buildTimeFormat epoch now with
  | .error e => .error e
  | .ok time => .ok ⟨c.project.version, time⟩

end Stamp
end ReleaseMatrix
