import ReleaseMatrix.Path

/- What the file system or the process table answers when it refuses. -/
namespace ReleaseMatrix

inductive IoError where
  | notFound
  | execFormat
  | permissionDenied
  | busy
  | alreadyExists
  | notDirectory
  | isDirectory
  | fileTooLarge
  | nameTooLong
  | notEmpty
  | invalidUtf8
  | nulInPath
  | nulInArgument
  | atPath (cause : IoError) (path : Path)
  | other (text : String)
  deriving DecidableEq, Repr

namespace IoError

def escapeQuoted (c : Char) : List Char :=
  if c = '"' then ['\\', '"']
  else if c = '\\' then ['\\', '\\']
  else if c = '\n' then ['\\', 'n']
  else if c = '\r' then ['\\', 'r']
  else if c = '\t' then ['\\', 't']
  else if c.toNat = 0 then ['\\', '0']
  else [c]

def quotedPath (p : Path) : String :=
  "\"" ++ String.ofList (p.text.toList.flatMap escapeQuoted) ++ "\""

def message : IoError → String
  | notFound => "No such file or directory (os error 2)"
  | execFormat => "Exec format error (os error 8)"
  | permissionDenied => "Permission denied (os error 13)"
  | busy => "Device or resource busy (os error 16)"
  | alreadyExists => "File exists (os error 17)"
  | notDirectory => "Not a directory (os error 20)"
  | isDirectory => "Is a directory (os error 21)"
  | fileTooLarge => "File too large (os error 27)"
  | nameTooLong => "File name too long (os error 36)"
  | notEmpty => "Directory not empty (os error 39)"
  | invalidUtf8 => "stream did not contain valid UTF-8"
  | nulInPath => "file name contained an unexpected NUL byte"
  | nulInArgument => "nul byte found in provided data"
  | atPath cause path => cause.message ++ " at path " ++ quotedPath path
  | other text => text

end IoError
end ReleaseMatrix
